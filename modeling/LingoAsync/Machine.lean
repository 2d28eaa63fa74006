import Mathlib.Data.List.Basic
import Mathlib.Order.Basic

/-!
# Runs of a step function

A machine is a step function `step : σ → ι → σ`; a run folds it over a list of
inputs. Two questions are asked of a run again and again, and each is answered
here once:

* does an invariant survive it? `run_inv`: it is enough that one step keeps it;
* does a property of single steps hold all along it? `Along step Q s is` says
  that `Q` holds of every state-input pair the run meets. Two such properties hold along
  the same runs if they agree wherever an invariant holds (`along_congr`), and a property of
  a part of the state can be followed on that part alone (`along_map`).

`run_iff_along` and `run_inv_iff` join the two. When one step keeps `Inv` exactly under a
condition `Q` on the state before it and its input, a whole run keeps `Inv` in
every state it passes exactly when `Q` holds all along the run. That is the
shape of every "the property holds if and only if no step takes the bad branch"
result about a machine.
-/

namespace LingoAsync.Machine

variable {σ ι : Type}

/-- The state a run over `is` from `s` ends in. -/
def run (step : σ → ι → σ) (s : σ) (is : List ι) : σ := is.foldl step s

@[simp] theorem run_nil (step : σ → ι → σ) (s : σ) : run step s [] = s := rfl

@[simp] theorem run_cons (step : σ → ι → σ) (s : σ) (i : ι) (is : List ι) :
    run step s (i :: is) = run step (step s i) is := rfl

theorem run_append (step : σ → ι → σ) (s : σ) (is js : List ι) :
    run step s (is ++ js) = run step (run step s is) js :=
  List.foldl_append ..

theorem run_concat (step : σ → ι → σ) (s : σ) (is : List ι) (i : ι) :
    run step s (is ++ [i]) = step (run step s is) i := by
  rw [run_append, run_cons, run_nil]

/-- An invariant one step keeps, a run keeps. -/
theorem run_inv (Inv : σ → Prop) {step : σ → ι → σ}
    (hstep : ∀ s i, Inv s → Inv (step s i)) (is : List ι) {s : σ} (h : Inv s) :
    Inv (run step s is) := by
  induction is generalizing s with
  | nil => exact h
  | cons i is ih => exact ih (hstep s i h)

/-- `Q` holds of every state-input pair the run from `s` over the inputs meets. -/
def Along (step : σ → ι → σ) (Q : σ → ι → Prop) : σ → List ι → Prop
  | _, [] => True
  | s, i :: is => Q s i ∧ Along step Q (step s i) is

@[simp] theorem along_cons (step : σ → ι → σ) (Q : σ → ι → Prop) (s : σ) (i : ι)
    (is : List ι) : Along step Q s (i :: is) ↔ Q s i ∧ Along step Q (step s i) is := Iff.rfl

instance (step : σ → ι → σ) (Q : σ → ι → Prop) [∀ s i, Decidable (Q s i)] :
    ∀ (s : σ) (is : List ι), Decidable (Along step Q s is)
  | _, [] => inferInstanceAs (Decidable True)
  | s, i :: is =>
    have := instDecidableAlong step Q (step s i) is
    inferInstanceAs (Decidable (Q s i ∧ Along step Q (step s i) is))

/-- Two properties hold along the same runs if they agree wherever an invariant holds that
every step with the first of them keeps. -/
theorem along_congr (Inv : σ → Prop) {step : σ → ι → σ} {P Q : σ → ι → Prop}
    (hstep : ∀ s i, Inv s → P s i → Inv (step s i)) (h : ∀ s i, Inv s → (P s i ↔ Q s i))
    (is : List ι) {s : σ} (hs : Inv s) : Along step P s is ↔ Along step Q s is := by
  induction is generalizing s with
  | nil => exact Iff.rfl
  | cons i is ih =>
    rw [along_cons, along_cons, ← h s i hs]
    exact and_congr_right fun hp => ih (hstep s i hs hp)

/-- An invariant that every step with `P` keeps, a run with `P` all along it keeps. -/
theorem along_inv (Inv : σ → Prop) {step : σ → ι → σ} {P : σ → ι → Prop}
    (hstep : ∀ s i, Inv s → P s i → Inv (step s i)) {is : List ι} {s : σ} (hs : Inv s)
    (h : Along step P s is) : Inv (run step s is) := by
  induction is generalizing s with
  | nil => exact hs
  | cons i is ih => exact ih (hstep s i hs h.1) h.2

/-- A property of what a machine shows of its state holds along its run exactly if it holds
along the run of the machine that keeps no more than that. -/
theorem along_map {τ : Type} (view : σ → τ) {step : σ → ι → σ} {step' : τ → ι → τ}
    (hview : ∀ s i, view (step s i) = step' (view s) i) (Q : τ → ι → Prop) (is : List ι) (s : σ) :
    Along step (fun t i => Q (view t) i) s is ↔ Along step' Q (view s) is := by
  induction is generalizing s with
  | nil => exact Iff.rfl
  | cons i is ih => rw [along_cons, along_cons, ih, hview]

/-- A property that a step extends by a condition of its own holds after a run
exactly when it held before and every step met its condition. -/
theorem run_iff_along (P : σ → Prop) {step : σ → ι → σ} {Q : σ → ι → Prop}
    (h : ∀ s i, P (step s i) ↔ P s ∧ Q s i) (is : List ι) (s : σ) :
    P (run step s is) ↔ P s ∧ Along step Q s is := by
  induction is generalizing s with
  | nil => exact ⟨fun hp => ⟨hp, trivial⟩, fun hp => hp.1⟩
  | cons i is ih => rw [run_cons, ih (step s i), h, along_cons, and_assoc]

/-- **A run keeps `Inv` exactly when every step meets the condition.** One step
keeps `Inv` if and only if `Q` holds of the state before it and its input; so
every state of a run satisfies `Inv` if and only if `Q` holds all along it. -/
theorem run_inv_iff {step : σ → ι → σ} {Inv : σ → Prop} {Q : σ → ι → Prop}
    (h : ∀ s i, Inv s → (Inv (step s i) ↔ Q s i)) (is : List ι) {s : σ} (hs : Inv s) :
    (∀ js, js <+: is → Inv (run step s js)) ↔ Along step Q s is := by
  induction is generalizing s with
  | nil =>
    refine ⟨fun _ => trivial, ?_⟩
    intro _ js hjs
    rw [List.prefix_nil.mp hjs]
    exact hs
  | cons i is ih =>
    constructor
    · intro hall
      -- the prefix `[i]` gives the invariant after the first step, the longer ones the rest
      have hi : Inv (step s i) := hall [i] (List.cons_prefix_cons.mpr ⟨rfl, List.nil_prefix⟩)
      refine ⟨(h s i hs).mp hi, (ih hi).mp ?_⟩
      intro js hjs
      exact hall (i :: js) (List.cons_prefix_cons.mpr ⟨rfl, hjs⟩)
    · intro hyp js hjs
      obtain ⟨hq, hrest⟩ := hyp
      have hi : Inv (step s i) := (h s i hs).mpr hq
      cases js with
      | nil => exact hs
      | cons j js =>
        obtain ⟨rfl, hjs'⟩ := List.cons_prefix_cons.mp hjs
        exact (ih hi).mpr hrest js hjs'

end LingoAsync.Machine
