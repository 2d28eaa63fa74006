import Mathlib.Data.Nat.Basic

/-!
# While loops

A loop is a step function `σ → ρ ⊕ σ`: from a state it either stops with a
result or goes on from the next state. `loop step fuel` runs it for at most
`fuel` steps, so it computes; `Halts` says that some fuel is enough.

The two rules are the two ways to settle whether a loop stops: a measure that
every further step lowers (`halts_of_measure`), or an invariant from which the
loop always goes on (`not_halts_of_invariant`). Both take an invariant, since
neither the measure nor the going on need make sense in states the loop never
reaches. `loop_result` is the rule for what holds of the result.
-/

namespace LingoAsync.Loop

variable {σ ρ : Type}

/-- The result of the loop from `s`, if it stops within `fuel` steps. -/
def loop (step : σ → ρ ⊕ σ) : (fuel : Nat) → σ → Option ρ
  | 0, _ => none
  | fuel + 1, s =>
    match step s with
    | .inl r => some r
    | .inr s' => loop step fuel s'

/-- Where the loop from `s` is after at most `fuel` steps: stopped with its result, or
in the state it goes on from. -/
def upTo (step : σ → ρ ⊕ σ) : (fuel : Nat) → σ → ρ ⊕ σ
  | 0, s => .inr s
  | fuel + 1, s =>
    match step s with
    | .inl r => .inl r
    | .inr s' => upTo step fuel s'

/-- The loop stops. -/
def Halts (step : σ → ρ ⊕ σ) (s : σ) : Prop := ∃ fuel, (loop step fuel s).isSome

theorem loop_stop {step : σ → ρ ⊕ σ} {s : σ} {r : ρ} (h : step s = .inl r) (fuel : Nat) :
    loop step (fuel + 1) s = some r := by
  rw [loop, h]

theorem loop_next {step : σ → ρ ⊕ σ} {s s' : σ} (h : step s = .inr s') (fuel : Nat) :
    loop step (fuel + 1) s = loop step fuel s' := by
  rw [loop, h]

theorem halts_stop {step : σ → ρ ⊕ σ} {s : σ} {r : ρ} (h : step s = .inl r) : Halts step s :=
  ⟨1, by rw [loop_stop h]; rfl⟩

theorem halts_next {step : σ → ρ ⊕ σ} {s s' : σ} (h : step s = .inr s') :
    Halts step s ↔ Halts step s' := by
  constructor
  · intro hyp
    obtain ⟨fuel, hf⟩ := hyp
    cases fuel with
    | zero => cases hf
    | succ fuel => exact ⟨fuel, by rwa [loop_next h] at hf⟩
  · intro hyp
    obtain ⟨fuel, hf⟩ := hyp
    exact ⟨fuel + 1, by rwa [loop_next h]⟩

/-- A run that went on from `s` is a run from the next state. -/
theorem loop_after {step : σ → ρ ⊕ σ} {s s' : σ} {r : ρ} {fuel : Nat} (h : step s = .inr s')
    (hrun : loop step fuel s = some r) : ∃ fuel', loop step fuel' s' = some r := by
  cases fuel with
  | zero => cases hrun
  | succ fuel => exact ⟨fuel, by rwa [loop_next h] at hrun⟩

/-- A loop whose every further step keeps `Inv` and lowers `μ` stops. -/
theorem halts_of_measure (Inv : σ → Prop) (μ : σ → Nat) {step : σ → ρ ⊕ σ}
    (h : ∀ s s', Inv s → step s = .inr s' → Inv s' ∧ μ s' < μ s) {s : σ} (hs : Inv s) :
    Halts step s := by
  suffices hn : ∀ n s, Inv s → μ s < n → Halts step s from hn (μ s + 1) s hs (Nat.lt_succ_self _)
  intro n
  induction n with
  | zero =>
    intro _ _ hlt
    exact absurd hlt (Nat.not_lt_zero _)
  | succ n ih =>
    intro s hs hlt
    cases hstep : step s with
    | inl r => exact halts_stop hstep
    | inr s' =>
      obtain ⟨hs', hdec⟩ := h s s' hs hstep
      exact (halts_next hstep).mpr (ih s' hs' (by omega))

/-- A loop that goes on from every state with `Inv`, and keeps it, never stops. -/
theorem not_halts_of_invariant (Inv : σ → Prop) {step : σ → ρ ⊕ σ}
    (h : ∀ s, Inv s → ∃ s', step s = .inr s' ∧ Inv s') {s : σ} (hs : Inv s) :
    ¬ Halts step s := by
  suffices hn : ∀ fuel s, Inv s → loop step fuel s = none by
    intro hyp
    obtain ⟨fuel, hf⟩ := hyp
    rw [hn fuel s hs] at hf
    cases hf
  intro fuel
  induction fuel with
  | zero =>
    intro _ _
    exact rfl
  | succ fuel ih =>
    intro s hs
    obtain ⟨s', hstep, hs'⟩ := h s hs
    rw [loop_next hstep]
    exact ih s' hs'

/-- What holds of the result: an invariant every further step keeps, and what it
gives where the loop stops. -/
theorem loop_result (Inv : σ → Prop) (Post : ρ → Prop) {step : σ → ρ ⊕ σ}
    (hnext : ∀ s s', Inv s → step s = .inr s' → Inv s')
    (hstop : ∀ s r, Inv s → step s = .inl r → Post r) {fuel : Nat} {s : σ} {r : ρ}
    (hs : Inv s) (h : loop step fuel s = some r) : Post r := by
  induction fuel generalizing s with
  | zero => cases h
  | succ fuel ih =>
    cases hstep : step s with
    | inl r' =>
      rw [loop_stop hstep] at h
      exact Option.some.inj h ▸ hstop s r' hs hstep
    | inr s' =>
      rw [loop_next hstep] at h
      exact ih (hnext s s' hs hstep) h

/-! ## Loops that never need to stop -/

/-- What holds wherever the loop is: an invariant every further step keeps, and
what it gives where the loop stops. -/
theorem upTo_inv (Inv : σ → Prop) (Post : ρ → Prop) {step : σ → ρ ⊕ σ}
    (hnext : ∀ s s', Inv s → step s = .inr s' → Inv s')
    (hstop : ∀ s r, Inv s → step s = .inl r → Post r) (fuel : Nat) {s : σ} (hs : Inv s) :
    (upTo step fuel s).elim Post Inv := by
  induction fuel generalizing s with
  | zero => exact hs
  | succ fuel ih =>
    rw [upTo]
    cases hstep : step s with
    | inl r => exact hstop s r hs hstep
    | inr s' => exact ih (hnext s s' hs hstep)

theorem loop_eq_some {step : σ → ρ ⊕ σ} {fuel : Nat} {s : σ} {r : ρ} :
    loop step fuel s = some r ↔ upTo step fuel s = .inl r := by
  induction fuel generalizing s with
  | zero =>
    rw [loop, upTo]
    exact ⟨nofun, nofun⟩
  | succ fuel ih =>
    cases hstep : step s with
    | inl r' =>
      rw [loop_stop hstep, upTo, hstep]
      exact ⟨fun h => congrArg Sum.inl (Option.some.inj h), fun h => congrArg some (Sum.inl.inj h)⟩
    | inr s' =>
      rw [loop_next hstep, upTo, hstep]
      exact ih

/-- A loop that is another one seen through `f`, step by step, is so as a whole. -/
theorem loop_map {σ' ρ' : Type} {step : σ → ρ ⊕ σ} {step' : σ' → ρ' ⊕ σ'} (f : σ' → σ)
    (g : ρ' → ρ) (h : ∀ s, step (f s) = (step' s).map g f) (fuel : Nat) (s : σ') :
    loop step fuel (f s) = (loop step' fuel s).map g := by
  induction fuel generalizing s with
  | zero => rfl
  | succ fuel ih =>
    cases hstep : step' s with
    | inl r =>
      have hs : step (f s) = .inl (g r) := by rw [h, hstep]; rfl
      rw [loop_stop hs, loop_stop hstep]
      rfl
    | inr s' =>
      have hs : step (f s) = .inr (f s') := by rw [h, hstep]; rfl
      rw [loop_next hs, loop_next hstep]
      exact ih s'

/-- So is where it has got to. -/
theorem upTo_map {σ' ρ' : Type} {step : σ → ρ ⊕ σ} {step' : σ' → ρ' ⊕ σ'} (f : σ' → σ)
    (g : ρ' → ρ) (h : ∀ s, step (f s) = (step' s).map g f) (fuel : Nat) (s : σ') :
    upTo step fuel (f s) = (upTo step' fuel s).map g f := by
  induction fuel generalizing s with
  | zero => rfl
  | succ fuel ih =>
    rw [upTo, upTo, h]
    cases step' s with
    | inl r => rfl
    | inr s' => exact ih s'

end LingoAsync.Loop
