import LingoAsync.Machine
import LingoAsync.Program
import Mathlib.Logic.Function.Basic

/-!
# Programs side by side

A pool of programs, each on a state of its own, and a state they share. At its turn a program makes
its next call: the call is answered on the program's own state, and leaves its mark on the shared
one. The turns are taken in any order.

Of its own state a program sees no more than it would alone, so whatever the order it comes to the
result it comes to alone (`run_turns`), and it is there once it has had as many turns as it makes
calls (`finished_of_turns`). What it shares with the others is a log of the marks they all leave.
Each program's own ledger has its own marks, in order; the log has all of them, in some order
(`shared_turns`). So where the order does not matter the shared state is that of the programs run
one after the other.
-/

namespace LingoAsync

open Action Machine

namespace Program

variable {ε κ σ α : Type} {ρ : κ → Type}

/-- Make the next call, if there is one. -/
def advance (answer : (c : κ) → Action ε σ (ρ c)) :
    Program ε κ ρ α → σ → Program ε κ ρ α × σ
  | call c next, s => (next (answer c s).1, (answer c s).2)
  | p, s => (p, s)

/-- The call is one that the program was going to make. -/
theorem run_advance (answer : (c : κ) → Action ε σ (ρ c)) (p : Program ε κ ρ α) (s : σ) :
    (p.advance answer s).1.run answer (p.advance answer s).2 = p.run answer s := by
  cases p <;> rfl

/-- The number of calls a program makes. -/
def calls (answer : (c : κ) → Action ε σ (ρ c)) : Program ε κ ρ α → σ → Nat
  | call c next, s => calls answer (next (answer c s).1) (answer c s).2 + 1
  | _, _ => 0

theorem calls_advance (answer : (c : κ) → Action ε σ (ρ c)) (p : Program ε κ ρ α) (s : σ) :
    (p.advance answer s).1.calls answer (p.advance answer s).2 = p.calls answer s - 1 := by
  cases p <;> rfl

/-- The program has come to its end, with this result. -/
def ended : Program ε κ ρ α → Option (Except ε α)
  | ret a => some (.ok a)
  | raise e => some (.error e)
  | call _ _ => none

/-- A program without a call to make has come to its end, where its run does. -/
theorem ended_of_calls {answer : (c : κ) → Action ε σ (ρ c)} {p : Program ε κ ρ α} {s : σ}
    (h : p.calls answer s = 0) : p.ended = some (p.run answer s).1 ∧ (p.run answer s).2 = s := by
  cases p with
  | ret a => exact ⟨rfl, rfl⟩
  | raise e => exact ⟨rfl, rfl⟩
  | call c next => cases h

theorem Makes.advance {Q : κ → Prop} {answer : (c : κ) → Action ε σ (ρ c)}
    {p : Program ε κ ρ α} (h : p.Makes Q) (s : σ) : (p.advance answer s).1.Makes Q := by
  cases p with
  | ret a => trivial
  | raise e => trivial
  | call c next => exact h.2 _

end Program

/-- Programs, the state of each, and what they share. -/
structure Pool (ι ε κ : Type) (ρ : κ → Type) (α σ τ : Type) where
  program : ι → Program ε κ ρ α
  state : ι → σ
  shared : τ

namespace Pool

variable {ι ε κ α σ τ γ : Type} {ρ : κ → Type} [DecidableEq ι]

/-- The mark of the next call of a program: what the call and its answer put on the log. -/
def mark (answer : (c : κ) → Action ε σ (ρ c)) (marks : (c : κ) → Except ε (ρ c) → List γ) :
    Program ε κ ρ α → σ → List γ
  | .call c _, s => marks c (answer c s).1
  | _, _ => []

variable (answer : ι → (c : κ) → Action ε σ (ρ c)) (marks : (c : κ) → Except ε (ρ c) → List γ)
  (put : τ → γ → τ)

/-- A turn of program `i`. -/
def turn (pool : Pool ι ε κ ρ α σ τ) (i : ι) : Pool ι ε κ ρ α σ τ where
  program := Function.update pool.program i
    ((pool.program i).advance (answer i) (pool.state i)).1
  state := Function.update pool.state i ((pool.program i).advance (answer i) (pool.state i)).2
  shared := (mark (answer i) marks (pool.program i) (pool.state i)).foldl put pool.shared

section Alone

variable {answer marks put}

/-! Of a turn, the program whose turn it is has its step, and every other nothing. -/

theorem turn_program_self (pool : Pool ι ε κ ρ α σ τ) (i : ι) :
    (turn answer marks put pool i).program i =
      ((pool.program i).advance (answer i) (pool.state i)).1 := Function.update_self ..

theorem turn_state_self (pool : Pool ι ε κ ρ α σ τ) (i : ι) :
    (turn answer marks put pool i).state i =
      ((pool.program i).advance (answer i) (pool.state i)).2 := Function.update_self ..

theorem turn_program_ne (pool : Pool ι ε κ ρ α σ τ) {i j : ι} (h : j ≠ i) :
    (turn answer marks put pool i).program j = pool.program j := Function.update_of_ne h ..

theorem turn_state_ne (pool : Pool ι ε κ ρ α σ τ) {i j : ι} (h : j ≠ i) :
    (turn answer marks put pool i).state j = pool.state j := Function.update_of_ne h ..

/-- **In any order, each program comes to what it comes to alone.** -/
theorem run_turns (pool : Pool ι ε κ ρ α σ τ) (turns : List ι) (i : ι) :
    ((run (turn answer marks put) pool turns).program i).run (answer i)
        ((run (turn answer marks put) pool turns).state i) =
      (pool.program i).run (answer i) (pool.state i) := by
  induction turns generalizing pool with
  | nil => rfl
  | cons j turns ih =>
    rw [run_cons, ih]
    by_cases h : i = j
    · subst h
      rw [turn_program_self, turn_state_self]
      exact Program.run_advance (answer i) _ _
    · rw [turn_program_ne pool h, turn_state_ne pool h]

/-- Each turn takes one call off those a program has left. -/
theorem calls_turns (pool : Pool ι ε κ ρ α σ τ) (turns : List ι) (i : ι) :
    ((run (turn answer marks put) pool turns).program i).calls (answer i)
        ((run (turn answer marks put) pool turns).state i) =
      (pool.program i).calls (answer i) (pool.state i) - turns.count i := by
  induction turns generalizing pool with
  | nil => rfl
  | cons j turns ih =>
    rw [run_cons, ih]
    by_cases h : i = j
    · subst h
      rw [turn_program_self, turn_state_self, Program.calls_advance, List.count_cons_self,
        Nat.sub_sub, Nat.add_comm]
    · rw [turn_program_ne pool h, turn_state_ne pool h, List.count_cons_of_ne (Ne.symm h)]

variable (answer marks put) in
/-- **A program that has had as many turns as it makes calls** has come to its end, with the result
and the state that it comes to alone. -/
theorem finished_of_turns (pool : Pool ι ε κ ρ α σ τ) {turns : List ι} {i : ι}
    (h : (pool.program i).calls (answer i) (pool.state i) ≤ turns.count i) :
    ((run (turn answer marks put) pool turns).program i).ended =
        some ((pool.program i).run (answer i) (pool.state i)).1 ∧
      (run (turn answer marks put) pool turns).state i =
        ((pool.program i).run (answer i) (pool.state i)).2 := by
  have hcalls : ((run (turn answer marks put) pool turns).program i).calls (answer i)
      ((run (turn answer marks put) pool turns).state i) = 0 :=
    (calls_turns pool turns i).trans (Nat.sub_eq_zero_of_le h)
  obtain ⟨hended, hstate⟩ := Program.ended_of_calls hcalls
  rw [run_turns] at hended hstate
  exact ⟨hended, hstate.symm⟩

end Alone

/-! ## What they share -/

/-- The entries of the programs, one program after the other. -/
def entries (ledger : σ → List γ) (order : List ι) (state : ι → σ) : List γ :=
  order.flatMap fun i => ledger (state i)

/-- Entries added for one of the programs. -/
theorem entries_update {ledger : σ → List γ} {order : List ι} (hnodup : order.Nodup) {i : ι}
    (hi : i ∈ order) (state : ι → σ) {s : σ} {new : List γ}
    (hs : ledger s = ledger (state i) ++ new) :
    (entries ledger order (Function.update state i s)).Perm
      (entries ledger order state ++ new) := by
  induction order with
  | nil => cases hi
  | cons j order ih =>
    obtain ⟨hj, hnodup'⟩ := List.nodup_cons.mp hnodup
    rw [entries, entries, List.flatMap_cons, List.flatMap_cons]
    by_cases h : j = i
    · -- the others' entries are the same, and come after the new ones
      subst h
      have hothers : (order.flatMap fun i => ledger (Function.update state j s i)) =
          order.flatMap fun i => ledger (state i) := by
        refine List.flatMap_congr ?_
        intro k hk
        have hne : k ≠ j := fun he => hj (he ▸ hk)
        rw [Function.update_of_ne hne]
      rw [hothers, Function.update_self, hs, List.append_assoc, List.append_assoc]
      exact List.Perm.append_left _ List.perm_append_comm
    · have hmem : i ∈ order := (List.mem_cons.mp hi).resolve_left (Ne.symm h)
      rw [Function.update_of_ne h, List.append_assoc]
      exact List.Perm.append_left _ (ih hnodup' hmem)

/-- **The shared state is made of a log of the marks**, which has each program's new entries and no
others. -/
theorem shared_turns (ledger : σ → List γ)
    (hledger : ∀ i c s, ledger (answer i c s).2 = ledger s ++ marks c (answer i c s).1)
    {Q : κ → Prop} {P : γ → Prop} (hmarks : ∀ c r, Q c → ∀ x ∈ marks c r, P x)
    {order : List ι} (hnodup : order.Nodup) (hall : ∀ i, i ∈ order)
    (pool : Pool ι ε κ ρ α σ τ) (hmakes : ∀ i, (pool.program i).Makes Q) (turns : List ι) :
    ∃ log : List γ, (run (turn answer marks put) pool turns).shared = log.foldl put pool.shared ∧
      (entries ledger order (run (turn answer marks put) pool turns).state).Perm
        (entries ledger order pool.state ++ log) ∧ ∀ x ∈ log, P x := by
  induction turns generalizing pool with
  | nil => exact ⟨[], rfl, by rw [List.append_nil]; exact List.Perm.refl _, List.forall_mem_nil _⟩
  | cons i turns ih =>
    have hmakes' : ∀ j, ((turn answer marks put pool i).program j).Makes Q := by
      intro j
      by_cases h : j = i
      · subst h
        rw [turn_program_self]
        exact (hmakes j).advance _
      · rw [turn_program_ne pool h]
        exact hmakes j
    obtain ⟨log, hshared, hperm, hP⟩ := ih (turn answer marks put pool i) hmakes'
    obtain ⟨hown, hnew⟩ : ledger ((pool.program i).advance (answer i) (pool.state i)).2 =
        ledger (pool.state i) ++ mark (answer i) marks (pool.program i) (pool.state i) ∧
        ∀ x ∈ mark (answer i) marks (pool.program i) (pool.state i), P x := by
      have hmakes := hmakes i
      cases hp : pool.program i with
      | ret a => exact ⟨(List.append_nil _).symm, List.forall_mem_nil _⟩
      | raise e => exact ⟨(List.append_nil _).symm, List.forall_mem_nil _⟩
      | call c next =>
        rw [hp] at hmakes
        exact ⟨hledger i c _, hmarks c _ hmakes.1⟩
    refine ⟨mark (answer i) marks (pool.program i) (pool.state i) ++ log, ?_, ?_, ?_⟩
    · rw [run_cons, hshared, List.foldl_append]
      rfl
    · rw [run_cons, ← List.append_assoc]
      exact hperm.trans ((entries_update hnodup (hall i) pool.state hown).append_right log)
    · exact List.forall_mem_append.mpr ⟨hnew, hP⟩

end Pool

end LingoAsync
