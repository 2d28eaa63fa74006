import LingoAsync.Action

/-!
# Calls that fail

A call to something outside may raise before it has had its effect or after it, and the caller
cannot tell which. `faultily faults m` is the call `m` in a run of calls of which `faults` says how
each goes wrong; whatever it says, the state is that before the call or that after it
(`faultily_cases`).
-/

namespace LingoAsync

variable {ε κ α : Type}

/-- A call raises, before it has had its effect or after. -/
inductive Fault (ε : Type) where
  | before (e : ε)
  | after (e : ε)

/-- A call, the `n`-th of all, of which `faults n` goes wrong. -/
def faultily (faults : Nat → Option (Fault ε)) (m : Action ε κ α) : Action ε (κ × Nat) α := fun s =>
  match faults s.2 with
  | none => ((m s.1).1, ((m s.1).2, s.2 + 1))
  | some (.before e) => (.error e, (s.1, s.2 + 1))
  | some (.after e) => (.error e, ((m s.1).2, s.2 + 1))

theorem faultily_cases (faults : Nat → Option (Fault ε)) (m : Action ε κ α) (q : κ) (n : Nat) :
    faultily faults m (q, n) = ((m q).1, ((m q).2, n + 1)) ∨
      ∃ e, faultily faults m (q, n) = (.error e, (q, n + 1)) ∨
        faultily faults m (q, n) = (.error e, ((m q).2, n + 1)) := by
  unfold faultily
  split
  · exact .inl rfl
  · exact .inr ⟨_, .inl rfl⟩
  · exact .inr ⟨_, .inr rfl⟩

/-- A call of which none goes wrong is the call. -/
theorem forgets_faultless (m : Action ε κ α) : Action.Forgets (faultily (fun _ => none) m) m :=
  fun _ => rfl

/-- What holds before a call and after it holds however it goes. -/
theorem faultily_keeps {P : κ → Prop} {m : Action ε κ α} {s : κ × Nat} (hbefore : P s.1)
    (hafter : P (m s.1).2) (faults : Nat → Option (Fault ε)) : P (faultily faults m s).2.1 := by
  rcases faultily_cases faults m s.1 s.2 with h | ⟨e, h | h⟩
  · rw [h]
    exact hafter
  · rw [h]
    exact hbefore
  · rw [h]
    exact hafter

/-- A call that returns what it is asked for has had its effect. -/
theorem faultily_ok {faults : Nat → Option (Fault ε)} {m : Action ε κ α} {s : κ × Nat} {a : α}
    {s' : κ × Nat} (h : faultily faults m s = (.ok a, s')) : m s.1 = (.ok a, s'.1) := by
  rcases faultily_cases faults m s.1 s.2 with hc | ⟨e, hc | hc⟩
  · obtain ⟨hr, hs⟩ := Prod.mk.inj (hc.symm.trans h)
    rw [← hs]
    exact Prod.ext hr rfl
  · cases (hc.symm.trans h)
  · cases (hc.symm.trans h)

end LingoAsync
