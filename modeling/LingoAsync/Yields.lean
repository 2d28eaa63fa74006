import LingoAsync.Program

/-!
# What a computation that returns has done

A ledger is a part of the state that is only ever added to. `Yields ledger m Q` says that, whenever
`m` returns, what it has put on the ledger and what it returns are as `Q` has them. Nothing is said
of a computation that raises. `Yields.bind` runs one computation after the other: its rule hands
the first one's entries on, so that a statement about the whole is built from the front.
-/

namespace LingoAsync.Action

variable {ε σ α β γ : Type} {ledger : σ → List γ}

/-- If `m` returns, `Q` holds of its result and of what it has put on the ledger. -/
def Yields (ledger : σ → List γ) (m : Action ε σ α) (Q : α → List γ → Prop) : Prop :=
  ∀ s a s', m s = (.ok a, s') → ∃ new, ledger s' = ledger s ++ new ∧ Q a new

theorem Yields.mono {m : Action ε σ α} {Q P : α → List γ → Prop} (h : Yields ledger m Q)
    (hQP : ∀ a new, Q a new → P a new) : Yields ledger m P := by
  intro s a s' hm
  obtain ⟨new, hledger, hQ⟩ := h s a s' hm
  exact ⟨new, hledger, hQP a new hQ⟩

/-- A computation that leaves the ledger alone. -/
theorem yields_of_keeps {m : Action ε σ α} (h : Keeps ledger m) {Q : α → List γ → Prop}
    (hQ : ∀ a, Q a []) : Yields ledger m Q := by
  intro s a s' hm
  refine ⟨[], ?_, hQ a⟩
  have hkept := h s
  rw [hm] at hkept
  rw [hkept, List.append_nil]

theorem yields_pure {a : α} {Q : α → List γ → Prop} (hQ : Q a []) :
    Yields ledger (pure a : Action ε σ α) Q := by
  intro s a' s' hm
  obtain ⟨ha, rfl⟩ := Prod.mk.inj hm
  exact ⟨[], (List.append_nil _).symm, Except.ok.inj ha ▸ hQ⟩

theorem yields_raise (e : ε) (Q : α → List γ → Prop) :
    Yields ledger (raise e : Action ε σ α) Q := by
  intro s a s' hm
  cases hm

/-- One computation after the other: the entries of the first come first. -/
theorem Yields.bind {m : Action ε σ α} {f : α → Action ε σ β} {Q : α → List γ → Prop}
    {P : β → List γ → Prop} (hm : Yields ledger m Q)
    (hf : ∀ a p, Q a p → Yields ledger (f a) fun b q => P b (p ++ q)) :
    Yields ledger (m >>= f) P := by
  intro s b s'' hrun
  obtain ⟨a, s', hfirst, hsecond⟩ := bind_eq_ok hrun
  obtain ⟨p, hp, hQ⟩ := hm s a s' hfirst
  obtain ⟨q, hq, hP⟩ := hf a p hQ s' b s'' hsecond
  exact ⟨p ++ q, by rw [hq, hp, List.append_assoc], hP⟩

/-- A computation that leaves the ledger alone, and then another. -/
theorem yields_after {m : Action ε σ α} {f : α → Action ε σ β} {P : β → List γ → Prop}
    (hm : Keeps ledger m) (hf : ∀ a, Yields ledger (f a) P) : Yields ledger (m >>= f) P :=
  (yields_of_keeps hm (Q := fun _ new => new = []) fun _ => rfl).bind fun a _ hp => by
    subst hp
    exact hf a

end LingoAsync.Action
