import Mathlib.Data.List.Infix

/-!
# Actions: computations that raise and still leave their mark

An action runs on a state and either returns or raises; whichever it does, the
state it reached stays. (That is the imperative reading of an exception: nothing
is rolled back.) `Action ε σ` is the monad of such computations, with `raise`
and `rescue` for the exceptions.

The second half is about computations that attempt one thing after another, each
of which may fail. A `Tape` says how the state counts the attempts and records the
successes; `Performs T m s plan` says that `m`, run from `s`, attempts `plan` in
order, records what it reached, and returns exactly if it reached the end. The
relation composes: `performs_bind` runs one plan after the other.
-/

namespace LingoAsync

/-- A computation on the state `σ` that returns an `α` or raises an `ε`. -/
def Action (ε σ α : Type) : Type := σ → Except ε α × σ

namespace Action

variable {ε σ α β γ : Type}

instance : Monad (Action ε σ) where
  pure a := fun s => (.ok a, s)
  bind m f := fun s =>
    match m s with
    | (.ok a, s') => f a s'
    | (.error e, s') => (.error e, s')

/-- `raise e`. -/
def raise (e : ε) : Action ε σ α := fun s => (.error e, s)

/-- `try: m  except: handler`: the handler starts from the state `m` reached. -/
def rescue (m : Action ε σ α) (handler : ε → Action ε σ α) : Action ε σ α := fun s =>
  match m s with
  | (.ok a, s') => (.ok a, s')
  | (.error e, s') => handler e s'

/-- `m` with the exception it may raise handed over as a value. -/
def attempt (m : Action ε σ α) : Action ε σ (Except ε α) := fun s =>
  match m s with
  | (r, s') => (.ok r, s')

/-- `m` on the first half of a state, and on the second. -/
def onFst {τ : Type} (m : Action ε σ α) : Action ε (σ × τ) α := fun s =>
  ((m s.1).1, ((m s.1).2, s.2))

def onSnd {τ : Type} (m : Action ε τ α) : Action ε (σ × τ) α := fun s =>
  ((m s.2).1, (s.1, (m s.2).2))

/-- `m`, with an entry for what it gave put on record in the second half of the state. -/
def logged {γ : Type} (m : Action ε σ α) (entry : Except ε α → γ) : Action ε (σ × List γ) α :=
  fun s => ((m s.1).1, ((m s.1).2, s.2 ++ [entry (m s.1).1]))

/-- Return or raise a result computed without the state. -/
def ofExcept (r : Except ε α) : Action ε σ α := fun s => (r, s)

theorem pure_apply (a : α) (s : σ) : (pure a : Action ε σ α) s = (.ok a, s) := rfl

theorem bind_ok {m : Action ε σ α} {s s' : σ} {a : α} (h : m s = (.ok a, s'))
    (f : α → Action ε σ β) : (m >>= f) s = f a s' := by
  show (match m s with | (.ok a, s') => f a s' | (.error e, s') => (.error e, s')) = _
  rw [h]

theorem bind_error {m : Action ε σ α} {s s' : σ} {e : ε} (h : m s = (.error e, s'))
    (f : α → Action ε σ β) : (m >>= f) s = (.error e, s') := by
  show (match m s with | (.ok a, s') => f a s' | (.error e, s') => (.error e, s')) = _
  rw [h]

/-- A computation followed by one that only works on the result. -/
theorem bind_pure (m : Action ε σ α) (f : α → β) (s : σ) :
    (m >>= fun a => pure (f a)) s = ((m s).1.map f, (m s).2) := by
  cases h : m s with
  | mk r s' =>
    cases r with
    | ok a => rw [bind_ok h]; rfl
    | error e => rw [bind_error h]; rfl

theorem logged_eq {γ : Type} {m : Action ε σ α} {s : σ × List γ} {s' : σ} {r : Except ε α}
    (h : m s.1 = (r, s')) (entry : Except ε α → γ) :
    m.logged entry s = (r, (s', s.2 ++ [entry r])) := by
  rw [logged, h]

/-- A bind returned: so did both halves. -/
theorem bind_eq_ok {m : Action ε σ α} {f : α → Action ε σ β} {s s'' : σ} {b : β}
    (h : (m >>= f) s = (.ok b, s'')) : ∃ a s', m s = (.ok a, s') ∧ f a s' = (.ok b, s'') := by
  cases hm : m s with
  | mk r s' =>
    cases r with
    | ok a => exact ⟨a, s', rfl, by rwa [bind_ok hm] at h⟩
    | error e => rw [bind_error hm] at h; cases h

theorem not_returned {e : ε} : ¬ ∃ a : α, (Except.error e : Except ε α) = .ok a := by
  intro h
  obtain ⟨a, ha⟩ := h
  cases ha

/-! ## Forgetting half of the state -/

/-- `m` does what `m'` does, and keeps books of its own in the second half of the state. -/
def Forgets {τ : Type} (m : Action ε (σ × τ) α) (m' : Action ε σ α) : Prop :=
  ∀ s, ((m s).1, (m s).2.1) = m' s.1

theorem forgets_logged (m : Action ε σ α) (entry : Except ε α → γ) : Forgets (m.logged entry) m :=
  fun _ => rfl

theorem forgets_pure {τ : Type} (a : α) :
    Forgets (pure a : Action ε (σ × τ) α) (pure a : Action ε σ α) := fun _ => rfl

theorem forgets_raise {τ : Type} (e : ε) :
    Forgets (raise e : Action ε (σ × τ) α) (raise e : Action ε σ α) := fun _ => rfl

theorem forgets_bind {τ : Type} {m : Action ε (σ × τ) α} {m' : Action ε σ α}
    {f : α → Action ε (σ × τ) β} {f' : α → Action ε σ β} (hm : Forgets m m')
    (hf : ∀ a, Forgets (f a) (f' a)) : Forgets (m >>= f) (m' >>= f') := by
  intro s
  have hs := hm s
  cases h : m s with
  | mk r s' =>
    rw [h] at hs
    cases r with
    | ok a => rw [bind_ok h, bind_ok hs.symm]; exact hf a s'
    | error e => rw [bind_error h, bind_error hs.symm]

/-! ## The same, seen through a view of the state -/

/-- `m` does on `g t` what `m'` does on `t`. -/
def Through {τ : Type} (g : τ → σ) (m' : Action ε τ α) (m : Action ε σ α) : Prop :=
  ∀ t, m (g t) = ((m' t).1, g (m' t).2)

section Through

variable {τ : Type} {g : τ → σ}

theorem through_pure (a : α) : Through g (pure a : Action ε τ α) (pure a) := fun _ => rfl

theorem through_raise (e : ε) : Through g (raise e : Action ε τ α) (raise e) := fun _ => rfl

theorem through_bind {m' : Action ε τ α} {m : Action ε σ α} {f' : α → Action ε τ β}
    {f : α → Action ε σ β} (hm : Through g m' m) (hf : ∀ a, Through g (f' a) (f a)) :
    Through g (m' >>= f') (m >>= f) := by
  intro t
  have ht := hm t
  cases h : m' t with
  | mk r t' =>
    rw [h] at ht
    cases r with
    | ok a => rw [bind_ok h, bind_ok ht]; exact hf a t'
    | error e => rw [bind_error h, bind_error ht]

end Through

/-! ## Keeping part of the state -/

section Keeps

variable {κ : Type} {f : σ → κ}

/-- Whatever `m` does, it does not change what `f` sees of the state. -/
def Keeps (f : σ → κ) (m : Action ε σ α) : Prop := ∀ s, f (m s).2 = f s

theorem keeps_pure (a : α) : Keeps f (pure a : Action ε σ α) := fun _ => rfl

theorem keeps_attempt {m : Action ε σ α} (hm : Keeps f m) : Keeps f m.attempt := fun s => hm s

theorem keeps_bind {m : Action ε σ α} {g : α → Action ε σ β} (hm : Keeps f m)
    (hg : ∀ a, Keeps f (g a)) : Keeps f (m >>= g) := by
  intro s
  have hs := hm s
  cases h : m s with
  | mk r s' =>
    rw [h] at hs
    cases r with
    | ok a => rw [bind_ok h, hg a s', hs]
    | error e => rw [bind_error h]; exact hs

end Keeps

/-! ## How a computation ends -/

/-- From a state with `P`, `m` ends as `Q` says of its result and its state. -/
def Ends (P : σ → Prop) (m : Action ε σ α) (Q : Except ε α → σ → Prop) : Prop :=
  ∀ s, P s → Q (m s).1 (m s).2

theorem Ends.bind {P : σ → Prop} {m : Action ε σ α} {f : α → Action ε σ β}
    {R : Except ε α → σ → Prop} {Q : Except ε β → σ → Prop} (hm : Ends P m R)
    (hf : ∀ a, Ends (R (.ok a)) (f a) Q) (hstop : ∀ e s, R (.error e) s → Q (.error e) s) :
    Ends P (m >>= f) Q := by
  intro s hP
  have hR := hm s hP
  cases h : m s with
  | mk r s' =>
    rw [h] at hR
    cases r with
    | error e => rw [bind_error h]; exact hstop e s' hR
    | ok a => rw [bind_ok h]; exact hf a s' hR

theorem ends_pure {P : σ → Prop} {a : α} {Q : Except ε α → σ → Prop} (h : ∀ s, P s → Q (.ok a) s) :
    Ends P (pure a : Action ε σ α) Q := h

/-! ## Performing a plan -/

/-- How a state records attempts: how many were made, those that succeeded, and a part
of the state that attempts leave alone. `succeeds n c` says whether the `n`-th
attempt ever made succeeds, if it is an attempt at `c`. -/
structure Tape (σ γ κ : Type) where
  count : σ → Nat
  ledger : σ → List γ
  kept : σ → κ
  succeeds : Nat → γ → Bool

namespace Tape

variable {κ : Type} (T : Tape σ γ κ)

/-- How far a plan gets whose first item is the `n`-th attempt: up to its first
failure. -/
def reached : (n : Nat) → List γ → List γ
  | _, [] => []
  | n, c :: cs => if T.succeeds n c then c :: reached (n + 1) cs else []

theorem reached_cons_ok {n : Nat} {c : γ} (h : T.succeeds n c = true) (cs : List γ) :
    T.reached n (c :: cs) = c :: T.reached (n + 1) cs := by
  rw [reached, if_pos h]

theorem reached_cons_fail {n : Nat} {c : γ} (h : T.succeeds n c = false) (cs : List γ) :
    T.reached n (c :: cs) = [] := by
  rw [reached, if_neg (by rw [h]; decide)]

theorem reached_prefix_plan (n : Nat) (plan : List γ) : T.reached n plan <+: plan := by
  induction plan generalizing n with
  | nil => exact List.prefix_refl []
  | cons c cs ih =>
    rw [reached]
    split
    · exact List.cons_prefix_cons.mpr ⟨rfl, ih (n + 1)⟩
    · exact List.nil_prefix

/-- A plan in two parts: the second starts when the first is done, -/
theorem reached_append_all {n : Nat} {p : List γ} (q : List γ) (h : T.reached n p = p) :
    T.reached n (p ++ q) = p ++ T.reached (n + p.length) q := by
  induction p generalizing n with
  | nil => rfl
  | cons c cs ih =>
    have hlen : n + 1 + cs.length = n + (c :: cs).length := by
      rw [List.length_cons]
      omega
    rw [reached] at h
    split at h
    · rename_i hc
      rw [List.cons_append, reached, if_pos hc, ih (List.cons.inj h).2, hlen]
      rfl
    · cases h

/-- and not at all when it is not. -/
theorem reached_append_part {n : Nat} {p : List γ} (q : List γ) (h : T.reached n p ≠ p) :
    T.reached n (p ++ q) = T.reached n p := by
  induction p generalizing n with
  | nil => exact absurd rfl h
  | cons c cs ih =>
    rw [reached] at h
    rw [List.cons_append, reached, reached]
    split at h
    · rename_i hc
      have hcs : T.reached (n + 1) cs ≠ cs := by
        intro he
        exact h (by rw [he])
      rw [if_pos hc, if_pos hc, ih hcs]
    · -- the failure is at the head, which both plans share
      rename_i hc
      rw [if_neg hc, if_neg hc]

end Tape

section Performs

variable {κ : Type} {T : Tape σ γ κ}

/-- From `s`, `m` attempts `plan` in order and stops at the first failure: it returns
when it got to the end, and raises when it did not. -/
structure Performs (T : Tape σ γ κ) (m : Action ε σ α) (s : σ) (plan : List γ) : Prop where
  ledger : T.ledger (m s).2 = T.ledger s ++ T.reached (T.count s) plan
  returns : (∃ a, (m s).1 = .ok a) ↔ T.reached (T.count s) plan = plan
  count : (∃ a, (m s).1 = .ok a) → T.count (m s).2 = T.count s + plan.length
  kept : T.kept (m s).2 = T.kept s

/-- A computation that returns and leaves no trace performs the empty plan. -/
theorem performs_nil {m : Action ε σ α} {s s' : σ} {a : α} (h : m s = (.ok a, s'))
    (hcount : T.count s' = T.count s) (hledger : T.ledger s' = T.ledger s)
    (hkept : T.kept s' = T.kept s) : Performs T m s [] where
  ledger := by rw [h, hledger, Tape.reached, List.append_nil]
  returns := by rw [h]; exact iff_of_true ⟨a, rfl⟩ rfl
  count _ := by rw [h, hcount]; rfl
  kept := by rw [h, hkept]

theorem performs_pure (a : α) (s : σ) : Performs T (pure a : Action ε σ α) s [] :=
  performs_nil (pure_apply a s) rfl rfl rfl

/-- What a computation performs depends on what it does from `s` alone. -/
theorem performs_congr {m m' : Action ε σ α} {s : σ} {plan : List γ} (h : m s = m' s)
    (hm : Performs T m' s plan) : Performs T m s plan where
  ledger := by rw [h]; exact hm.ledger
  returns := by rw [h]; exact hm.returns
  count := by rw [h]; exact hm.count
  kept := by rw [h]; exact hm.kept

/-- One plan after the other: a failure in the first half leaves the second
unattempted. -/
theorem performs_bind {m : Action ε σ α} {f : α → Action ε σ β} {s : σ} {p q : List γ}
    (hm : Performs T m s p)
    (hf : ∀ a s', m s = (.ok a, s') → Performs T (f a) s' q) :
    Performs T (m >>= f) s (p ++ q) := by
  cases h : m s with
  | mk r s' =>
    have hledger := hm.ledger
    have hreturns := hm.returns
    have hcount := hm.count
    have hkept := hm.kept
    rw [h] at hledger hreturns hcount hkept
    cases r with
    | error e =>
      -- `m` raised, so it stopped inside `p` and nothing of `q` was attempted
      have hpart : T.reached (T.count s) p ≠ p := by
        intro hp
        obtain ⟨a, ha⟩ := hreturns.mpr hp
        cases ha
      have happ : T.reached (T.count s) (p ++ q) = T.reached (T.count s) p := by
        exact T.reached_append_part q hpart
      have hbind := bind_error h f
      refine ⟨?_, ?_, ?_, ?_⟩
      · rw [hbind, happ]
        exact hledger
      · rw [hbind, happ]
        refine iff_of_false not_returned ?_
        intro he
        -- a prefix of `p` that is as long as `p ++ q` is all of `p`
        refine hpart ((T.reached_prefix_plan (T.count s) p).eq_of_length_le ?_)
        rw [he, List.length_append]
        omega
      · rw [hbind]
        intro hok
        exact absurd hok not_returned
      · rw [hbind]
        exact hkept
    | ok a =>
      have hall := hreturns.mp ⟨a, rfl⟩
      have hcount := hcount ⟨a, rfl⟩
      have hfa := hf a s' h
      have happ : T.reached (T.count s) (p ++ q) = p ++ T.reached (T.count s') q := by
        rw [T.reached_append_all q hall, hcount]
      have hbind := bind_ok h f
      refine ⟨?_, ?_, ?_, ?_⟩
      · rw [hbind, hfa.ledger, hledger, hall, happ, List.append_assoc]
      · rw [hbind, hfa.returns, happ]
        constructor
        · intro he
          rw [he]
        · intro he
          exact List.append_cancel_left he
      · rw [hbind]
        intro hok
        rw [hfa.count hok, hcount, List.length_append]
        omega
      · rw [hbind, hfa.kept, hkept]

/-- A plan followed by a computation that only works on the result. -/
theorem performs_then {m : Action ε σ α} {f : α → Action ε σ β} {s : σ} {p : List γ}
    (hm : Performs T m s p) (hf : ∀ a s', m s = (.ok a, s') → Performs T (f a) s' []) :
    Performs T (m >>= f) s p := by
  have h := performs_bind hm hf
  rwa [List.append_nil] at h

end Performs

end Action

end LingoAsync
