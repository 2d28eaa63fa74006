import LingoAsync.Action

/-!
# Programs that call out

A program returns, raises, or makes a call and goes on from what the call gave, an exception
included. What the calls do is left open: `Program.run` runs a program over an interpreter, an
action for each call. So one program can be run over two worlds, and compared.

Two rules carry the comparisons. What every call does to the state, a run does (`run_trans`). And
if two interpreters answer alike wherever their states are related, and keep the relation, so do
the runs of every program over them (`simulates_run`). `Simulates` has a condition besides the
relation, on the state a computation ends in: it is for relations to something that is only known
afterwards, as a record of all the answers is. The condition must be one that later states hand
back to the earlier ones.
-/

namespace LingoAsync

open Action

/-- A program that makes calls `c : κ`, is answered by a `ρ c` or an exception, and comes to an
`α`. -/
inductive Program (ε κ : Type) (ρ : κ → Type) (α : Type) where
  | ret (a : α)
  | raise (e : ε)
  | call (c : κ) (next : Except ε (ρ c) → Program ε κ ρ α)

namespace Program

variable {ε κ σ τ α β : Type} {ρ : κ → Type}

/-- One program after the other. -/
def andThen : Program ε κ ρ α → (α → Program ε κ ρ β) → Program ε κ ρ β
  | ret a, f => f a
  | raise e, _ => raise e
  | call c next, f => call c fun r => andThen (next r) f

instance : Monad (Program ε κ ρ) where
  pure := ret
  bind := andThen

theorem andThen_ret (p : Program ε κ ρ α) : p.andThen ret = p := by
  induction p with
  | ret a => rfl
  | raise e => rfl
  | call c next ih => exact congrArg (call c) (funext ih)

theorem andThen_andThen {γ : Type} (p : Program ε κ ρ α) (f : α → Program ε κ ρ β)
    (g : β → Program ε κ ρ γ) :
    (p.andThen f).andThen g = p.andThen fun a => (f a).andThen g := by
  induction p with
  | ret a => rfl
  | raise e => rfl
  | call c next ih => exact congrArg (call c) (funext ih)

instance : LawfulMonad (Program ε κ ρ) :=
  .mk' _ andThen_ret (fun _ _ => rfl) andThen_andThen

/-- A result that is there already. -/
def ofExcept : Except ε α → Program ε κ ρ α
  | .ok a => ret a
  | .error e => raise e

/-- A single call. -/
def perform (c : κ) : Program ε κ ρ (ρ c) := call c ofExcept

/-- A single call, with the exception it may raise handed over as a value. -/
def attempt (c : κ) : Program ε κ ρ (Except ε (ρ c)) := call c ret

/-- The program, with the exception it may raise handed over as a value. -/
def caught : Program ε κ ρ α → Program ε κ ρ (Except ε α)
  | ret a => ret (.ok a)
  | raise e => ret (.error e)
  | call c next => call c fun r => caught (next r)

/-- The program over an interpreter of its calls. -/
def run (answer : (c : κ) → Action ε σ (ρ c)) : Program ε κ ρ α → Action ε σ α
  | ret a, s => (.ok a, s)
  | raise e, s => (.error e, s)
  | call c next, s => run answer (next (answer c s).1) (answer c s).2

section Run

variable (answer : (c : κ) → Action ε σ (ρ c))

theorem run_ofExcept (r : Except ε α) :
    (ofExcept r : Program ε κ ρ α).run answer = Action.ofExcept r := by
  cases r <;> rfl

theorem run_bind (p : Program ε κ ρ α) (f : α → Program ε κ ρ β) :
    (p >>= f).run answer = p.run answer >>= fun a => (f a).run answer := by
  funext s
  induction p generalizing s with
  | ret a => rfl
  | raise e => rfl
  | call c next ih => exact ih (answer c s).1 (answer c s).2

variable {answer} in
theorem run_bind_ok {p : Program ε κ ρ α} {s s' : σ} {a : α} (h : p.run answer s = (.ok a, s'))
    (f : α → Program ε κ ρ β) : (p >>= f).run answer s = (f a).run answer s' := by
  rw [run_bind, bind_ok h]

variable {answer} in
theorem run_bind_error {p : Program ε κ ρ α} {s s' : σ} {e : ε}
    (h : p.run answer s = (.error e, s')) (f : α → Program ε κ ρ β) :
    (p >>= f).run answer s = (.error e, s') := by
  rw [run_bind, bind_error h]

variable {answer} in
/-- A program in two parts returned: so did both parts. -/
theorem run_bind_eq_ok {p : Program ε κ ρ α} {f : α → Program ε κ ρ β} {s s'' : σ} {b : β}
    (h : (p >>= f).run answer s = (.ok b, s'')) :
    ∃ a s', p.run answer s = (.ok a, s') ∧ (f a).run answer s' = (.ok b, s'') := by
  rw [run_bind] at h
  exact bind_eq_ok h

theorem run_perform (c : κ) : (perform c : Program ε κ ρ (ρ c)).run answer = answer c := by
  funext s
  show (ofExcept (answer c s).1 : Program ε κ ρ (ρ c)).run answer (answer c s).2 = answer c s
  rw [run_ofExcept]
  rfl

theorem run_attempt (c : κ) : (attempt c : Program ε κ ρ _).run answer = (answer c).attempt := rfl

theorem run_caught (p : Program ε κ ρ α) : p.caught.run answer = (p.run answer).attempt := by
  funext s
  induction p generalizing s with
  | ret a => rfl
  | raise e => rfl
  | call c next ih => exact ih (answer c s).1 (answer c s).2

end Run

/-- **What every call does, a run does**, if doing nothing is a case of it, and doing it twice. -/
theorem run_trans {R : σ → σ → Prop} (hrefl : ∀ s, R s s)
    (htrans : ∀ {s t u}, R s t → R t u → R s u) {answer : (c : κ) → Action ε σ (ρ c)}
    (hcall : ∀ c s, R s (answer c s).2) (p : Program ε κ ρ α) (s : σ) : R s (p.run answer s).2 := by
  induction p generalizing s with
  | ret a => exact hrefl s
  | raise e => exact hrefl s
  | call c next ih => exact htrans (hcall c s) (ih (answer c s).1 (answer c s).2)

/-! ## The calls a program can make -/

/-- Whatever the answers, the program makes no call but those with `Q`. -/
def Makes (Q : κ → Prop) : Program ε κ ρ α → Prop
  | ret _ => True
  | raise _ => True
  | call c next => Q c ∧ ∀ r, Makes Q (next r)

theorem Makes.bind {Q : κ → Prop} {p : Program ε κ ρ α} {f : α → Program ε κ ρ β}
    (hp : p.Makes Q) (hf : ∀ a, (f a).Makes Q) : (p >>= f).Makes Q := by
  induction p with
  | ret a => exact hf a
  | raise e => trivial
  | call c next ih => exact ⟨hp.1, fun r => ih r (hp.2 r)⟩

theorem makes_ofExcept (Q : κ → Prop) (r : Except ε α) :
    (ofExcept r : Program ε κ ρ α).Makes Q := by
  cases r <;> trivial

theorem makes_perform {Q : κ → Prop} {c : κ} (h : Q c) :
    (perform c : Program ε κ ρ (ρ c)).Makes Q := ⟨h, fun r => makes_ofExcept Q r⟩

theorem Makes.caught {Q : κ → Prop} {p : Program ε κ ρ α} (hp : p.Makes Q) : p.caught.Makes Q := by
  induction p with
  | ret a => trivial
  | raise e => trivial
  | call c next ih => exact ⟨hp.1, fun r => ih r (hp.2 r)⟩

/-- What every call of a program preserves, a run preserves. -/
theorem Makes.run_inv {Q : κ → Prop} {P : σ → Prop} {answer : (c : κ) → Action ε σ (ρ c)}
    (hcall : ∀ c, Q c → ∀ s, P s → P (answer c s).2) {p : Program ε κ ρ α} (hp : p.Makes Q)
    {s : σ} (h : P s) : P (p.run answer s).2 := by
  induction p generalizing s with
  | ret a => exact h
  | raise e => exact h
  | call c next ih => exact ih (answer c s).1 (hp.2 _) (hcall c hp.1 s h)

/-- What the calls of a program keep of the state, a run keeps. -/
theorem Makes.run_keeps {ν : Type} {Q : κ → Prop} {f : σ → ν}
    {answer : (c : κ) → Action ε σ (ρ c)} (hcall : ∀ c, Q c → Keeps f (answer c))
    {p : Program ε κ ρ α} (hp : p.Makes Q) : Keeps f (p.run answer) := by
  intro s
  induction p generalizing s with
  | ret a => rfl
  | raise e => rfl
  | call c next ih =>
    exact (ih (answer c s).1 (hp.2 _) (answer c s).2).trans (hcall c hp.1 s)

/-- A program without calls changes nothing. -/
theorem Makes.run_keeps_of_none {ν : Type} {f : σ → ν} {answer : (c : κ) → Action ε σ (ρ c)}
    {p : Program ε κ ρ α} (hp : p.Makes fun _ => False) : Keeps f (p.run answer) :=
  hp.run_keeps fun _ h => h.elim

end Program

/-! ## Performing a plan -/

namespace Action

section Performs

variable {ε κ σ γ ν α β : Type} {ρ : κ → Type} {answer : (c : κ) → Action ε σ (ρ c)}
  {T : Tape σ γ ν} {m : Program ε κ ρ α} {f : α → Program ε κ ρ β} {s : σ} {p q : List γ}

theorem performs_run_bind (hm : Performs T (m.run answer) s p)
    (hf : ∀ a s', m.run answer s = (.ok a, s') → Performs T ((f a).run answer) s' q) :
    Performs T ((m >>= f).run answer) s (p ++ q) := by
  rw [Program.run_bind]
  exact performs_bind hm hf

theorem performs_run_then (hm : Performs T (m.run answer) s p)
    (hf : ∀ a s', m.run answer s = (.ok a, s') → Performs T ((f a).run answer) s' []) :
    Performs T ((m >>= f).run answer) s p := by
  rw [Program.run_bind]
  exact performs_then hm hf

/-- A program that only reads, and then a plan. -/
theorem performs_run_after {a : α} (hm : m.run answer s = (.ok a, s))
    (hf : Performs T ((f a).run answer) s p) : Performs T ((m >>= f).run answer) s p :=
  performs_congr (Program.run_bind_ok hm f) hf

end Performs

end Action

/-! ## Simulation -/

namespace Action

variable {ε σ τ α β : Type}

/-- Wherever `m` ends in a state with `Good`, it was started in one, and from related states `m'`
gives the same and ends in a related one. -/
structure Simulates (Good : σ → Prop) (R : σ → τ → Prop) (m : Action ε σ α) (m' : Action ε τ α) :
    Prop where
  back : ∀ s, Good (m s).2 → Good s
  agrees : ∀ s t, Good (m s).2 → R s t → (m s).1 = (m' t).1 ∧ R (m s).2 (m' t).2

variable {Good : σ → Prop} {R : σ → τ → Prop}

theorem simulates_ofExcept (r : Except ε α) :
    Simulates Good R (ofExcept r : Action ε σ α) (ofExcept r : Action ε τ α) where
  back _ h := h
  agrees _ _ _ h := ⟨rfl, h⟩

theorem simulates_pure (a : α) :
    Simulates Good R (pure a : Action ε σ α) (pure a : Action ε τ α) :=
  simulates_ofExcept (.ok a)

theorem simulates_raise (e : ε) :
    Simulates Good R (raise e : Action ε σ α) (raise e : Action ε τ α) :=
  simulates_ofExcept (.error e)

theorem Simulates.bind {m : Action ε σ α} {m' : Action ε τ α} {f : α → Action ε σ β}
    {f' : α → Action ε τ β} (hm : Simulates Good R m m') (hf : ∀ a, Simulates Good R (f a) (f' a)) :
    Simulates Good R (m >>= f) (m' >>= f') := by
  have hfirst : ∀ s, Good ((m >>= f) s).2 → Good (m s).2 := by
    intro s hgood
    cases h : m s with
    | mk r s1 =>
      cases r with
      | error e => rwa [bind_error h] at hgood
      | ok a =>
        rw [bind_ok h] at hgood
        exact (hf a).back s1 hgood
  refine ⟨fun s hgood => hm.back s (hfirst s hgood), ?_⟩
  intro s t hgood hR
  obtain ⟨hres, hR1⟩ := hm.agrees s t (hfirst s hgood) hR
  cases h : m s with
  | mk r s1 =>
    cases h' : m' t with
    | mk r' t1 =>
      rw [h, h'] at hres hR1
      obtain rfl : r = r' := hres
      cases r with
      | error e =>
        rw [bind_error h, bind_error h']
        exact ⟨rfl, hR1⟩
      | ok a =>
        rw [bind_ok h, bind_ok h']
        rw [bind_ok h] at hgood
        exact (hf a).agrees s1 t1 hgood hR1

theorem Simulates.attempt {m : Action ε σ α} {m' : Action ε τ α} (h : Simulates Good R m m') :
    Simulates Good R m.attempt m'.attempt where
  back s hgood := h.back s hgood
  agrees s t hgood hR := by
    obtain ⟨hres, hR1⟩ := h.agrees s t hgood hR
    exact ⟨congrArg Except.ok hres, hR1⟩

/-- **Two interpreters that answer alike** run every program alike. -/
theorem simulates_run {κ : Type} {ρ : κ → Type} {answer : (c : κ) → Action ε σ (ρ c)}
    {answer' : (c : κ) → Action ε τ (ρ c)} (h : ∀ c, Simulates Good R (answer c) (answer' c))
    (p : Program ε κ ρ α) : Simulates Good R (p.run answer) (p.run answer') := by
  induction p with
  | ret a => exact simulates_pure a
  | raise e => exact simulates_raise e
  | call c next ih =>
    have hfirst : ∀ s, Good (((Program.call c next).run answer) s).2 → Good (answer c s).2 :=
      fun s hgood => (ih (answer c s).1).back (answer c s).2 hgood
    refine ⟨fun s hgood => (h c).back s (hfirst s hgood), ?_⟩
    intro s t hgood hR
    obtain ⟨hres, hR1⟩ := (h c).agrees s t (hfirst s hgood) hR
    show ((next (answer c s).1).run answer (answer c s).2).1 =
        ((next (answer' c t).1).run answer' (answer' c t).2).1 ∧
      R ((next (answer c s).1).run answer (answer c s).2).2
        ((next (answer' c t).1).run answer' (answer' c t).2).2
    rw [← hres]
    exact (ih (answer c s).1).agrees _ _ hgood hR1

end Action

end LingoAsync
