import LingoAsync.Calendar
import LingoAsync.Contracts.Envelope
import LingoAsync.Program

/-!
# What the handlers reach outside

The calls a handler makes: three into lingo-core, one into the leaderboard table. With a reading
of the clock, and the module global of the quest evaluator, they are its `Request`s, and a
handler is a program that makes them (`Prog`).

`Outside` is everything beyond the process: it answers the `n`-th call ever made
and gives the `n`-th reading of the clock, so that a run meets every pattern of
failures. `World` is the process and its past: how far `Outside` has been read,
the module global of the quest evaluator, and the steps that succeeded, in
order. A step that fails leaves no trace but its count: it had no effect. `outside` answers the
requests so; with the client's retries and its breaker in between they are answered elsewhere.

The last part is reading an answer, the way the source reads it: `.get`, the
truth value, `int(…)`, iteration. Each raises what Python raises on a value of
the wrong kind.
-/

namespace LingoAsync

open LingoAsync.Text LingoAsync.Calendar LingoAsync.Contracts

variable {F : Type}

/-- A call that changes something, with its arguments. `updateItem` adds to the `xp`
of the item `(pk, sk)` of the leaderboard table and sets its `ttl`. -/
inductive Step (F : Type) where
  | addXp (userId : PyStr) (amount : Int) (learningLanguageId : Option PyStr)
      (leaderboardOptIn : Bool)
  | updateItem (pk sk : PyStr) (amount ttl : Int)
  | bumpProgress (questId : Json F) (userId : PyStr) (delta : Int)

/-- A call to another service. -/
inductive Call (F : Type) where
  | step (s : Step F)
  | listQuests (userId : PyStr)

/-- What a handler asks for. -/
inductive Request (F : Type) where
  | call (c : Call F)
  | now
  | questsSurfaceUnmounted
  | setQuestsSurfaceUnmounted

/-- What it gets. -/
@[reducible] def Reply : Request F → Type
  | .call _ => Json F
  | .now => Instant
  | .questsSurfaceUnmounted => Bool
  | .setQuestsSurfaceUnmounted => Unit

abbrev Prog (F : Type) := Program PyExc (Request F) Reply

/-- An interpreter of the requests. -/
abbrev Interpreter (F σ : Type) := (r : Request F) → Py σ (Reply r)

/-- One step. -/
def Prog.perform (s : Step F) : Prog F (Json F) := Program.perform (Request.call (.step s))

/-! ## The outside -/

/-- Everything outside the process. -/
structure Outside (F : Type) where
  clock : Nat → Instant
  answer : Nat → Call F → Except PyExc (Json F)

/-- The process and its past; `unmounted` is `_quests_surface_unmounted`, `applied`
the steps that succeeded. -/
structure World (F : Type) where
  readings : Nat
  calls : Nat
  unmounted : Bool
  applied : List (Step F)

/-- A process that has just started. -/
def World.start : World F := ⟨0, 0, false, []⟩

/-- One step. -/
def perform (out : Outside F) (step : Step F) : Py (World F) (Json F) := fun w =>
  match out.answer w.calls (.step step) with
  | .ok j => (.ok j, { w with calls := w.calls + 1, applied := w.applied ++ [step] })
  | .error exc => (.error exc, { w with calls := w.calls + 1 })

/-- `client.list_quests(user_id)`. -/
def listQuests (out : Outside F) (userId : PyStr) : Py (World F) (Json F) := fun w =>
  (out.answer w.calls (.listQuests userId), { w with calls := w.calls + 1 })

/-- `datetime.now(UTC)`. -/
def readClock (out : Outside F) : Py (World F) Instant := fun w =>
  (.ok (out.clock w.readings), { w with readings := w.readings + 1 })

/-- The value of `_quests_surface_unmounted`. -/
def questsSurfaceUnmounted : Py (World F) Bool := fun w => (.ok w.unmounted, w)

/-- `_quests_surface_unmounted = True`. -/
def setQuestsSurfaceUnmounted : Py (World F) Unit := fun w => (.ok (), { w with unmounted := true })

/-- The requests, answered from outside. -/
def outside (out : Outside F) : Interpreter F (World F)
  | .call (.step s) => perform out s
  | .call (.listQuests userId) => listQuests out userId
  | .now => readClock out
  | .questsSurfaceUnmounted => questsSurfaceUnmounted
  | .setQuestsSurfaceUnmounted => setQuestsSurfaceUnmounted

theorem Prog.run_perform (out : Outside F) (s : Step F) :
    (Prog.perform s).run (outside out) = LingoAsync.perform out s :=
  Program.run_perform (outside out) (.call (.step s))

/-! ## Steps on the tape -/

/-- Does the `n`-th call succeed, if it is `step`? -/
def Outside.succeeds (out : Outside F) (n : Nat) (step : Step F) : Bool :=
  (out.answer n (.step step)).isOk

/-- The world as a record of the steps attempted. -/
def Outside.tape (out : Outside F) : Action.Tape (World F) (Step F) Bool where
  count := World.calls
  ledger := World.applied
  kept := World.unmounted
  succeeds := out.succeeds

theorem perform_ok {out : Outside F} {step : Step F} {w : World F} {j : Json F}
    (h : out.answer w.calls (.step step) = .ok j) :
    perform out step w =
      (.ok j, { w with calls := w.calls + 1, applied := w.applied ++ [step] }) := by
  simp only [perform, h]

theorem perform_error {out : Outside F} {step : Step F} {w : World F} {exc : PyExc}
    (h : out.answer w.calls (.step step) = .error exc) :
    perform out step w = (.error exc, { w with calls := w.calls + 1 }) := by
  simp only [perform, h]

/-- A step performs itself. -/
theorem performs_perform (out : Outside F) (step : Step F) (w : World F) :
    Action.Performs out.tape ((Prog.perform step).run (outside out)) w [step] := by
  rw [Prog.run_perform]
  cases h : out.answer w.calls (.step step) with
  | ok j =>
    have hreached : out.tape.reached w.calls [step] = [step] := by
      simp [Action.Tape.reached, Outside.tape, Outside.succeeds, h, Except.isOk, Except.toBool]
    refine ⟨?_, ?_, ?_, ?_⟩
    · rw [perform_ok h]
      exact congrArg (w.applied ++ ·) hreached.symm
    · rw [perform_ok h]
      exact iff_of_true ⟨j, rfl⟩ hreached
    · rw [perform_ok h]
      intro _
      exact rfl
    · rw [perform_ok h]
      rfl
  | error exc =>
    have hreached : out.tape.reached w.calls [step] = [] := by
      simp [Action.Tape.reached, Outside.tape, Outside.succeeds, h, Except.isOk, Except.toBool]
    refine ⟨?_, ?_, ?_, ?_⟩
    · rw [perform_error h]
      exact (congrArg (w.applied ++ ·) hreached).trans (List.append_nil _) |>.symm
    · rw [perform_error h]
      refine iff_of_false Action.not_returned ?_
      intro he
      have hnil : ([] : List (Step F)) = [step] := hreached.symm.trans he
      cases hnil
    · rw [perform_error h]
      intro hok
      exact absurd hok Action.not_returned
    · rw [perform_error h]
      rfl

/-! ## Reading an answer -/

section Reading

variable [PyFloat F]

/-- `j.get(key)`. -/
def pyGet (j : Json F) (key : PyStr) : Prog F (Json F) :=
  match j with
  | .dict kvs => pure ((Json.lookup key kvs).getD .null)
  | _ => .raise .AttributeError

/-- `j[key]`, of a dict. -/
def pyItem (j : Json F) (key : PyStr) : Prog F (Json F) :=
  match j with
  | .dict kvs =>
    match Json.lookup key kvs with
    | some v => pure v
    | none => .raise (.KeyError key)
  | _ => .raise .TypeError

/-- `j or default`. -/
def pyOr (j default : Json F) : Json F := if j.truthy then j else default

/-- `int(j)`. -/
def pyInt (rt : Runtime) (j : Json F) : Prog F Int :=
  match j with
  | .int n => pure n
  | .bool b => pure (if b then 1 else 0)
  | .float x =>
    match PyFloat.toInt x with
    | some n => pure n
    | none => .raise (.other (py "OverflowError"))
  | .str s => .ofExcept (rt.intOfStr s)
  | _ => .raise .TypeError

/-- `for x in j`: the elements of a list, the keys of a dict, the characters of a
string. -/
def pyIter (j : Json F) : Prog F (List (Json F)) :=
  match j with
  | .list xs => pure xs
  | .dict kvs => pure (kvs.map fun kv => .str kv.1)
  | .str s => pure (s.map fun c => .str [c])
  | _ => .raise .TypeError

/-- A dict literal. -/
def pyDict (fields : List (String × Json F)) : Json F :=
  .dict (fields.map fun f => (py f.1, f.2))

/-! None of them asks for anything. -/

variable {Q : Request F → Prop}

omit [PyFloat F] in
theorem makes_pyGet (j : Json F) (key : PyStr) : (pyGet j key).Makes Q := by
  cases j <;> trivial

omit [PyFloat F] in
theorem makes_pyItem (j : Json F) (key : PyStr) : (pyItem j key).Makes Q := by
  unfold pyItem
  split
  · split <;> trivial
  · trivial

theorem makes_pyInt (rt : Runtime) (j : Json F) : (pyInt rt j).Makes Q := by
  unfold pyInt
  split
  · trivial
  · trivial
  · split <;> trivial
  · exact Program.makes_ofExcept Q _
  · trivial

omit [PyFloat F] in
theorem makes_pyIter (j : Json F) : (pyIter j).Makes Q := by
  cases j <;> trivial

end Reading

end LingoAsync
