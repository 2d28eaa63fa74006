import LingoAsync.Db.Events

/-!
# Best-effort logging

`_safe_save` and `_safe_update_status` of `app/handler.py`: a write to the event
log that raises is swallowed, and without a repository nothing is written at all.
Neither ever raises (`safeSave_ok`, `safeUpdateStatus_ok`).
-/

namespace LingoAsync.Handler

open LingoAsync.Text LingoAsync.Db

variable {σ F : Type}

/-- `json.dumps(j)`, as a computation. -/
def jsonDumps [PyFloat F] (j : Json F) : Py σ PyStr :=
  match j.dumpsChecked .default with
  | some text => pure text
  | none =>
    Action.raise
      (.ValueError (py "Exceeds the limit (4300 digits) for integer string conversion"))

/-- `_safe_save`. -/
def safeSave (repo : Option (EventsRepo σ)) (a : SaveArgs) : Py σ Unit :=
  match repo with
  | none => pure ()
  | some repo => (repo.save a).rescue fun _ => pure ()

/-- `_safe_update_status`: the outcomes are serialized inside the guard. -/
def safeUpdateStatus [PyFloat F] (repo : Option (EventsRepo σ)) (id status : PyStr)
    (errorMsg : Option PyStr) (outcomes : List (Json F)) : Py σ Unit :=
  match repo with
  | none => pure ()
  | some repo =>
    (do
      let outcomesJson ← jsonDumps (.list outcomes)
      repo.updateStatus ⟨id, status, errorMsg, outcomesJson⟩).rescue fun _ => pure ()

/-- A rescued write returns, and leaves the state the write left. -/
theorem rescue_unit (m : Py σ Unit) (s : σ) :
    m.rescue (fun _ => pure ()) s = (.ok (), (m s).2) := by
  unfold Action.rescue
  cases h : m s with
  | mk r s' => cases r <;> rfl

theorem safeSave_ok (repo : Option (EventsRepo σ)) (a : SaveArgs) (s : σ) :
    ∃ s', safeSave repo a s = (.ok (), s') := by
  cases repo with
  | none => exact ⟨s, rfl⟩
  | some repo => exact ⟨_, rescue_unit ..⟩

theorem safeUpdateStatus_ok [PyFloat F] (repo : Option (EventsRepo σ)) (id status : PyStr)
    (errorMsg : Option PyStr) (outcomes : List (Json F)) (s : σ) :
    ∃ s', safeUpdateStatus repo id status errorMsg outcomes s = (.ok (), s') := by
  cases repo with
  | none => exact ⟨s, rfl⟩
  | some repo => exact ⟨_, rescue_unit ..⟩

end LingoAsync.Handler
