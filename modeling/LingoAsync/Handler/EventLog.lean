import LingoAsync.Handler.Lambda

/-!
# The event log beside the process

`Worker.withLog` runs a worker next to an event log that lives in a state of its
own. Its writes are guarded and nothing the loop does depends on them, so, once
the log is open, every record ends as it would without one and leaves the
process in the same state: `handleRecords_withLog`.
-/

namespace LingoAsync.Handler

open LingoAsync.Text LingoAsync.Contracts LingoAsync.Db

variable {σ L F D : Type} [PyFloat F]

/-- A log's writes, in the process's state. -/
def onLog (repo : EventsRepo L) : EventsRepo (σ × L) where
  save a := (repo.save a).onSnd
  updateStatus a := (repo.updateStatus a).onSnd

/-- The worker with an event log that `openLog` opens. -/
def Worker.withLog (w : Worker σ F D) (openLog : Py L (Option (EventsRepo L))) :
    Worker (σ × L) F D where
  rt := w.rt
  pydantic := w.pydantic
  now s := ((w.now s.1).1, ((w.now s.1).2, s.2))
  getEventsRepo := do
    let repo ← openLog.onSnd
    pure (repo.map onLog)
  handlers := w.handlers.map fun _ m => m.onFst
  strErrors := w.strErrors
  repr := w.repr

theorem safeSave_onLog (repo : Option (EventsRepo L)) (a : SaveArgs) (s : σ) (l : L) :
    safeSave (repo.map onLog) a (s, l) = (.ok (), (s, (safeSave repo a l).2)) := by
  cases repo with
  | none => rfl
  | some repo =>
    refine (rescue_unit _ _).trans (congrArg (Prod.mk _) ?_)
    rw [safeSave, rescue_unit]
    rfl

theorem safeUpdateStatus_onLog (repo : Option (EventsRepo L)) (id status : PyStr)
    (errorMsg : Option PyStr) (outcomes : List (Json F)) (s : σ) (l : L) :
    safeUpdateStatus (repo.map onLog) id status errorMsg outcomes (s, l) =
      (.ok (), (s, (safeUpdateStatus repo id status errorMsg outcomes l).2)) := by
  cases repo with
  | none => rfl
  | some repo =>
    refine (rescue_unit _ _).trans (congrArg (Prod.mk _) ?_)
    rw [safeUpdateStatus, rescue_unit]
    unfold jsonDumps
    cases (Json.list outcomes).dumpsChecked .default <;> rfl

/-- What a record that starts at `s` writes to the log. -/
def Worker.logRecord (w : Worker σ F D) (repo : Option (EventsRepo L)) (record : SqsRecord)
    (s : σ) : Py L Unit :=
  let receivedAt := (w.now s).1.isoformat
  let ttlEpoch := (w.now (w.now s).2).1.timestampPlus TTL_SECONDS
  match w.parse record with
  | .error (.ValidationError errors) => do
    safeSave repo (saveArgs record (py "<unparsed>") (py "<unparsed>") receivedAt ttlEpoch)
    safeUpdateStatus (F := F) repo record.id (py "failed") (some (w.strErrors errors)) []
  | .error _ => pure ()
  | .ok parsed => do
    safeSave repo (saveArgs record parsed.userId parsed.type receivedAt ttlEpoch)
    match (dispatch w.handlers parsed (w.tick s)).1 with
    | .ok outcomes => safeUpdateStatus repo record.id (py "ok") none outcomes
    | .error exc => safeUpdateStatus (F := F) repo record.id (py "failed") (some (w.repr exc)) []

/-- A record that ends the invocation writes nothing. -/
theorem logRecord_raised {w : Worker σ F D} {record : SqsRecord}
    (h : ¬ Unwrappable F w.rt record.text) (repo : Option (EventsRepo L)) (s : σ) (l : L) :
    (w.logRecord repo record s l).2 = l := by
  obtain ⟨exc, hparse, hno⟩ := (parseEvent_escapes_iff w.rt w.pydantic record.text).mpr h
  have hp : w.parse record = .error exc := hparse
  unfold Worker.logRecord
  rw [hp]
  cases exc with
  | ValidationError errors => cases hno
  | _ => rfl

/-- Every record ends as it would without a log, and the log holds what it wrote. -/
theorem handleRecord_onLog (w : Worker σ F D) (openLog : Py L (Option (EventsRepo L)))
    (repo : Option (EventsRepo L)) (record : SqsRecord) (s : σ) (l : L) :
    (w.withLog openLog).handleRecord (repo.map onLog) record (s, l) =
      ((w.handleRecord none record s).1,
        ((w.handleRecord none record s).2, (w.logRecord repo record s l).2)) := by
  have hreceived : (w.withLog openLog).utcNow (s, l) = (.ok (w.now s).1, ((w.now s).2, l)) := rfl
  have httl : (w.withLog openLog).utcNow ((w.now s).2, l) =
      (.ok (w.now (w.now s).2).1, (w.tick s, l)) := rfl
  have hparse : (w.withLog openLog).parse record = w.parse record := rfl
  have hsaved : ∀ a, safeSave repo a l = (.ok (), (safeSave repo a l).2) := by
    intro a
    obtain ⟨l1, hsave⟩ := safeSave_ok repo a l
    rw [hsave]
  rw [handleRecord_none]
  unfold Worker.handleRecord Worker.logRecord
  rw [Action.bind_ok hreceived, Action.bind_ok httl, hparse]
  cases hp : w.parse record with
  | error exc =>
    cases exc with
    | ValidationError errors =>
      simp only [Worker.rejectRecord]
      rw [Action.bind_ok (safeSave_onLog ..), Action.bind_ok (safeUpdateStatus_onLog ..),
        Action.bind_ok (hsaved _)]
      rfl
    | _ => rfl
  | ok parsed =>
    obtain ⟨r, s', hd⟩ : ∃ r s', dispatch w.handlers parsed (w.tick s) = (r, s') := ⟨_, _, rfl⟩
    have hattempt : ∀ l1, (dispatch (w.withLog openLog).handlers parsed).attempt (w.tick s, l1) =
        (.ok r, (s', l1)) := by
      intro l1
      have hmap : dispatch (w.withLog openLog).handlers parsed =
          (dispatch w.handlers parsed).onFst := dispatch_map (fun _ m => m.onFst) w.handlers parsed
      simp only [Action.attempt, hmap, Action.onFst, hd]
    simp only [Worker.dispatchRecord, hd]
    -- the row is saved, the handler runs on the process's half, the row is updated
    rw [Action.bind_ok (safeSave_onLog ..), Action.bind_ok (hattempt _), Action.bind_ok (hsaved _)]
    cases r with
    | ok outcomes =>
      exact Action.bind_ok (safeUpdateStatus_onLog ..) _
    | error exc =>
      exact Action.bind_ok (safeUpdateStatus_onLog ..) _

/-- Every record ends as it would without a log. -/
theorem handleRecord_withLog (w : Worker σ F D) (openLog : Py L (Option (EventsRepo L)))
    (repo : Option (EventsRepo L)) (record : SqsRecord) (s : σ) (l : L) :
    ∃ l', (w.withLog openLog).handleRecord (repo.map onLog) record (s, l) =
      ((w.handleRecord none record s).1, ((w.handleRecord none record s).2, l')) :=
  ⟨_, handleRecord_onLog w openLog repo record s l⟩

theorem handleRecords_withLog (w : Worker σ F D) (openLog : Py L (Option (EventsRepo L)))
    (repo : Option (EventsRepo L)) :
    ∀ (records : List SqsRecord) (s : σ) (l : L),
      ∃ l', (w.withLog openLog).handleRecords (repo.map onLog) records (s, l) =
        ((w.handleRecords none records s).1, ((w.handleRecords none records s).2, l')) := by
  intro records
  induction records with
  | nil =>
    intro s l
    exact ⟨l, rfl⟩
  | cons record records ih =>
    intro s l
    obtain ⟨l1, hrec⟩ := handleRecord_withLog w openLog repo record s l
    cases h : w.handleRecord none record s with
    | mk r s1 =>
      rw [h] at hrec
      cases r with
      | error exc => exact ⟨l1, by rw [handleRecords_ended h, handleRecords_ended hrec]⟩
      | ok verdict =>
        obtain ⟨l2, hrest⟩ := ih s1 l1
        exact ⟨l2, by rw [handleRecords_settled h, handleRecords_settled hrec, hrest]⟩

/-! ## Opening the log -/

section Opening

variable {w : Worker σ F D} {openLog : Py L (Option (EventsRepo L))} {l l1 : L}

theorem getEventsRepo_opened {repo : Option (EventsRepo L)} (h : openLog l = (.ok repo, l1))
    (s : σ) : (w.withLog openLog).getEventsRepo (s, l) = (.ok (repo.map onLog), (s, l1)) := by
  have hopen : openLog.onSnd (s, l) = (.ok repo, (s, l1)) := by simp only [Action.onSnd, h]
  exact Action.bind_ok hopen _

theorem getEventsRepo_unopened {exc : PyExc} (h : openLog l = (.error exc, l1)) (s : σ) :
    (w.withLog openLog).getEventsRepo (s, l) = (.error exc, (s, l1)) := by
  have hopen : openLog.onSnd (s, l) = (.error exc, (s, l1)) := by simp only [Action.onSnd, h]
  exact Action.bind_error hopen _

/-- An invocation that got its log open reports what it would without one, and leaves
the process in the same state. -/
theorem lambdaHandler_opened {repo : Option (EventsRepo L)} (h : openLog l = (.ok repo, l1))
    (records : List SqsRecord) (s : σ) :
    ∃ l', (w.withLog openLog).lambdaHandler records (s, l) =
      ((w.handleRecords none records s).1, ((w.handleRecords none records s).2, l')) := by
  obtain ⟨l', hrun⟩ := handleRecords_withLog w openLog repo records s l1
  exact ⟨l', (Action.bind_ok (getEventsRepo_opened h s) _).trans hrun⟩

/-- One that did not raises before it looks at a record. -/
theorem lambdaHandler_unopened {exc : PyExc} (h : openLog l = (.error exc, l1))
    (records : List SqsRecord) (s : σ) :
    (w.withLog openLog).lambdaHandler records (s, l) = (.error exc, (s, l1)) :=
  Action.bind_error (getEventsRepo_unopened h s) _

end Opening

/-- An invocation with an event log is one without, or raises at once. -/
theorem lambdaHandler_withLog (w : Worker σ F D) (openLog : Py L (Option (EventsRepo L)))
    (records : List SqsRecord) (s : σ) (l : L) :
    (∃ l', (w.withLog openLog).lambdaHandler records (s, l) =
      ((w.handleRecords none records s).1, ((w.handleRecords none records s).2, l'))) ∨
    ∃ exc l', (w.withLog openLog).lambdaHandler records (s, l) = (.error exc, (s, l')) := by
  cases ho : openLog l with
  | mk r l1 =>
    cases r with
    | error exc => exact Or.inr ⟨exc, l1, lambdaHandler_unopened ho records s⟩
    | ok repo => exact Or.inl (lambdaHandler_opened ho records s)

end LingoAsync.Handler
