import LingoAsync.Db.Mirror
import LingoAsync.Handler.Deliveries
import LingoAsync.Handler.Isolation

/-!
# The log and the queue

A record is settled twice: in the `batchItemFailures`, for the queue, and in its row
of the event log. A message that comes again, or an id that two records of a batch
share, is saved once only: the second `save` breaks the primary key and is
swallowed. It is the `update_status`, on one of two branches, that keeps the row up
to date.

`Worker.processed` lists what became of the records of a batch. After any run of
returning invocations on an empty SQLite log, an id that was delivered has one row,
and the row says what became of the last record with that id (`log_agrees`).
-/

namespace LingoAsync.Handler

open LingoAsync.Text LingoAsync.Contracts LingoAsync.Db LingoAsync.Machine

variable {σ F D : Type}

/-- What became of a record: the outcomes its handler returned, unless it was reported. -/
structure Processed (F : Type) where
  id : PyStr
  outcomes : Option (Outcomes F)

/-- The last of them with an id. -/
def lastWith (ps : List (Processed F)) (id : PyStr) : Option (Processed F) :=
  (ps.filter (·.id = id)).getLast?

theorem lastWith_concat_self (ps : List (Processed F)) (p : Processed F) :
    lastWith (ps ++ [p]) p.id = some p := by
  simp [lastWith]

theorem lastWith_concat_ne (ps : List (Processed F)) {p : Processed F} {id : PyStr}
    (h : id ≠ p.id) : lastWith (ps ++ [p]) id = lastWith ps id := by
  simp [lastWith, h.symm]

theorem lastWith_id {ps : List (Processed F)} {id : PyStr} {p : Processed F}
    (h : lastWith ps id = some p) : p.id = id := by
  simpa using (List.mem_filter.mp (List.mem_of_getLast? h)).2

/-- The ids of those that were reported, in order. -/
def reportedIds (ps : List (Processed F)) : List PyStr := (ps.filter (·.outcomes.isNone)).map (·.id)

theorem reportedIds_cons (p : Processed F) (ps : List (Processed F)) :
    reportedIds (p :: ps) = (if p.outcomes.isNone then some p.id else none).toList ++
      reportedIds ps := by
  rw [reportedIds, List.filter_cons]
  cases p.outcomes <;> rfl

variable [PyFloat F]

/-- The text the log keeps of the outcomes, if `json.dumps` does not raise. -/
def Processed.outcomesJson (p : Processed F) : Option PyStr :=
  (Json.list (p.outcomes.getD [])).dumpsChecked .default

/-- The row says what became of the record. -/
structure Agrees (row : EventRow) (p : Processed F) : Prop where
  status : row.status = if p.outcomes.isSome then py "ok" else py "failed"
  errorMsg : row.errorMsg.isSome = p.outcomes.isNone
  outcomesJson : p.outcomesJson = some row.outcomesJson

theorem Agrees.not_received {row : EventRow} {p : Processed F} (h : Agrees row p) :
    row.status ≠ py "received" := by
  rw [h.status]
  split <;> decide

namespace Worker

variable (w : Worker σ F D)

/-- What becomes of a record that starts at `s`. -/
def process (record : SqsRecord) (s : σ) : Processed F where
  id := record.id
  outcomes :=
    match w.parse record with
    | .ok parsed => (dispatch w.handlers parsed (w.tick s)).1.toOption
    | .error _ => none

/-- What becomes of the records of a batch. -/
def processed : List SqsRecord → σ → List (Processed F)
  | [], _ => []
  | record :: records, s => w.process record s :: processed records (w.recordStep s record)

/-- The worker with the SQLite log, as the settings of local development have it. -/
def onSqlite : Worker (σ × SqliteLog) F D := w.withLog (pure (some SqliteLog.repo))

/-- The state after an invocation. -/
def invoke (s : σ) (batch : List SqsRecord) : σ := (w.lambdaHandler batch s).2

/-- What the invocations of a schedule report, one after the other. -/
def reports : List (List SqsRecord) → σ → List (Except PyExc (List PyStr))
  | [], _ => []
  | batch :: schedule, s => (w.lambdaHandler batch s).1 :: reports schedule (w.invoke s batch)

end Worker

/-! ## One record -/

theorem raised_eq_isNone {α : Type} (r : Except PyExc α) : raised r = r.toOption.isNone := by
  cases r <;> rfl

/-- A record's verdict is its id exactly if it has no outcomes. -/
theorem handleRecord_process {w : Worker σ F D} {record : SqsRecord} {s : σ}
    (h : (w.handleRecord none record s).1.isOk = true) :
    w.handleRecord none record s =
      (.ok (if (w.process record s).outcomes.isNone then some record.id else none),
        w.recordStep s record) := by
  refine Prod.ext ?_ rfl
  unfold Worker.process
  rw [handleRecord_none] at h ⊢
  cases hp : w.parse record with
  | error exc =>
    rw [hp] at h
    cases exc with
    | ValidationError errors => rfl
    | _ => cases h
  | ok parsed =>
    simp only [raised_eq_isNone]

/-- An update of outcomes that can be dumped is not swallowed. -/
theorem safeUpdateStatus_dumped {L : Type} {repo : EventsRepo L} {outcomes : Outcomes F}
    {text : PyStr} (h : (Json.list outcomes).dumpsChecked .default = some text) (id status : PyStr)
    (errorMsg : Option PyStr) (l : L) :
    (safeUpdateStatus (some repo) id status errorMsg outcomes l).2 =
      (repo.updateStatus ⟨id, status, errorMsg, text⟩ l).2 := by
  have hjson : jsonDumps (.list outcomes) l = (.ok text, l) := by
    rw [jsonDumps, h]
    rfl
  rw [safeUpdateStatus, rescue_unit, Action.bind_ok hjson]

/-- What a record writes to a log is one delivery, with a verdict that agrees. -/
theorem logRecord_delivers {w : Worker σ F D} {record : SqsRecord} {s : σ}
    (hok : (w.handleRecord none record s).1.isOk = true)
    (hdumps : (w.process record s).outcomesJson.isSome = true) :
    ∃ d : Db.Delivery, d.id = record.id ∧ d.payloadJson = record.text ∧
      Agrees d.row (w.process record s) ∧ ∀ {L : Type} (repo : EventsRepo L) (l : L),
        (w.logRecord (some repo) record s l).2 = deliver repo l d := by
  obtain ⟨text, htext⟩ := Option.isSome_iff_exists.mp hdumps
  have hempty : (Json.list (F := F) []).dumpsChecked .default = some (py "[]") := rfl
  have hsaved : ∀ {L : Type} (repo : EventsRepo L) a l, safeSave (some repo) a l =
      (.ok (), (repo.save a l).2) := fun _ _ _ => rescue_unit _ _
  unfold Worker.process at htext ⊢
  unfold Worker.logRecord
  rw [handleRecord_none] at hok
  cases hp : w.parse record with
  | error exc =>
    cases exc with
    | ValidationError errors =>
      refine ⟨⟨record.id, py "<unparsed>", py "<unparsed>", record.text, (w.now s).1,
        (w.now (w.now s).2).1.timestampPlus TTL_SECONDS, py "failed", some (w.strErrors errors),
        py "[]"⟩, rfl, rfl, ⟨rfl, rfl, hempty⟩, ?_⟩
      intro L repo l
      rw [deliver_eq]
      dsimp only
      rw [Action.bind_ok (hsaved ..), safeUpdateStatus_dumped hempty]
      rfl
    | _ =>
      rw [hp] at hok
      cases hok
  | ok parsed =>
    rw [hp] at htext
    dsimp only at htext ⊢
    cases hd : (dispatch w.handlers parsed (w.tick s)).1 with
    | ok outcomes =>
      rw [hd] at htext
      have hjson : (Json.list outcomes).dumpsChecked .default = some text := htext
      refine ⟨⟨record.id, parsed.userId, parsed.type, record.text, (w.now s).1,
        (w.now (w.now s).2).1.timestampPlus TTL_SECONDS, py "ok", none, text⟩,
        rfl, rfl, ⟨rfl, rfl, htext⟩, ?_⟩
      intro L repo l
      rw [deliver_eq, Action.bind_ok (hsaved ..), safeUpdateStatus_dumped hjson]
      rfl
    | error exc =>
      refine ⟨⟨record.id, parsed.userId, parsed.type, record.text, (w.now s).1,
        (w.now (w.now s).2).1.timestampPlus TTL_SECONDS, py "failed", some (w.repr exc),
        py "[]"⟩, rfl, rfl, ⟨rfl, rfl, hempty⟩, ?_⟩
      intro L repo l
      rw [deliver_eq, Action.bind_ok (hsaved ..), safeUpdateStatus_dumped hempty]
      rfl

/-! ## The log as an invariant -/

/-- Every id that was processed has its row, and every row says what became of the last
record with its id. -/
structure LogAgrees (db : SqliteLog) (ps : List (Processed F)) : Prop where
  ids : ∀ id, id ∈ db.rows.map (·.id) ↔ id ∈ ps.map (·.id)
  rows : ∀ row ∈ db.rows, ∃ p, lastWith ps row.id = some p ∧ Agrees row p

theorem logAgrees_empty : LogAgrees SqliteLog.empty ([] : List (Processed F)) where
  ids _ := Iff.rfl
  rows _ h := nomatch h

/-- A delivery keeps the log in agreement. -/
theorem LogAgrees.deliver {db : SqliteLog} {ps : List (Processed F)} {d : Db.Delivery}
    {p : Processed F} (h : LogAgrees db ps) (hid : d.id = p.id) (hd : Agrees d.row p) :
    LogAgrees (deliver SqliteLog.repo db d) (ps ++ [p]) where
  ids id := by
    rw [deliver_sqlite_ids, h.ids, hid]
    simp
  rows row hrow := by
    rcases mem_deliver_sqlite hrow with ⟨hself, hstatus, herror, hjson⟩ | ⟨hother, hold⟩
    · refine ⟨p, ?_, ?_⟩
      · rw [hself, hid]
        exact lastWith_concat_self ps p
      · exact ⟨hstatus.trans hd.status, (congrArg _ herror).trans hd.errorMsg,
          hd.outcomesJson.trans (congrArg _ hjson.symm)⟩
    · obtain ⟨q, hlast, hq⟩ := h.rows row hold
      exact ⟨q, (lastWith_concat_ne ps (hid ▸ hother)).trans hlast, hq⟩

/-- The rows with an id that was processed: one, which agrees. -/
theorem LogAgrees.row {db : SqliteLog} {ps : List (Processed F)} (h : LogAgrees db ps)
    {id : PyStr} (hid : id ∈ ps.map (·.id)) :
    ∃ row p, db.rows.filter (·.id = id) = [row] ∧ lastWith ps id = some p ∧ Agrees row p := by
  obtain ⟨row, hrow, rfl⟩ := List.mem_map.mp ((h.ids id).mpr hid)
  obtain ⟨p, hlast, hp⟩ := h.rows row hrow
  exact ⟨row, p, filter_id_of_nodup EventRow.id db.primaryKey hrow, hlast, hp⟩

/-! ## Runs -/

theorem processed_append (w : Worker σ F D) (as bs : List SqsRecord) (s : σ) :
    w.processed (as ++ bs) s = w.processed as s ++ w.processed bs (run w.recordStep s as) := by
  induction as generalizing s with
  | nil => rfl
  | cons record as ih => exact congrArg (w.process record s :: ·) (ih (w.recordStep s record))

theorem processed_ids (w : Worker σ F D) (records : List SqsRecord) (s : σ) :
    (w.processed records s).map (·.id) = records.map (·.id) := by
  induction records generalizing s with
  | nil => rfl
  | cons record records ih => exact congrArg (record.id :: ·) (ih (w.recordStep s record))

/-- What became of the last record with an id, with the records around it. -/
theorem lastWith_processed {w : Worker σ F D} {records : List SqsRecord} {s : σ} {id : PyStr}
    {p : Processed F} (h : lastWith (w.processed records s) id = some p) :
    ∃ pre record post, records = pre ++ record :: post ∧ record.id = id ∧
      (∀ later ∈ post, later.id ≠ id) ∧ p = w.process record (run w.recordStep s pre) := by
  induction records using List.reverseRecOn with
  | nil => cases h
  | append_singleton records record ih =>
    rw [processed_append] at h
    by_cases hid : record.id = id
    · refine ⟨records, record, [], rfl, hid, List.forall_mem_nil _, ?_⟩
      rw [← hid] at h
      exact Option.some.inj (h.symm.trans (lastWith_concat_self _ (w.process record _)))
    · obtain ⟨pre, found, post, hrecords, hfound, hlater, hp⟩ :=
        ih ((lastWith_concat_ne _ (p := w.process record _) (Ne.symm hid)).symm.trans h)
      refine ⟨pre, found, post ++ [record], ?_, hfound, ?_, hp⟩
      · rw [hrecords, List.append_assoc]
        rfl
      · intro later hmem
        rcases List.mem_append.mp hmem with hpost | hlast
        · exact hlater later hpost
        · rw [List.mem_singleton.mp hlast]
          exact hid

section Runs

variable {w : Worker σ F D} {s : σ} {db : SqliteLog} {ps : List (Processed F)}

/-- A batch that is settled to its end leaves the log in agreement. -/
theorem handleRecords_agrees {records : List SqsRecord} (h : LogAgrees db ps)
    (hok : (w.onSqlite.handleRecords (some (onLog SqliteLog.repo)) records (s, db)).1.isOk = true)
    (hdumps : ∀ p ∈ w.processed records s, p.outcomesJson.isSome = true) :
    ∃ db', w.onSqlite.handleRecords (some (onLog SqliteLog.repo)) records (s, db) =
        (.ok (reportedIds (w.processed records s)), (run w.recordStep s records, db')) ∧
      LogAgrees db' (ps ++ w.processed records s) := by
  induction records generalizing s db ps with
  | nil => exact ⟨db, rfl, by rwa [Worker.processed, List.append_nil]⟩
  | cons record records ih =>
    have hrec : w.onSqlite.handleRecord (some (onLog SqliteLog.repo)) record (s, db) = _ :=
      handleRecord_onLog w _ (some SqliteLog.repo) record s db
    obtain ⟨hfirst, hothers⟩ := List.forall_mem_cons.mp hdumps
    cases hr : (w.handleRecord none record s).1 with
    | error exc =>
      rw [hr] at hrec
      rw [handleRecords_ended hrec] at hok
      cases hok
    | ok verdict =>
      have hisOk : (w.handleRecord none record s).1.isOk = true := by rw [hr]; rfl
      obtain ⟨d, hid, -, hd, hlog⟩ := logRecord_delivers hisOk hfirst
      rw [hlog, handleRecord_process hisOk] at hrec
      rw [handleRecords_settled hrec] at hok ⊢
      have hrest : (w.onSqlite.handleRecords (some (onLog SqliteLog.repo)) records
          (w.recordStep s record, deliver SqliteLog.repo db d)).1.isOk = true := by
        cases hend : (w.onSqlite.handleRecords (some (onLog SqliteLog.repo)) records
            (w.recordStep s record, deliver SqliteLog.repo db d)).1 with
        | ok failures => rfl
        | error exc => rw [hend] at hok; cases hok
      obtain ⟨db', hrun, hagrees⟩ := ih (h.deliver hid hd) hrest hothers
      refine ⟨db', ?_, ?_⟩
      · rw [hrun, Worker.processed, reportedIds_cons]
        rfl
      · rwa [List.append_assoc] at hagrees

/-- So does a run of invocations that return, and each returns the ids of the records it
reported. -/
theorem invocations_agree {schedule : List (List SqsRecord)} (h : LogAgrees db ps)
    (hreturns : Along w.onSqlite.invoke
      (fun t batch => (w.onSqlite.lambdaHandler batch t).1.isOk = true) (s, db) schedule)
    (hdumps : ∀ p ∈ w.processed schedule.flatten s, p.outcomesJson.isSome = true) :
    Along w.onSqlite.invoke (fun t batch => (w.onSqlite.lambdaHandler batch t).1 =
        .ok (reportedIds (w.processed batch t.1))) (s, db) schedule ∧
      LogAgrees (run w.onSqlite.invoke (s, db) schedule).2
        (ps ++ w.processed schedule.flatten s) := by
  induction schedule generalizing s db ps with
  | nil => exact ⟨trivial, by rwa [List.flatten_nil, Worker.processed, List.append_nil]⟩
  | cons batch schedule ih =>
    obtain ⟨hfirst, hothers⟩ := hreturns
    have hopen : w.onSqlite.lambdaHandler batch (s, db) =
        w.onSqlite.handleRecords (some (onLog SqliteLog.repo)) batch (s, db) :=
      Action.bind_ok (getEventsRepo_opened (w := w) rfl s) _
    rw [List.flatten_cons, processed_append, List.forall_mem_append] at hdumps
    obtain ⟨db', hrun, hagrees⟩ := handleRecords_agrees h (hopen ▸ hfirst) hdumps.1
    have hnext : w.onSqlite.invoke (s, db) batch = (run w.recordStep s batch, db') := by
      rw [Worker.invoke, hopen, hrun]
    rw [hnext] at hothers
    obtain ⟨hall, hend⟩ := ih hagrees hothers hdumps.2
    rw [along_cons, run_cons, hnext, List.flatten_cons, processed_append, ← List.append_assoc]
    exact ⟨⟨by rw [hopen, hrun], hall⟩, hend⟩

end Runs

/-- **The log and the queue agree.** After any invocations on an empty SQLite log that all
return, with outcomes that can be dumped: each invocation returned the ids of the records it
reported, no row is left as it was received, and every id that was delivered has one row, which
says what became of the last record with that id. -/
theorem log_agrees (w : Worker σ F D) (schedule : List (List SqsRecord)) (s : σ)
    (hreturns : Along w.onSqlite.invoke
      (fun t batch => (w.onSqlite.lambdaHandler batch t).1.isOk = true) (s, .empty) schedule)
    (hdumps : ∀ p ∈ w.processed schedule.flatten s, p.outcomesJson.isSome = true) :
    Along w.onSqlite.invoke (fun t batch => (w.onSqlite.lambdaHandler batch t).1 =
        .ok (reportedIds (w.processed batch t.1))) (s, .empty) schedule ∧
      (∀ row ∈ (run w.onSqlite.invoke (s, .empty) schedule).2.rows, row.status ≠ py "received") ∧
      ∀ id ∈ schedule.flatten.map (·.id), ∃ row p,
        (run w.onSqlite.invoke (s, .empty) schedule).2.rows.filter (·.id = id) = [row] ∧
        lastWith (w.processed schedule.flatten s) id = some p ∧ Agrees row p := by
  obtain ⟨hall, hagrees⟩ := invocations_agree logAgrees_empty hreturns hdumps
  refine ⟨hall, ?_, ?_⟩
  · intro row hrow
    obtain ⟨p, -, hp⟩ := hagrees.rows row hrow
    exact hp.not_received
  · intro id hid
    refine hagrees.row ?_
    rwa [List.nil_append, processed_ids]

/-! ## A message that comes twice -/

/-- A record with the id of `friendRecord` and no event in it. -/
def emptyRecord : SqsRecord where
  messageId := some (py "m1")
  body := none

/-- A message is settled, and its id comes again with a body that is no event: the one row
says failed. -/
theorem log_agrees_again : ∃ row p,
    (run idleWorker.onSqlite.invoke ((), .empty) [[friendRecord], [emptyRecord]]).2.rows.filter
      (·.id = py "m1") = [row] ∧
    lastWith (idleWorker.processed [friendRecord, emptyRecord] ()) (py "m1") = some p ∧
    Agrees row p :=
  (log_agrees idleWorker [[friendRecord], [emptyRecord]] () (by decide +kernel)
    (by decide +kernel)).2.2 _ (by decide)

end LingoAsync.Handler
