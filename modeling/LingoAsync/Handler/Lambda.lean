import LingoAsync.Calendar
import LingoAsync.Contracts.Envelope
import LingoAsync.Handler.SafeLog

/-!
# The dispatch loop

`lambda_handler` and `_dispatch` of `app/handler.py`, over any process state `σ`
and any handlers.

The loop guards two calls. Around `parse_event` it catches `ValidationError`
alone; around the handler, every `Exception`. So a record is settled, with its
own verdict, unless `parse_event` raises something else, and that is the whole
invocation's end.
-/

namespace LingoAsync.Handler

open LingoAsync.Text LingoAsync.Contracts LingoAsync.Calendar LingoAsync.Db

variable {σ F D : Type} [PyFloat F]

/-- What the loop reads of an SQS record. -/
structure SqsRecord where
  messageId : Option PyStr
  body : Option PyStr
  deriving DecidableEq, Repr

/-- `record.get("messageId", "<unknown>")`. -/
def SqsRecord.id (record : SqsRecord) : PyStr := record.messageId.getD (py "<unknown>")

/-- `record.get("body") or "{}"`. -/
def SqsRecord.text (record : SqsRecord) : PyStr :=
  match record.body with
  | some s => if s = [] then py "\x7b\x7d" else s
  | none => py "\x7b\x7d"

/-- What a handler returns: the outcomes for the event log. -/
abbrev Outcomes (F : Type) := List (Json F)

/-- The `handle` of each handler module. -/
structure Handlers (σ F D : Type) [PyFloat F] where
  xp_awarded : XpAwardedMessage → Py σ (Outcomes F)
  lesson_completed : LessonCompletedMessage F D → Py σ (Outcomes F)
  review_completed : ReviewCompletedMessage → Py σ (Outcomes F)
  friend_added : FriendAddedMessage → Py σ (Outcomes F)
  subscription_changed : SubscriptionChangedMessage → Py σ (Outcomes F)
  ad_watched : AdWatchedMessage D → Py σ (Outcomes F)

/-- `_dispatch`. Every type of the union has a handler in `_DISPATCH`, so the lookup
never misses. -/
def dispatch (handlers : Handlers σ F D) : EventMessage F D → Py σ (Outcomes F)
  | .xpAwarded m => handlers.xp_awarded m
  | .lessonCompleted m => handlers.lesson_completed m
  | .reviewCompleted m => handlers.review_completed m
  | .friendAdded m => handlers.friend_added m
  | .subscriptionChanged m => handlers.subscription_changed m
  | .adWatched m => handlers.ad_watched m

/-- The handlers with each computation changed by `g`, which may look at the event. -/
def Handlers.map {τ : Type} (g : EventMessage F D → Py σ (Outcomes F) → Py τ (Outcomes F))
    (h : Handlers σ F D) : Handlers τ F D where
  xp_awarded m := g (.xpAwarded m) (h.xp_awarded m)
  lesson_completed m := g (.lessonCompleted m) (h.lesson_completed m)
  review_completed m := g (.reviewCompleted m) (h.review_completed m)
  friend_added m := g (.friendAdded m) (h.friend_added m)
  subscription_changed m := g (.subscriptionChanged m) (h.subscription_changed m)
  ad_watched m := g (.adWatched m) (h.ad_watched m)

theorem dispatch_map {τ : Type} (g : EventMessage F D → Py σ (Outcomes F) → Py τ (Outcomes F))
    (h : Handlers σ F D) (event : EventMessage F D) :
    dispatch (h.map g) event = g event (dispatch h event) := by
  cases event <;> rfl

/-- What the loop works with: the interpreter, pydantic, the clock, the event log, the
handlers, `str(exc.errors())` and `repr(exc)`. -/
structure Worker (σ F D : Type) [PyFloat F] where
  rt : Runtime
  pydantic : Pydantic F D
  now : σ → Instant × σ
  getEventsRepo : Py σ (Option (EventsRepo σ))
  handlers : Handlers σ F D
  strErrors : List LineError → PyStr
  repr : PyExc → PyStr

/-- `_TTL_SECONDS`. -/
def TTL_SECONDS : Int := 30 * 24 * 3600

namespace Worker

variable (w : Worker σ F D)

/-- `datetime.now(UTC)`. -/
def utcNow : Py σ Instant := fun s => (.ok (w.now s).1, (w.now s).2)

/-- What `parse_event` makes of a record. -/
def parse (record : SqsRecord) : Except PyExc (EventMessage F D) :=
  parseEvent w.rt w.pydantic (.str record.text)

/-- The log entry of a record before it is handled. -/
def saveArgs (record : SqsRecord) (userId eventType receivedAt : PyStr) (ttlEpoch : Int) :
    SaveArgs :=
  ⟨record.id, userId, eventType, record.text, receivedAt, ttlEpoch⟩

/-- A record whose body is no valid event: logged, and reported. -/
def rejectRecord (repo : Option (EventsRepo σ)) (record : SqsRecord) (errors : List LineError)
    (receivedAt : PyStr) (ttlEpoch : Int) : Py σ (Option PyStr) := do
  safeSave repo (saveArgs record (py "<unparsed>") (py "<unparsed>") receivedAt ttlEpoch)
  safeUpdateStatus (F := F) repo record.id (py "failed") (some (w.strErrors errors)) []
  pure (some record.id)

/-- A record whose body is an event: logged, dispatched, and reported if the handler
raised. -/
def dispatchRecord (repo : Option (EventsRepo σ)) (record : SqsRecord) (parsed : EventMessage F D)
    (receivedAt : PyStr) (ttlEpoch : Int) : Py σ (Option PyStr) := do
  safeSave repo (saveArgs record parsed.userId parsed.type receivedAt ttlEpoch)
  match ← (dispatch w.handlers parsed).attempt with
  | .ok outcomes =>
    safeUpdateStatus repo record.id (py "ok") none outcomes
    pure none
  | .error exc =>
    -- `outcomes` is still empty: what the handler did before it raised is not logged
    safeUpdateStatus (F := F) repo record.id (py "failed") (some (w.repr exc)) []
    pure (some record.id)

/-- One turn of the loop: the message id to report, if any. -/
def handleRecord (repo : Option (EventsRepo σ)) (record : SqsRecord) : Py σ (Option PyStr) := do
  let receivedAt ← w.utcNow
  let ttlFrom ← w.utcNow
  let ttlEpoch := ttlFrom.timestampPlus TTL_SECONDS
  match w.parse record with
  -- the one exception of `parse_event` the loop catches
  | .error (.ValidationError errors) =>
    w.rejectRecord repo record errors receivedAt.isoformat ttlEpoch
  | .error exc => Action.raise exc
  | .ok parsed => w.dispatchRecord repo record parsed receivedAt.isoformat ttlEpoch

/-- The loop: the failures of the records, in order. -/
def handleRecords (repo : Option (EventsRepo σ)) : List SqsRecord → Py σ (List PyStr)
  | [] => pure []
  | record :: records => do
    let verdict ← w.handleRecord repo record
    let failures ← handleRecords repo records
    pure (verdict.toList ++ failures)

/-- `lambda_handler`: the `batchItemFailures`. -/
def lambdaHandler (records : List SqsRecord) : Py σ (List PyStr) := do
  let repo ← w.getEventsRepo
  w.handleRecords repo records

end Worker

/-! ## The batch, record by record -/

/-- A first record that is settled, and then the others. -/
theorem handleRecords_settled {w : Worker σ F D} {repo : Option (EventsRepo σ)}
    {record : SqsRecord} {s s1 : σ} {verdict : Option PyStr}
    (h : w.handleRecord repo record s = (.ok verdict, s1)) (records : List SqsRecord) :
    w.handleRecords repo (record :: records) s =
      ((w.handleRecords repo records s1).1.map (verdict.toList ++ ·),
        (w.handleRecords repo records s1).2) := by
  rw [Worker.handleRecords, Action.bind_ok h]
  exact Action.bind_pure _ _ s1

/-- A first record that raises is the last. -/
theorem handleRecords_ended {w : Worker σ F D} {repo : Option (EventsRepo σ)}
    {record : SqsRecord} {s s1 : σ} {exc : PyExc}
    (h : w.handleRecord repo record s = (.error exc, s1)) (records : List SqsRecord) :
    w.handleRecords repo (record :: records) s = (.error exc, s1) :=
  Action.bind_error h _

/-- What every record preserves holds at the loop's end. -/
theorem handleRecords_inv {w : Worker σ F D} {repo : Option (EventsRepo σ)} {P : σ → Prop}
    (hP : ∀ record s, P s → P (w.handleRecord repo record s).2) {records : List SqsRecord} {s : σ}
    (hs : P s) : P (w.handleRecords repo records s).2 := by
  induction records generalizing s with
  | nil => exact hs
  | cons record records ih =>
    have hnext := hP record s hs
    cases hrec : w.handleRecord repo record s with
    | mk r s1 =>
      rw [hrec] at hnext
      cases r with
      | error exc => rw [handleRecords_ended hrec]; exact hnext
      | ok verdict => rw [handleRecords_settled hrec]; exact ih hnext

/-! ## One record, without an event log -/

/-- Did the computation raise? -/
def raised {α : Type} : Except PyExc α → Bool
  | .ok _ => false
  | .error _ => true

/-- The state after the two readings of the clock a record starts with. -/
def Worker.tick (w : Worker σ F D) (s : σ) : σ := (w.now (w.now s).2).2

/-- A dispatched record, when no event log is configured. -/
theorem dispatchRecord_none (w : Worker σ F D) (record : SqsRecord) (parsed : EventMessage F D)
    (receivedAt : PyStr) (ttlEpoch : Int) (s : σ) :
    w.dispatchRecord none record parsed receivedAt ttlEpoch s =
      (.ok (if raised (dispatch w.handlers parsed s).1 then some record.id else none),
        (dispatch w.handlers parsed s).2) := by
  unfold Worker.dispatchRecord
  rw [Action.bind_ok (rfl : safeSave none _ s = (.ok (), s))]
  cases hd : dispatch w.handlers parsed s with
  | mk r s' =>
    have hattempt : (dispatch w.handlers parsed).attempt s = (.ok r, s') := by
      simp only [Action.attempt, hd]
    rw [Action.bind_ok hattempt]
    cases r <;> rfl

/-- How a record ends when no event log is configured. -/
theorem handleRecord_none (w : Worker σ F D) (record : SqsRecord) (s : σ) :
    w.handleRecord none record s =
      match w.parse record with
      | .error (.ValidationError _) => (.ok (some record.id), w.tick s)
      | .error exc => (.error exc, w.tick s)
      | .ok parsed =>
        (.ok (if raised (dispatch w.handlers parsed (w.tick s)).1 then some record.id else none),
          (dispatch w.handlers parsed (w.tick s)).2) := by
  have hread : ∀ s, w.utcNow s = (.ok (w.now s).1, (w.now s).2) := fun _ => rfl
  unfold Worker.handleRecord
  rw [Action.bind_ok (hread s), Action.bind_ok (hread _)]
  cases hp : w.parse record with
  | error exc => cases exc <;> rfl
  | ok parsed => exact dispatchRecord_none w record parsed _ _ (w.tick s)

/-- A record that cannot be unwrapped ends the invocation. -/
theorem handleRecord_raised {w : Worker σ F D} {record : SqsRecord}
    (h : ¬ Unwrappable F w.rt record.text) (s : σ) :
    ∃ exc, w.handleRecord none record s = (.error exc, w.tick s) := by
  obtain ⟨exc, hexc, hno⟩ := (parseEvent_escapes_iff w.rt w.pydantic record.text).mpr h
  refine ⟨exc, ?_⟩
  have hparse : w.parse record = .error exc := hexc
  rw [handleRecord_none, hparse]
  cases exc with
  | ValidationError errors => cases hno
  | _ => rfl

/-- Any other that does not decode is no valid event. -/
theorem parse_rejected {w : Worker σ F D} {record : SqsRecord}
    (h : Unwrappable F w.rt record.text) {exc : PyExc} (hparse : w.parse record = .error exc) :
    ∃ errors, exc = .ValidationError errors := by
  cases exc with
  | ValidationError errors => exact ⟨errors, rfl⟩
  | _ => exact absurd h ((parseEvent_escapes_iff w.rt w.pydantic record.text).mp ⟨_, hparse, rfl⟩)

/-- It is reported, and nothing is dispatched. -/
theorem handleRecord_rejected {w : Worker σ F D} {record : SqsRecord}
    (h : Unwrappable F w.rt record.text) {exc : PyExc} (hparse : w.parse record = .error exc)
    (s : σ) : w.handleRecord none record s = (.ok (some record.id), w.tick s) := by
  obtain ⟨errors, rfl⟩ := parse_rejected h hparse
  rw [handleRecord_none, hparse]

/-- A record that decodes is dispatched, and reported if its handler raises. -/
theorem handleRecord_dispatched {w : Worker σ F D} {record : SqsRecord}
    {parsed : EventMessage F D} (hparse : w.parse record = .ok parsed) (s : σ) :
    w.handleRecord none record s =
      (.ok (if raised (dispatch w.handlers parsed (w.tick s)).1 then some record.id else none),
        (dispatch w.handlers parsed (w.tick s)).2) := by
  rw [handleRecord_none, hparse]

/-- A record is settled exactly if it can be unwrapped. -/
theorem handleRecord_isOk_iff {w : Worker σ F D} {record : SqsRecord} (s : σ) :
    (w.handleRecord none record s).1.isOk = true ↔ Unwrappable F w.rt record.text := by
  constructor
  · intro hok
    by_contra h
    obtain ⟨exc, hraised⟩ := handleRecord_raised h s
    rw [hraised] at hok
    cases hok
  · intro h
    cases hparse : w.parse record with
    | error exc => rw [handleRecord_rejected h hparse]; rfl
    | ok parsed => rw [handleRecord_dispatched hparse]; rfl

/-! ## The batch, without an event log -/

/-- A loop that returned settled a first record, and then the others. -/
theorem handleRecords_cons {w : Worker σ F D} {record : SqsRecord} {records : List SqsRecord}
    {s s' : σ} {failures : List PyStr}
    (h : w.handleRecords none (record :: records) s = (.ok failures, s')) :
    ∃ verdict s1 rest, w.handleRecord none record s = (.ok verdict, s1) ∧
      w.handleRecords none records s1 = (.ok rest, s') ∧ failures = verdict.toList ++ rest := by
  unfold Worker.handleRecords at h
  obtain ⟨verdict, s1, hrec, h1⟩ := Action.bind_eq_ok h
  obtain ⟨rest, s2, hrest, h2⟩ := Action.bind_eq_ok h1
  obtain ⟨hf, hs⟩ := Prod.mk.inj h2
  exact ⟨verdict, s1, rest, hrec, hs ▸ hrest, (Except.ok.inj hf).symm⟩

/-- A loop that returned settled the records up to one, that one, and the rest. -/
theorem handleRecords_split {w : Worker σ F D} {record : SqsRecord} {pre post : List SqsRecord}
    {s s' : σ} {failures : List PyStr}
    (h : w.handleRecords none (pre ++ record :: post) s = (.ok failures, s')) :
    ∃ before verdict s2 after, w.handleRecords none pre s =
        (.ok before, (w.handleRecords none pre s).2) ∧
      w.handleRecord none record (w.handleRecords none pre s).2 = (.ok verdict, s2) ∧
      w.handleRecords none post s2 = (.ok after, s') ∧
      failures = before ++ (verdict.toList ++ after) := by
  induction pre generalizing s failures with
  | nil =>
    obtain ⟨verdict, s2, after, hrec, hrest, hf⟩ := handleRecords_cons h
    exact ⟨[], verdict, s2, after, rfl, hrec, hrest, hf⟩
  | cons other pre ih =>
    obtain ⟨v, s1, rest, hv, hrest, hf⟩ := handleRecords_cons h
    obtain ⟨before, verdict, s2, after, hpre, hrec, hpost, hf'⟩ := ih hrest
    have hrun : w.handleRecords none (other :: pre) s =
        (.ok (v.toList ++ before), (w.handleRecords none pre s1).2) :=
      (Action.bind_ok hv _).trans (Action.bind_ok hpre _)
    rw [hrun]
    exact ⟨v.toList ++ before, verdict, s2, after, rfl, hrec, hpost, by
      rw [hf, hf', List.append_assoc]⟩

/-- A record's verdict is no id but its own. -/
theorem handleRecord_verdict {w : Worker σ F D} {record : SqsRecord} {s s' : σ}
    {verdict : Option PyStr} (h : w.handleRecord none record s = (.ok verdict, s')) :
    verdict = none ∨ verdict = some record.id := by
  rw [handleRecord_none] at h
  split at h
  · exact Or.inr (Except.ok.inj (Prod.mk.inj h).1).symm
  · cases h
  · have hv := Except.ok.inj (Prod.mk.inj h).1
    split at hv
    · exact Or.inr hv.symm
    · exact Or.inl hv.symm

/-- The failures are ids of records of the batch. -/
theorem handleRecords_ids {w : Worker σ F D} {records : List SqsRecord} {s s' : σ}
    {failures : List PyStr} (h : w.handleRecords none records s = (.ok failures, s')) :
    ∀ id ∈ failures, ∃ record ∈ records, record.id = id := by
  intro id hid
  induction records generalizing s failures with
  | nil =>
    rw [← Except.ok.inj (Prod.mk.inj h).1] at hid
    cases hid
  | cons record records ih =>
    obtain ⟨verdict, s1, rest, hrec, hrest, rfl⟩ := handleRecords_cons h
    rcases List.mem_append.mp hid with hv | hr
    · rcases handleRecord_verdict hrec with rfl | rfl
      · cases hv
      · exact ⟨record, List.mem_cons_self .., (by simpa using hv : id = record.id).symm⟩
    · obtain ⟨other, hmem, hoid⟩ := ih hrest hr
      exact ⟨other, List.mem_cons_of_mem _ hmem, hoid⟩

/-- A record whose id no other record has is reported exactly when its own verdict
says so. -/
theorem mem_failures_iff {w : Worker σ F D} {record : SqsRecord} {pre post : List SqsRecord}
    {s s' : σ} {failures : List PyStr} (hid : ∀ other ∈ pre ++ post, other.id ≠ record.id)
    (h : w.handleRecords none (pre ++ record :: post) s = (.ok failures, s')) :
    ∃ verdict s2 after, w.handleRecord none record (w.handleRecords none pre s).2 =
        (.ok verdict, s2) ∧ w.handleRecords none post s2 = (.ok after, s') ∧
      (record.id ∉ failures ↔ verdict = none) := by
  obtain ⟨before, verdict, s2, after, hpre, hrec, hpost, rfl⟩ := handleRecords_split h
  refine ⟨verdict, s2, after, hrec, hpost, ?_⟩
  have hbefore : record.id ∉ before := by
    intro hmem
    obtain ⟨other, ho, he⟩ := handleRecords_ids hpre _ hmem
    exact hid other (List.mem_append_left _ ho) he
  have hafter : record.id ∉ after := by
    intro hmem
    obtain ⟨other, ho, he⟩ := handleRecords_ids hpost _ hmem
    exact hid other (List.mem_append_right _ ho) he
  rcases handleRecord_verdict hrec with rfl | rfl
  · simp [hbefore, hafter]
  · simp

end LingoAsync.Handler
