import LingoAsync.Contracts.WireForms
import LingoAsync.Handler.Lambda

/-!
# Partial-batch isolation

A batch is isolated (`Isolates`) when the invocation returns, the events of the
decodable bodies were dispatched once each in record order, and the reported ids
are those of the records that do not decode or whose handler raised. To say so
the handlers are wrapped (`Worker.logged`): each dispatch leaves an entry in a
log, and nothing else changes.

The loop catches `ValidationError` and nothing else around `parse_event`. So one
record that `parse_event` cannot unwrap ends the invocation and fails its
already processed peers; when there is none, every record is settled on its own.
`isolates_iff`: a batch is isolated exactly when every body can be unwrapped.
-/

namespace LingoAsync.Handler

open LingoAsync.Text LingoAsync.Contracts LingoAsync.Calendar

variable {σ F D : Type} [PyFloat F]

/-! ## The log of dispatches -/

/-- One dispatch: the event, and whether its handler raised. -/
structure Dispatched (F D : Type) [PyFloat F] where
  event : EventMessage F D
  raised : Bool

/-- The handler's computation, with an entry in the log. -/
def logDispatch (event : EventMessage F D) (m : Py σ (Outcomes F)) :
    Py (σ × List (Dispatched F D)) (Outcomes F) := fun s =>
  ((m s.1).1, ((m s.1).2, s.2 ++ [⟨event, raised (m s.1).1⟩]))

/-- The worker with its dispatches logged and no event log. -/
def Worker.logged (w : Worker σ F D) : Worker (σ × List (Dispatched F D)) F D where
  rt := w.rt
  pydantic := w.pydantic
  now s := ((w.now s.1).1, ((w.now s.1).2, s.2))
  getEventsRepo := pure none
  handlers := w.handlers.map logDispatch
  strErrors := w.strErrors
  repr := w.repr

/-! ## The batch -/

/-- The ids to report, given which of the dispatches raised: a record that does not
decode, and one whose dispatch raised. -/
def reported (w : Worker σ F D) : List SqsRecord → List Bool → List PyStr
  | [], _ => []
  | record :: records, outcomes =>
    match w.parse record, outcomes with
    | .error _, _ => record.id :: reported w records outcomes
    | .ok _, [] => reported w records []
    | .ok _, raised :: outcomes =>
      (if raised then [record.id] else []) ++ reported w records outcomes

/-- The events of a batch: those of the bodies that decode. -/
def events (w : Worker σ F D) (records : List SqsRecord) : List (EventMessage F D) :=
  records.filterMap fun record => (w.parse record).toOption

/-- The invocation returns, with every decodable record dispatched once and in order,
and reports the records that do not decode or whose handler raised. -/
def Isolates (w : Worker σ F D) (s : σ) (records : List SqsRecord) : Prop :=
  ∃ failures s' log, w.logged.lambdaHandler records (s, []) = (.ok failures, (s', log)) ∧
    log.map (·.event) = events w records ∧ failures = reported w records (log.map (·.raised))

theorem parse_logged (w : Worker σ F D) (record : SqsRecord) :
    w.logged.parse record = w.parse record := rfl

/-- When every body can be unwrapped, the loop settles one record after the other. -/
theorem handleRecords_isolates (w : Worker σ F D) :
    ∀ (records : List SqsRecord) (s : σ) (log : List (Dispatched F D)),
      (∀ record ∈ records, Unwrappable F w.rt record.text) →
      ∃ failures s' new, w.logged.handleRecords none records (s, log) =
          (.ok failures, (s', log ++ new)) ∧
        new.map (·.event) = events w records ∧
        failures = reported w records (new.map (·.raised)) := by
  intro records
  induction records with
  | nil =>
    intro s log _
    exact ⟨[], s, [], by rw [List.append_nil]; rfl, rfl, rfl⟩
  | cons record records ih =>
    intro s log h
    have hunwrap := h record (List.mem_cons_self ..)
    have hrest := fun r hr => h r (List.mem_cons_of_mem _ hr)
    have htick : w.logged.tick (s, log) = (w.tick s, log) := rfl
    cases hparse : w.parse record with
    | error exc =>
      have hrec := handleRecord_rejected (w := w.logged) hunwrap
        ((parse_logged w record).trans hparse) (s, log)
      obtain ⟨failures, s', new, hrun, hevents, hfail⟩ := ih (w.tick s) log hrest
      refine ⟨record.id :: failures, s', new, ?_, ?_, ?_⟩
      · rw [handleRecords_settled hrec, htick, hrun]
        rfl
      · rw [hevents, events, events, List.filterMap_cons, hparse]
        rfl
      · simp only [reported, hparse, hfail]
    | ok parsed =>
      have hrec := handleRecord_dispatched (w := w.logged)
        ((parse_logged w record).trans hparse) (s, log)
      have hlogged : dispatch w.logged.handlers parsed (w.tick s, log) =
          logDispatch parsed (dispatch w.handlers parsed) (w.tick s, log) := by
        rw [← dispatch_map logDispatch]
        rfl
      obtain ⟨r, s1, hdispatch⟩ : ∃ r s1, dispatch w.handlers parsed (w.tick s) = (r, s1) :=
        ⟨_, _, rfl⟩
      rw [htick, hlogged] at hrec
      simp only [logDispatch, hdispatch] at hrec
      obtain ⟨failures, s', new, hrun, hevents, hfail⟩ :=
        ih s1 (log ++ [⟨parsed, raised r⟩]) hrest
      refine ⟨(if raised r then [record.id] else []) ++ failures, s',
        ⟨parsed, raised r⟩ :: new, ?_, ?_, ?_⟩
      · rw [handleRecords_settled hrec, hrun, List.append_assoc]
        cases raised r <;> rfl
      · rw [List.map_cons, hevents, events, events, List.filterMap_cons, hparse]
        rfl
      · simp only [List.map_cons, reported, hparse, hfail]

/-- One body that cannot be unwrapped, and the invocation raises. -/
theorem handleRecords_raised (w : Worker σ F D) {records : List SqsRecord} {bad : SqsRecord}
    (hmem : bad ∈ records) (hbad : ¬ Unwrappable F w.rt bad.text) (s : σ) :
    ∃ exc s', w.handleRecords none records s = (.error exc, s') := by
  induction records generalizing s with
  | nil => cases hmem
  | cons record records ih =>
    cases hrec : w.handleRecord none record s with
    | mk verdict s1 =>
      cases verdict with
      | error exc => exact ⟨exc, s1, handleRecords_ended hrec records⟩
      | ok verdict =>
        rcases List.mem_cons.mp hmem with rfl | hmem
        · obtain ⟨exc, hexc⟩ := handleRecord_raised hbad s
          rw [hexc] at hrec
          cases hrec
        · obtain ⟨exc, s2, hrun⟩ := ih hmem s1
          exact ⟨exc, s2, by rw [handleRecords_settled hrec, hrun]; rfl⟩

/-- **Isolation.** A batch is isolated if and only if every body in it can be
unwrapped. -/
theorem isolates_iff (w : Worker σ F D) (s : σ) (records : List SqsRecord) :
    Isolates w s records ↔ ∀ record ∈ records, Unwrappable F w.rt record.text := by
  have hrepo : w.logged.getEventsRepo (s, []) = (.ok none, (s, [])) := rfl
  unfold Isolates Worker.lambdaHandler
  rw [Action.bind_ok hrepo]
  constructor
  · intro hyp
    obtain ⟨failures, s', log, hrun, -, -⟩ := hyp
    by_contra hno
    push Not at hno
    obtain ⟨bad, hmem, hbad⟩ := hno
    obtain ⟨exc, s2, hraise⟩ := handleRecords_raised w.logged hmem hbad (s, [])
    rw [hrun] at hraise
    cases hraise
  · intro h
    obtain ⟨failures, s', new, hrun, hevents, hfail⟩ := handleRecords_isolates w records s [] h
    exact ⟨failures, s', new, hrun, hevents, hfail⟩

/-! ## A batch that is not isolated -/

/-- Handlers with nothing to do. -/
def idleHandlers : Handlers Unit Score Stamp where
  xp_awarded _ := pure []
  lesson_completed _ := pure []
  review_completed _ := pure []
  friend_added _ := pure []
  subscription_changed _ := pure []
  ad_watched _ := pure []

/-- A worker with idle handlers, whose clock stands at noon. -/
def idleWorker : Worker Unit Score Stamp where
  rt := plainRuntime
  pydantic := strictPydantic
  now _ := (.noon, ())
  getEventsRepo := pure none
  handlers := idleHandlers
  strErrors _ := py "[]"
  repr _ := py "Exception()"

def friendRecord : SqsRecord where
  messageId := some (py "m1")
  body := some (py "\x7b\"type\": \"friend_added\", \"user_id\": \"u1\", \"friend_id\": \"u2\"\x7d")

/-- An envelope whose body claims to be base64 and is not. -/
def poisonRecord : SqsRecord where
  messageId := some (py "m2")
  body := some (py "\x7b\"body\": \"a\", \"content-type\": \"x\", " ++
    py "\"properties\": \x7b\"body_encoding\": \"base64\"\x7d\x7d")

/-- The second record's body fails the first record, whose handler had already
returned. -/
theorem isolates_poison :
    ¬ Isolates idleWorker () [friendRecord, poisonRecord] ∧
    (idleWorker.logged.lambdaHandler [friendRecord, poisonRecord] ((), [])).2.2.map
      (fun d => (d.event.type, d.raised)) = [(py "friend_added", false)] := by
  have hraise : (idleWorker.logged.lambdaHandler [friendRecord, poisonRecord] ((), [])).1 =
      .error .BinasciiError := by decide +kernel
  refine ⟨?_, by decide +kernel⟩
  intro hyp
  obtain ⟨failures, s', log, hrun, -, -⟩ := hyp
  rw [hrun] at hraise
  cases hraise

end LingoAsync.Handler
