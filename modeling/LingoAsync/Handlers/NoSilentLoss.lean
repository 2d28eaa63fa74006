import LingoAsync.Contracts.WireForms
import LingoAsync.Handler.EventLog
import LingoAsync.Handlers.Plan

/-!
# No silent loss

A message leaves the queue when `lambda_handler` does not report it. Take any
record of any batch, from any state of the process, with any event log: the steps
its dispatch applied are a prefix of the event's plan, and the record is left out
of `batchItemFailures` exactly when that prefix is the whole plan and the quest
listing did not fail (`lambdaHandler_noSilentLoss`).
-/

namespace LingoAsync.Handlers

open LingoAsync.Text LingoAsync.Contracts LingoAsync.Handler LingoAsync.Db

variable {F D L : Type} [PyFloat F]

/-- The world in which the dispatch of a record starts: after the records before it,
and the two readings of the clock. -/
def worldBefore (w : Worker (World F) F D) (pre : List SqsRecord) (s : World F) : World F :=
  w.tick (w.handleRecords none pre s).2

/-- The world after the dispatch. -/
def worldAfter (w : Worker (World F) F D) (event : EventMessage F D) (before : World F) : World F :=
  (dispatch w.handlers event before).2

/-- A record's verdict is that nothing is to be reported exactly when its handler
returned. -/
theorem verdict_none_iff {σ : Type} {w : Worker σ F D} {record : SqsRecord}
    {event : EventMessage F D} (hparse : w.parse record = .ok event) {s s' : σ}
    {verdict : Option PyStr} (h : w.handleRecord none record s = (.ok verdict, s')) :
    s' = (dispatch w.handlers event (w.tick s)).2 ∧
      (verdict = none ↔ ∃ outcomes, (dispatch w.handlers event (w.tick s)).1 = .ok outcomes) := by
  rw [handleRecord_dispatched hparse] at h
  obtain ⟨hv, hs⟩ := Prod.mk.inj h
  refine ⟨hs.symm, ?_⟩
  rw [← Except.ok.inj hv]
  cases (dispatch w.handlers event (w.tick s)).1 with
  | ok outcomes => simp [raised]
  | error exc => simp [raised]

/-- **No silent loss.** From any world `before`, what a dispatch of the event applies
is a prefix of the event's plan; and a record of a batch whose dispatch starts there
is not reported if and only if the listing is settled and every step of the plan
succeeded. -/
theorem lambdaHandler_noSilentLoss (app : App F D) {out : Outside F} (hwf : WellFormed out)
    (openLog : Py L (Option (EventsRepo L))) (event : EventMessage F D) (before : World F) :
    ∃ done, (worldAfter (app.worker out) event before).applied = before.applied ++ done ∧
      done <+: plan app.cfg out before event ∧
      ∀ {pre post : List SqsRecord} {record : SqsRecord} {s s' : World F} {l l' : L}
        {failures : List PyStr}, (app.worker out).parse record = .ok event →
        (∀ other ∈ pre ++ post, other.id ≠ record.id) →
        before = worldBefore (app.worker out) pre s →
        ((app.worker out).withLog openLog).lambdaHandler (pre ++ record :: post) (s, l) =
          (.ok failures, (s', l')) →
        s' = ((app.worker out).handleRecords none post
          (worldAfter (app.worker out) event before)).2 ∧
        (record.id ∉ failures ↔
          ListingSettled app.cfg out before event ∧ done = plan app.cfg out before event) := by
  have hdisp := dispatch_dispatches app.cfg app.rt hwf event before
  refine ⟨reachedSteps app.cfg out before event, hdisp.applied,
    reachedSteps_prefix_plan event before, ?_⟩
  intro pre post record s s' l l' failures hparse hid hbefore hrun
  -- an invocation that returned had its log open, so it is the loop without one
  have hbatch : (app.worker out).handleRecords none (pre ++ record :: post) s =
      (.ok failures, s') := by
    rcases lambdaHandler_withLog (app.worker out) openLog (pre ++ record :: post) s l with
      ⟨l1, h⟩ | ⟨exc, l1, h⟩
    · rw [hrun] at h
      obtain ⟨hf, hs⟩ := Prod.mk.inj h
      exact Prod.ext hf.symm (Prod.mk.inj hs).1.symm
    · rw [hrun] at h
      cases h
  obtain ⟨verdict, s2, rest, hrec, hpost, hmem⟩ := mem_failures_iff hid hbatch
  obtain ⟨hs2, hverdict⟩ := verdict_none_iff hparse hrec
  have hstart : (app.worker out).tick ((app.worker out).handleRecords none pre s).2 = before :=
    hbefore.symm
  rw [hstart] at hs2 hverdict
  refine ⟨?_, ?_⟩
  · have hafter : worldAfter (app.worker out) event before = s2 := hs2.symm
    rw [hafter, hpost]
  · rw [hmem, hverdict]
    exact hdisp.returns

/-! ## A credited event, end to end -/

/-- A worker with the leaderboard enabled. -/
def plainApp : App Score Stamp where
  rt := plainRuntime
  pydantic := strictPydantic
  cfg := ⟨true⟩
  strErrors _ := py "[]"
  repr _ := py "Exception()"

/-- A synthetic XP award of ten. -/
def awardRecord : SqsRecord where
  messageId := some (py "m1")
  body := some (py ("\x7b\"type\": \"xp_awarded\", \"user_id\": \"u1\", \"amount\": 10, " ++
    "\"source\": \"manual\", \"learning_language_id\": \"es\"\x7d"))

/-- Its event. -/
def award : EventMessage Score Stamp :=
  .xpAwarded
    { userId := py "u1", amount := 10, source := .manual, learningLanguageId := some (py "es")
      leaderboardOptIn := true, amount_ge := by decide }

/-- One active quest that counts XP. -/
def oneQuest : Json Score :=
  .dict [(py "items", .list [.dict [(py "id", .str (py "q1")), (py "status", .str (py "active")),
    (py "progress", .dict [(py "unit", .str (py "XP")), (py "current", .int 3)])]])]

/-- Services that answer every call but those numbered in `failing`, at noon. -/
def servicesFailing (failing : List Nat) : Outside Score where
  clock _ := .noon
  answer n c :=
    if n ∈ failing then .error .TransportError
    else
      match c with
      | .listQuests _ => .ok oneQuest
      | .step _ => .ok (.dict [])

theorem servicesFailing_wellFormed (failing : List Nat) : WellFormed (servicesFailing failing) where
  addXp n _ _ _ _ j h := by
    simp only [servicesFailing] at h
    split at h
    · cases h
    · exact ⟨[], (Except.ok.inj h).symm⟩
  listQuests n _ j h := by
    simp only [servicesFailing] at h
    split at h
    · cases h
    · rw [← Except.ok.inj h]
      refine ⟨_, rfl, Or.inr (Or.inr ⟨_, rfl, ?_⟩)⟩
      intro q hq
      obtain rfl := List.mem_singleton.mp hq
      exact ⟨_, rfl, rfl, Or.inr (Or.inr ⟨_, rfl, Or.inr (Or.inr ⟨3, rfl⟩)⟩)⟩
  bumpProgress n _ _ _ j h := by
    simp only [servicesFailing] at h
    split at h
    · cases h
    · exact ⟨[], (Except.ok.inj h).symm, Or.inl rfl⟩

/-- A run's end, from what it returned. -/
theorem run_eq {α β γ : Type} {r : α × β × γ} {a : α} (h : r.1 = a) : r = (a, (r.2.1, r.2.2)) := by
  rw [← h]

/-- The award, with every step succeeding and no event log: it is not reported, so the
whole plan was applied. -/
theorem lambdaHandler_noSilentLoss_award :
    (worldAfter (plainApp.worker (servicesFailing [])) award
        (worldBefore (plainApp.worker (servicesFailing [])) [] World.start)).applied =
      plan plainApp.cfg (servicesFailing [])
        (worldBefore (plainApp.worker (servicesFailing [])) [] World.start) award := by
  have hparse : (plainApp.worker (servicesFailing [])).parse awardRecord =
      .ok award := by decide +kernel
  have hfailures : (((plainApp.worker (servicesFailing [])).withLog
      (pure none : Py Unit (Option (EventsRepo Unit)))).lambdaHandler
        ([] ++ awardRecord :: []) (World.start, ())).1 = .ok [] := by decide +kernel
  obtain ⟨done, happlied, -, hiff⟩ := lambdaHandler_noSilentLoss plainApp
    (servicesFailing_wellFormed []) (pure none : Py Unit (Option (EventsRepo Unit)))
    award (worldBefore (plainApp.worker (servicesFailing [])) [] World.start)
  have hmem := (@hiff [] [] awardRecord _ _ _ _ _ hparse (by simp) rfl (run_eq hfailures)).2
  have hdone := (hmem.mp (by simp)).2
  rw [happlied, hdone]
  have hnone : (worldBefore (plainApp.worker (servicesFailing [])) [] World.start).applied = [] :=
    rfl
  rw [hnone, List.nil_append]

end LingoAsync.Handlers
