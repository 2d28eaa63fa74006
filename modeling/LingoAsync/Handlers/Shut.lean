import LingoAsync.Handlers.Journal

/-!
# Handling messages while core gives nothing

No call into core returns, for whatever reason (`Shut`): the breaker refuses it, or core refuses the
token. Then no handler returns whose event needs core, and so a batch loses no message of which that
can be said: it is reported, and comes again (`batch_shut`). What handlers ask for besides, updates
of the leaderboard among them, goes on as it did.
-/

namespace LingoAsync.Handlers

open LingoAsync.Text LingoAsync.Contracts LingoAsync.Calendar LingoAsync.Handler
open LingoAsync.Http LingoAsync.Machine LingoAsync.Action

variable {F D T : Type} [Clock T] {stack : Stack F T}

/-- A call into core made now ends in an exception, and not in the one that unmounts the quests. -/
def Shut (stack : Stack F T) (s : LiveState F T) : Prop :=
  ∀ c label, coreLabel c = some label →
    ∃ exc, (stack.call c s).1 = .error exc ∧ exc ≠ .HTTPStatusError 404

/-! ## The handlers -/

/-- A call does not return. -/
theorem run_perform_shut {step : Step F} {label : PyStr}
    (hlabel : coreLabel (.step step) = some label) {s s' : LiveState F T} {j : Json F}
    (hshut : Shut stack s) : (Prog.perform step).run stack.live s ≠ (.ok j, s') := by
  intro h
  have hcall : stack.call (.step step) s = (.ok j, s') := by
    rw [← h]
    exact congrFun (Program.run_perform stack.live (.call (.step step))).symm s
  obtain ⟨exc, hexc, -⟩ := hshut _ label hlabel
  rw [hcall] at hexc
  cases hexc

/-- The credit is not given, -/
theorem creditXp_shut {m : XpAwardedMessage} (hm : m.source ≠ .lesson ∧ 0 < m.amount)
    {s s' : LiveState F T} {credited : Outcomes F} (hshut : Shut stack s) :
    (creditXp m).run stack.live s ≠ (.ok credited, s') := by
  intro h
  have hsource : m.source ∉ PRODUCER_ALREADY_CREDITED := by
    simpa [PRODUCER_ALREADY_CREDITED] using hm.1
  rw [creditXp, if_pos ⟨hsource, hm.2⟩] at h
  obtain ⟨resp, s1, hperform, -⟩ := Program.run_bind_eq_ok h
  exact run_perform_shut rfl hshut hperform

/-- No request but the latch's own changes the latch. -/
abbrev SparesLatch (r : Request F) : Prop := r ≠ .setQuestsSurfaceUnmounted

variable (stack) in
theorem keeps_latch {α : Type} {p : Prog F α} (hp : p.Makes SparesLatch) :
    Action.Keeps (fun s : LiveState F T => s.world.unmounted) (p.run stack.live) := by
  refine hp.run_keeps ?_
  intro r hr s
  cases r with
  | call c =>
    obtain ⟨e, client, updates, hcall, -⟩ := call_cases stack c s
    rw [Stack.live, hcall]
    rfl
  | setQuestsSurfaceUnmounted => exact absurd rfl hr
  | _ => rfl

variable [PyFloat F]

/-- The event calls for a callback: a credit, or a listing, which the evaluator does not ask for
again once it has found the surface unmounted. -/
def NeedsCore (unmounted : Bool) (event : EventMessage F D) : Prop :=
  (∃ m, event = .xpAwarded m ∧ m.source ≠ .lesson ∧ 0 < m.amount) ∨
    (drives event ≠ none ∧ unmounted = false)

/-- and the quests are not listed. -/
theorem evaluateQuestsFor_shut (rt : Runtime) {event : EventMessage F D} {unit : PyStr}
    {delta : Int} (hdrives : drives event = some (unit, delta)) {s s' : LiveState F T}
    {actions : List (Json F)} (hshut : Shut stack s) (hmounted : s.world.unmounted = false) :
    (Quests.evaluateQuestsFor rt event.userId event).run stack.live s ≠ (.ok actions, s') := by
  intro h
  obtain ⟨hpair, hpos⟩ := (eventUnitAndDelta_iff event unit delta).mpr hdrives
  rw [Quests.evaluateQuestsFor, hpair] at h
  dsimp only at h
  rw [if_neg (by omega), Program.run_bind, Program.run_perform] at h
  have hlatch : stack.live .questsSurfaceUnmounted s = (.ok false, s) := by rw [← hmounted]; rfl
  rw [Action.bind_ok hlatch, if_neg Bool.false_ne_true, Program.run_bind,
    Program.run_attempt] at h
  obtain ⟨listed, s1, hlisted, hrest⟩ := Action.bind_eq_ok h
  obtain ⟨exc, hexc, hother⟩ := hshut (.listQuests event.userId) _ rfl
  have hres : listed = (stack.call (.listQuests event.userId) s).1 :=
    (Except.ok.inj (Prod.mk.inj hlisted).1).symm
  rw [hres, hexc] at hrest
  dsimp only at hrest
  rw [if_neg hother] at hrest
  cases hrest

/-- The quest part of a handler does not return, -/
theorem questEval_shut (rt : Runtime) {event : EventMessage F D} (hdrives : drives event ≠ none)
    {s s' : LiveState F T} {quests : Json F} (hshut : Shut stack s)
    (hmounted : s.world.unmounted = false) :
    (questEval rt event).run stack.live s ≠ (.ok quests, s') := by
  intro h
  obtain ⟨⟨unit, delta⟩, hpair⟩ := Option.ne_none_iff_exists'.mp hdrives
  obtain ⟨actions, s1, hactions, -⟩ := Program.run_bind_eq_ok h
  exact evaluateQuestsFor_shut rt hpair hshut hmounted hactions

/-- and so no handler whose event needs core. -/
theorem dispatch_shut (app : App F D) {s s' : LiveState F T} {event : EventMessage F D}
    {outcomes : Outcomes F}
    (hshut : ∀ t, Booked stack s t → Booked stack t s' → Shut stack t)
    (h : dispatch (app.live stack).handlers event s = (.ok outcomes, s')) :
    ¬ NeedsCore s.world.unmounted event := by
  intro hneeds
  have hnow : Shut stack s := by
    have hbooked := booked_dispatch app stack event s
    rw [h] at hbooked
    exact hshut s (Booked.refl stack s) hbooked
  have hrun : (handle app.cfg app.rt event).run stack.live s = (.ok outcomes, s') := by
    rw [← dispatch_handlersOn]
    exact h
  -- an event that only drives quests
  have hsole : handle app.cfg app.rt event = questsOnly app.rt event →
      drives event ≠ none → s.world.unmounted = false → False := by
    intro hhandle hdrives hmounted
    rw [hhandle] at hrun
    obtain ⟨quests, s1, hquests, -⟩ := Program.run_bind_eq_ok hrun
    exact questEval_shut app.rt hdrives hnow hmounted hquests
  cases event with
  | xpAwarded m =>
    have hhandle : handle app.cfg app.rt (.xpAwarded m : EventMessage F D) =
        xpAwarded D app.cfg app.rt m := rfl
    rw [hhandle] at hrun
    obtain ⟨credited, s1, hcredited, hrest⟩ := Program.run_bind_eq_ok hrun
    rcases hneeds with ⟨m', hm', hcredit⟩ | ⟨hdrives, hmounted⟩
    · cases hm'
      exact creditXp_shut hcredit hnow hcredited
    · obtain ⟨leaderboard, s2, hleaderboard, hrest⟩ := Program.run_bind_eq_ok hrest
      obtain ⟨quests, s3, hquests, hrest⟩ := Program.run_bind_eq_ok hrest
      -- nothing before the quests has set the latch, and core gives nothing yet
      have hb1 := booked_run stack (creditXp m) s
      have hb2 := booked_run stack (leaderboardOutcome app.cfg m) s1
      have hb3 := booked_run stack (questEval app.rt (.xpAwarded m : EventMessage F D)) s2
      have hk1 := keeps_latch stack (creditXp_makes m (by simp)) s
      have hk2 := keeps_latch stack
        (leaderboardOutcome_makes app.cfg m (by simp) (by simp) (by simp)) s1
      rw [hcredited] at hb1 hk1
      rw [hleaderboard] at hb2 hk2
      rw [hquests] at hb3
      obtain rfl : s3 = s' := (Prod.mk.inj hrest).2
      exact questEval_shut app.rt hdrives (hshut s2 (hb1.trans hb2) hb3)
        (hk2.trans (hk1.trans hmounted)) hquests
  | lessonCompleted m =>
    rcases hneeds with ⟨m', hm', -⟩ | ⟨hdrives, hmounted⟩
    · cases hm'
    · exact hsole rfl hdrives hmounted
  | reviewCompleted m =>
    rcases hneeds with ⟨m', hm', -⟩ | ⟨hdrives, hmounted⟩
    · cases hm'
    · exact hsole rfl hdrives hmounted
  | friendAdded m =>
    rcases hneeds with ⟨m', hm', -⟩ | ⟨hdrives, hmounted⟩
    · cases hm'
    · exact hsole rfl hdrives hmounted
  | adWatched m =>
    rcases hneeds with ⟨m', hm', -⟩ | ⟨hdrives, -⟩
    · cases hm'
    · exact hdrives rfl
  | subscriptionChanged m =>
    rcases hneeds with ⟨m', hm', -⟩ | ⟨hdrives, -⟩
    · cases hm'
    · exact hdrives rfl

/-! ## A batch -/

/-- **A batch while core gives nothing**: every message whose event needs core is reported. -/
theorem batch_shut (app : App F D) (stack : Stack F T) (s : LiveState F T) (batch : List SqsRecord)
    (hshut : ∀ t, Booked stack s t → Booked stack t ((app.live stack).invoke s batch) →
      Shut stack t)
    {failures : List PyStr} (hfailures : ((app.live stack).lambdaHandler batch s).1 = .ok failures)
    {pre post : List SqsRecord} {record : SqsRecord} {event : EventMessage F D}
    (hbatch : batch = pre ++ record :: post) (hparse : (app.live stack).parse record = .ok event)
    (hneeds : NeedsCore ((app.live stack).handleRecords none pre s).2.world.unmounted event) :
    record.id ∈ failures := by
  have hrun : (app.live stack).handleRecords none (pre ++ record :: post) s =
      (.ok failures, (app.live stack).invoke s batch) := by
    rw [← hbatch]
    exact Prod.ext hfailures rfl
  obtain ⟨first, verdict, s2, rest, hpre, hrec, hpost, rfl⟩ := handleRecords_split hrun
  obtain ⟨hs2, hverdict⟩ := verdict_none_iff hparse hrec
  have hb1 : Booked stack s
      ((app.live stack).tick ((app.live stack).handleRecords none pre s).2) :=
    (booked_handleRecords app stack pre s).trans (booked_tick app stack _)
  have hb2 := booked_handleRecords app stack post s2
  rw [hpost] at hb2
  have hreported : verdict = some record.id := by
    rcases handleRecord_verdict hrec with hnone | hsome
    · obtain ⟨outcomes, houtcomes⟩ := hverdict.mp hnone
      -- the dispatch starts and ends within the batch
      have hidle := dispatch_shut app (fun t ht ht' => hshut t (hb1.trans ht) (ht'.trans hb2))
        (Prod.ext houtcomes hs2.symm)
      exact absurd hneeds hidle
    · exact hsome
  rw [hreported]
  exact List.mem_append_right _ (List.mem_append_left _ List.mem_cons_self)

end LingoAsync.Handlers
