import LingoAsync.Handler.Deliveries
import LingoAsync.Handlers.ExactlyOnce
import LingoAsync.Leaderboard.Totals

/-!
# The two leaderboards in step

A user's weekly items in a language and the monthly ones hold the same XP as long
as every event is posted to both (`InStep`). `update_leaderboard` posts to the
week first and to the month after, and a failure of the second leaves the first
in place: `HalfWritten`. The message is then reported and comes again, which posts
to both once more and so keeps the difference.

No part of a handler but the leaderboard's touches the table: `Action.Keeps` is
that they leave its postings alone, however their own calls are answered. So a
record takes the leaderboards out of step exactly if it is written half
(`inStep_recordStep_iff`), and a run stays in step exactly if none of its
deliveries is (`inStep_iff`).
-/

namespace LingoAsync.Handlers

open LingoAsync.Text LingoAsync.Contracts LingoAsync.Calendar LingoAsync.Handler LingoAsync.Db
open LingoAsync.Leaderboard LingoAsync.Ledger LingoAsync.Quests LingoAsync.Action

variable {F D L : Type}

/-! ## What the table is kept from -/

/-- What the steps that succeeded come to, by the steps that count for `g`. -/
def made {β : Type} (g : Step F → Option β) (w : World F) : List β := w.applied.filterMap g

/-- The postings made so far. -/
def boardPostings (w : World F) : List (Posting Key Int) := w.applied.filterMap posting

section Made

variable {β : Type} {g : Step F → Option β}

/-- A step that does not count adds nothing. -/
theorem keeps_perform (out : Outside F) {step : Step F} (h : g step = none) :
    Keeps (made g) (perform out step) := by
  intro w
  cases hanswer : out.answer w.calls (.step step) with
  | ok j =>
    rw [perform_ok hanswer, made, List.filterMap_append, List.filterMap_cons, h,
      List.filterMap_nil, List.append_nil]
    rfl
  | error exc =>
    rw [perform_error hanswer]
    rfl

variable [PyFloat F] (rt : Runtime) (out : Outside F)

/-- The quests add nothing but bumps. -/
theorem keeps_questEval (hbump : ∀ questId userId delta, g (.bumpProgress questId userId delta) =
    none) (event : EventMessage F D) (f : Json F → Outcomes F) :
    Keeps (made g) ((questEval rt event >>= fun quests => pure (f quests)).run (outside out)) := by
  have hmakes : (questEval rt event).Makes fun r => Keeps (made g) (outside out r) :=
    questEval_makes rt event (fun _ => rfl) (fun _ => rfl) (fun _ => rfl)
      fun _ _ => keeps_perform out (hbump _ _ _)
  rw [Program.run_bind]
  exact keeps_bind (hmakes.run_keeps fun _ h => h) fun _ => keeps_pure _

end Made

theorem posting_bump (questId : Json F) (userId : PyStr) (delta : Int) :
    posting (.bumpProgress questId userId delta) = none := rfl

/-! ## What an award posts -/

section Award

variable [PyFloat F] (cfg : Settings) (rt : Runtime) (out : Outside F)

/-- The credit that comes before the leaderboard is not called for, or is answered with
an object. -/
def CreditDone (m : XpAwardedMessage) (w : World F) : Prop :=
  ∀ step ∈ creditPlan (F := F) m, ∃ kvs, out.answer w.calls (.step step) = .ok (.dict kvs)

/-- The weekly posting goes through and the monthly one does not. -/
structure HalfWritten (m : XpAwardedMessage) (w : World F) : Prop where
  enabled : cfg.LEADERBOARD_ENABLED = true
  counts : Counts m
  credited : CreditDone out m w
  weekly : out.succeeds (w.calls + (creditPlan (F := F) m).length)
    (addXpStep (weeklyBucket (eventLang m) (out.clock w.readings)) m.userId m.amount) = true
  monthly : out.succeeds (w.calls + (creditPlan (F := F) m).length + 1)
    (addXpStep (monthlyBucket (eventLang m) (out.clock w.readings)) m.userId m.amount) = false

omit [PyFloat F] in
/-- The credit: done, and then it was the plan's; or raising. -/
theorem creditXp_cases (m : XpAwardedMessage) (w : World F) :
    (CreditDone out m w ∧ ∃ credited w', (creditXp m).run (outside out) w = (.ok credited, w') ∧
      w'.calls = w.calls + (creditPlan (F := F) m).length ∧ w'.readings = w.readings ∧
      w'.applied = w.applied ++ creditPlan m) ∨
    (¬ CreditDone out m w ∧ ∃ exc w', (creditXp m).run (outside out) w = (.error exc, w') ∧
      boardPostings w' = boardPostings w) := by
  have hsource : m.source ∉ PRODUCER_ALREADY_CREDITED ↔ m.source ≠ .lesson := by
    simp [PRODUCER_ALREADY_CREDITED]
  by_cases h : m.source ∉ PRODUCER_ALREADY_CREDITED ∧ m.amount > 0
  · have hplan : creditPlan (F := F) m =
        [.addXp m.userId m.amount m.learningLanguageId m.leaderboardOptIn] :=
      if_pos ⟨hsource.mp h.1, h.2⟩
    have hcredit : ∀ r w', perform out
        (.addXp m.userId m.amount m.learningLanguageId m.leaderboardOptIn) w = (.ok r, w') →
        (creditXp m).run (outside out) w = (pyGet r (py "new_xp") >>= fun newXp =>
          pure [outcome "user_xp" [pyDict [("user_id", .str m.userId),
            ("amount_added", .int m.amount), ("new_xp", newXp),
            ("source", .str m.source.literal)]]]).run (outside out) w' := by
      intro r w' hstep
      rw [← Prog.run_perform] at hstep
      rw [creditXp, if_pos h]
      exact Program.run_bind_ok hstep _
    have hkeeps := keeps_perform (F := F) out (rfl : posting
      (.addXp m.userId m.amount m.learningLanguageId m.leaderboardOptIn) = none) w
    rw [CreditDone, hplan, List.forall_mem_singleton]
    cases hanswer : out.answer w.calls
        (.step (.addXp m.userId m.amount m.learningLanguageId m.leaderboardOptIn)) with
    | error exc =>
      right
      rw [perform_error hanswer] at hkeeps
      refine ⟨fun hyp => ?_, exc, _, ?_, hkeeps⟩
      · obtain ⟨kvs, hkvs⟩ := hyp
        cases hkvs
      · have hstep := perform_error hanswer
        rw [← Prog.run_perform] at hstep
        rw [creditXp, if_pos h]
        exact Program.run_bind_error hstep _
    | ok resp =>
      have hrest := hcredit _ _ (perform_ok hanswer)
      rw [perform_ok hanswer] at hkeeps
      cases resp with
      | dict kvs =>
        left
        exact ⟨⟨kvs, rfl⟩, _, _, hrest, rfl, rfl, rfl⟩
      | _ =>
        -- `resp.get` raises on anything but an object, and the credit stays applied
        right
        refine ⟨fun hyp => ?_, _, _, hrest, hkeeps⟩
        obtain ⟨kvs, hkvs⟩ := hyp
        cases hkvs
  · left
    have hplan : creditPlan (F := F) m = [] := if_neg fun hc => h ⟨hsource.mpr hc.1, hc.2⟩
    rw [CreditDone, hplan]
    refine ⟨List.forall_mem_nil _, [], w, ?_, rfl, rfl, (List.append_nil _).symm⟩
    rw [creditXp, if_neg h]
    rfl

omit [PyFloat F] in
/-- The credit posts nothing. -/
theorem filterMap_creditPlan (m : XpAwardedMessage) :
    (creditPlan m : List (Step F)).filterMap posting = [] := by
  unfold creditPlan
  split <;> rfl

/-- **What an award posts**: to the week alone if it is written half, and otherwise to both
or to neither. -/
theorem boardPostings_xpAwarded (D : Type) (m : XpAwardedMessage) (w : World F) :
    (HalfWritten cfg out m w ∧ boardPostings ((xpAwarded D cfg rt m).run (outside out) w).2 =
      boardPostings w ++ [post .weekly (out.clock w.readings) m]) ∨
    (¬ HalfWritten cfg out m w ∧
      (boardPostings ((xpAwarded D cfg rt m).run (outside out) w).2 = boardPostings w ∨
      boardPostings ((xpAwarded D cfg rt m).run (outside out) w).2 = boardPostings w ++
        [post .weekly (out.clock w.readings) m, post .monthly (out.clock w.readings) m])) := by
  rcases creditXp_cases out m w with
    ⟨hdone, credited, w1, hcredit, hcalls, hreadings, happlied⟩ | ⟨hno, exc, w1, hcredit, hkept⟩
  · have hkept : boardPostings w1 = boardPostings w := by
      rw [boardPostings, happlied, List.filterMap_append, filterMap_creditPlan, List.append_nil]
      rfl
    -- what comes after the leaderboard posts nothing, so its plan is what counts
    have hperforms : Performs out.tape ((leaderboardOutcome cfg m).run (outside out)) w1
        (leaderboardPlan cfg (out.clock w1.readings) m) := leaderboardOutcome_performs m w1
    have hend : boardPostings ((xpAwarded D cfg rt m).run (outside out) w).2 =
        boardPostings ((leaderboardOutcome cfg m).run (outside out) w1).2 := by
      unfold xpAwarded
      rw [Program.run_bind_ok hcredit]
      cases hboard : (leaderboardOutcome cfg m).run (outside out) w1 with
      | mk r w2 =>
        cases r with
        | error exc => rw [Program.run_bind_error hboard]
        | ok board =>
          rw [Program.run_bind_ok hboard]
          exact keeps_questEval rt out posting_bump (.xpAwarded m : EventMessage F D) _ w2
    have hledger : boardPostings ((leaderboardOutcome cfg m).run (outside out) w1).2 =
        boardPostings w ++
        (out.tape.reached w1.calls (leaderboardPlan cfg (out.clock w1.readings) m)).filterMap
          posting := by
      rw [← hkept]
      exact (congrArg (List.filterMap posting) hperforms.ledger).trans List.filterMap_append
    rw [leaderboardPlan_eq, hcalls, hreadings] at hledger
    rw [hend, hledger]
    by_cases henabled : cfg.LEADERBOARD_ENABLED = true
    · by_cases hcounts : Counts m
      · rw [if_pos henabled, if_pos hcounts, boardSteps]
        cases hweekly : out.succeeds (w.calls + (creditPlan (F := F) m).length)
            (addXpStep (weeklyBucket (eventLang m) (out.clock w.readings)) m.userId m.amount) with
        | false =>
          right
          refine ⟨fun h => (by rw [h.weekly] at hweekly; cases hweekly), .inl ?_⟩
          rw [out.tape.reached_cons_fail hweekly]
          exact List.append_nil _
        | true =>
          rw [out.tape.reached_cons_ok hweekly]
          cases hmonthly : out.succeeds (w.calls + (creditPlan (F := F) m).length + 1)
              (addXpStep (monthlyBucket (eventLang m) (out.clock w.readings)) m.userId
                m.amount) with
          | false =>
            left
            refine ⟨⟨henabled, hcounts, hdone, hweekly, hmonthly⟩, ?_⟩
            rw [out.tape.reached_cons_fail hmonthly]
            rfl
          | true =>
            right
            refine ⟨fun h => (by rw [h.monthly] at hmonthly; cases hmonthly), .inr ?_⟩
            rw [out.tape.reached_cons_ok hmonthly]
            rfl
      · right
        rw [if_pos henabled, if_neg hcounts]
        exact ⟨fun h => hcounts h.counts, .inl (List.append_nil _)⟩
    · right
      rw [if_neg henabled]
      exact ⟨fun h => henabled h.enabled, .inl (List.append_nil _)⟩
  · right
    refine ⟨fun h => hno h.credited, .inl ?_⟩
    unfold xpAwarded
    rw [Program.run_bind_error hcredit]
    exact hkept

end Award

/-! ## In step -/

/-- The key is of the user's item in a bucket of the language. -/
def InBucket (scope : Scope) (lang userId : PyStr) (key : Key) : Prop :=
  ∃ t, key = itemKey (bucket scope lang t).1 userId

/-- The XP a user has in a language, over all weeks or over all months. -/
noncomputable def scopeXp (table : Books Key Int) (scope : Scope) (lang userId : PyStr) : Int :=
  open Classical in table.sumWhere (InBucket scope lang userId)

/-- For every user and language the weeks hold as much as the months. -/
def InStep (table : Books Key Int) : Prop :=
  ∀ lang userId, scopeXp table .weekly lang userId = scopeXp table .monthly lang userId

theorem inBucket_post (scope scope' : Scope) (lang userId : PyStr) (now : Instant)
    (m : XpAwardedMessage) : InBucket scope lang userId (post scope' now m).key ↔
      scope' = scope ∧ eventLang m = lang ∧ m.userId = userId := by
  constructor
  · intro h
    obtain ⟨t, ht⟩ := h
    obtain ⟨hlang, hperiod, huser⟩ := (itemKey_eq_iff _ _ _ _ _ _ _ _).mp ht
    exact ⟨scope_of_periodOf hperiod, hlang, huser⟩
  · intro h
    obtain ⟨rfl, rfl, rfl⟩ := h
    exact ⟨now, rfl⟩

/-- A posting adds to the sum of its scope, language and user. -/
theorem scopeXp_post (table : Books Key Int) (scope scope' : Scope) (lang userId : PyStr)
    (now : Instant) (m : XpAwardedMessage) :
    scopeXp (table.post (post scope' now m)) scope lang userId = scopeXp table scope lang userId +
      if scope' = scope ∧ eventLang m = lang ∧ m.userId = userId then m.amount else 0 := by
  classical
  unfold scopeXp
  rw [sumWhere_post]
  congr 1
  exact if_congr (inBucket_post scope scope' lang userId now m) rfl rfl

/-- Posting to both keeps the sums in step, -/
theorem inStep_both {table : Books Key Int} (h : InStep table) (now : Instant)
    (m : XpAwardedMessage) :
    InStep ((table.post (post .weekly now m)).post (post .monthly now m)) := by
  intro lang userId
  rw [scopeXp_post, scopeXp_post, scopeXp_post, scopeXp_post, h lang userId]
  simp

/-- and posting to the week alone does not. -/
theorem not_inStep_weekly {table : Books Key Int} (h : InStep table) (now : Instant)
    {m : XpAwardedMessage} (hamount : 0 < m.amount) :
    ¬ InStep (table.post (post .weekly now m)) := by
  intro hstep
  have hsums := hstep (eventLang m) m.userId
  rw [scopeXp_post, scopeXp_post, h (eventLang m) m.userId] at hsums
  simp at hsums
  omega

theorem inStep_empty : InStep (leaderboard (F := F) []) := fun _ _ => rfl

/-! ## Records and runs -/

section Run

variable [PyFloat F] (app : App F D) (out : Outside F)

/-- The record is an award that is written half, if it is handled from `s`. -/
def WritesHalf (s : World F) (record : SqsRecord) : Prop :=
  ∃ m, (app.worker out).parse record = .ok (.xpAwarded m) ∧
    HalfWritten app.cfg out m ((app.worker out).tick s)

variable {app out}

omit [PyFloat F] in
theorem leaderboard_congr {w w' : World F} (h : boardPostings w' = boardPostings w) :
    leaderboard w'.applied = leaderboard w.applied :=
  congrArg (∅ : Books Key Int).postAll h

omit [PyFloat F] in
theorem leaderboard_append {w w' : World F} {ps : List (Posting Key Int)}
    (h : boardPostings w' = boardPostings w ++ ps) :
    leaderboard w'.applied = (leaderboard w.applied).postAll ps := by
  have h' : w'.applied.filterMap posting = w.applied.filterMap posting ++ ps := h
  rw [leaderboard, leaderboard, h', postAll_append]

/-- A record that is no award posts nothing. -/
theorem boardPostings_other {event : EventMessage F D} (h : ∀ m, event ≠ .xpAwarded m)
    (w : World F) :
    boardPostings (dispatch (app.worker out).handlers event w).2 = boardPostings w := by
  have hquests : ∀ event' : EventMessage F D,
      Keeps boardPostings ((questsOnly app.rt event').run (outside out)) :=
    fun event' => keeps_questEval app.rt out posting_bump event' _
  cases event with
  | xpAwarded m => exact absurd rfl (h m)
  | lessonCompleted m => exact hquests (.lessonCompleted m) w
  | reviewCompleted m => exact hquests (.reviewCompleted m) w
  | friendAdded m => exact hquests (.friendAdded m) w
  | adWatched m => rfl
  | subscriptionChanged m => rfl

/-- **One record** keeps the leaderboards in step exactly if it is not written half. -/
theorem inStep_recordStep_iff {s : World F} (record : SqsRecord)
    (h : InStep (leaderboard s.applied)) :
    InStep (leaderboard ((app.worker out).recordStep s record).applied) ↔
      ¬ WritesHalf app out s record := by
  rw [Worker.recordStep, handleRecord_none]
  have htick : ((app.worker out).tick s).applied = s.applied := rfl
  cases hparse : (app.worker out).parse record with
  | error exc =>
    have hno : ¬ WritesHalf app out s record := by
      intro hyp
      obtain ⟨m, hm, _⟩ := hyp
      rw [hparse] at hm
      cases hm
    cases exc <;> exact iff_of_true h hno
  | ok event =>
    by_cases haward : ∃ m, event = .xpAwarded m
    · obtain ⟨m, rfl⟩ := haward
      have hhalf : WritesHalf app out s record ↔
          HalfWritten app.cfg out m ((app.worker out).tick s) := by
        constructor
        · intro hyp
          obtain ⟨m', hm', hhalf⟩ := hyp
          rw [hparse] at hm'
          cases hm'
          exact hhalf
        · intro hhalf
          exact ⟨m, hparse, hhalf⟩
      rw [hhalf]
      rcases boardPostings_xpAwarded app.cfg app.rt out D m ((app.worker out).tick s) with
        ⟨hyes, hpost⟩ | ⟨hno, hpost | hpost⟩
      · refine iff_of_false ?_ (fun hno => hno hyes)
        show ¬ InStep (leaderboard ((xpAwarded D app.cfg app.rt m).run (outside out) _).2.applied)
        rw [leaderboard_append hpost]
        exact not_inStep_weekly h _ hyes.counts.1
      · refine iff_of_true ?_ hno
        show InStep (leaderboard ((xpAwarded D app.cfg app.rt m).run (outside out) _).2.applied)
        rw [leaderboard_congr hpost]
        exact h
      · refine iff_of_true ?_ hno
        show InStep (leaderboard ((xpAwarded D app.cfg app.rt m).run (outside out) _).2.applied)
        rw [leaderboard_append hpost]
        exact inStep_both h _ m
    · have hother : ∀ m, event ≠ .xpAwarded m := fun m he => haward ⟨m, he⟩
      have hno : ¬ WritesHalf app out s record := by
        intro hyp
        obtain ⟨m, hm, _⟩ := hyp
        rw [hparse] at hm
        exact hother m (Except.ok.inj hm)
      refine iff_of_true ?_ hno
      dsimp only
      rw [leaderboard_congr (boardPostings_other hother _)]
      exact h

/-- Deliveries one after the other, the first of them from a state in step. -/
theorem inStep_follow_iff {s s' : World F} {ds : List (Delivery (World F × L))}
    (hs : InStep (leaderboard s.applied)) (h : Follow (app.worker out).recordStep s ds s') :
    (∀ d ∈ ds, InStep (leaderboard d.before.1.applied) ∧ InStep (leaderboard d.after.1.applied)) ↔
      ∀ d ∈ ds, ¬ WritesHalf app out d.before.1 d.record :=
  follow_inv_iff (P := fun s : World F => InStep (leaderboard s.applied))
    (fun _ record h => inStep_recordStep_iff record h) hs h

/-- A run whose first record is written half is out of step from there on. -/
theorem outOfStep_of_writesHalf {openLog : Py L (Option (EventsRepo L))}
    {schedule : List (List SqsRecord)} {l : L} {d : Delivery (World F × L)}
    {ds : List (Delivery (World F × L))}
    (hrun : ((app.worker out).withLog openLog).deliveries schedule (World.start, l) = d :: ds)
    (hhalf : WritesHalf app out World.start d.record) :
    ¬ ∀ d' ∈ d :: ds,
      InStep (leaderboard d'.before.1.applied) ∧ InStep (leaderboard d'.after.1.applied) := by
  obtain ⟨s', hfollow⟩ := deliveries_follow (app.worker out) openLog schedule World.start l
  rw [hrun] at hfollow
  intro hall
  have hno := (inStep_follow_iff inStep_empty hfollow).mp hall d List.mem_cons_self
  rw [hfollow.1] at hno
  exact hno hhalf

variable (app out)

/-- **The leaderboards stay in step** throughout a run, around every record of it, exactly if
no delivery of the run is written half. -/
theorem inStep_iff (openLog : Py L (Option (EventsRepo L))) (schedule : List (List SqsRecord))
    (l : L) :
    (∀ d ∈ ((app.worker out).withLog openLog).deliveries schedule (World.start, l),
      InStep (leaderboard d.before.1.applied) ∧ InStep (leaderboard d.after.1.applied)) ↔
    ∀ d ∈ ((app.worker out).withLog openLog).deliveries schedule (World.start, l),
      ¬ WritesHalf app out d.before.1 d.record := by
  obtain ⟨s', hfollow⟩ := deliveries_follow (app.worker out) openLog schedule World.start l
  exact inStep_follow_iff inStep_empty hfollow

end Run

/-! ## The monthly update fails -/

/-- The award is written half when the call after the credit and the weekly update fails. -/
theorem award_writesHalf : WritesHalf plainApp (servicesFailing [2]) World.start awardRecord := by
  have hparse : (plainApp.worker (servicesFailing [2])).parse awardRecord = .ok award := by
    decide +kernel
  refine ⟨_, hparse, ⟨rfl, by decide +kernel, ?_, by decide +kernel, by decide +kernel⟩⟩
  intro step hstep
  obtain rfl := List.mem_singleton.mp hstep
  exact ⟨[], rfl⟩

/-- The award's user is ten XP ahead in the week, though the message comes again and both
updates succeed then. -/
theorem award_outOfStep : ¬ (∀ d ∈ awardRun [2],
    InStep (leaderboard d.before.1.applied) ∧ InStep (leaderboard d.after.1.applied)) := by
  have hrecords : (awardRun [2]).map (fun d => (d.record, d.acked)) =
      [(awardRecord, false), (awardRecord, true)] := by decide +kernel
  obtain ⟨first, last, hrun, hfirst, _, _⟩ := awardRun_pair [2] hrecords
  rw [hrun]
  exact outOfStep_of_writesHalf hrun (hfirst ▸ award_writesHalf)

end LingoAsync.Handlers
