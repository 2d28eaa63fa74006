import LingoAsync.Handlers.Journal
import LingoAsync.Yields

/-!
# What the outcomes say was done

A handler that returns hands over its outcomes, and the event log keeps them as JSON. They are the
worker's only account of what it did for an event: which credit, which buckets, which quests.
`notes` reads that account back out of the JSON. It lists the steps that the handler applied,
each of them and no others, in the order they were applied (`handle_audited`), whatever the
services answer and over whatever stack.

So a row of the log that says `ok` tells exactly what its last delivery did; and one that says
`failed` tells nothing, however far the delivery got (`log_audited`).
-/

namespace LingoAsync.Handlers

open LingoAsync.Text LingoAsync.Contracts LingoAsync.Calendar LingoAsync.Handler
open LingoAsync.Db LingoAsync.Action LingoAsync.Machine LingoAsync.Http

variable {F D T σ : Type} [Clock T]

/-! ## Reading the outcomes -/

/-- What the outcomes note of a step. -/
inductive Note (F : Type) where
  | credit (userId : PyStr) (amount : Int)
  | board (bucket : PyStr) (amount : Int)
  | bump (questId : Json F) (delta : Int)

/-- The note of a step. A bucket's key is the bucket behind `BUCKET#`. -/
def noteOf : Step F → Note F
  | .addXp userId amount _ _ => .credit userId amount
  | .updateItem pk _ amount _ => .board (pk.drop 7) amount
  | .bumpProgress questId _ delta => .bump questId delta

/-- `j[key]`, if `j` is a dict that has it. -/
def field (key : String) : Json F → Option (Json F)
  | .dict kvs => Json.lookup (py key) kvs
  | _ => none

/-- An action of the outcome `user_xp`. -/
def creditNote (action : Json F) : Option (Note F) :=
  match field "user_id" action, field "amount_added" action with
  | some (.str userId), some (.int amount) => some (.credit userId amount)
  | _, _ => none

/-- An action of the outcome `leaderboard`; the one that says it is disabled notes nothing. -/
def boardNote (action : Json F) : Option (Note F) :=
  match field "bucket" action, field "xp_added" action with
  | some (.str bucket), some (.int amount) => some (.board bucket amount)
  | _, _ => none

/-- An action of the outcome `quest_eval`. -/
def bumpNote (action : Json F) : Option (Note F) :=
  match field "quest_id" action, field "delta" action with
  | some questId, some (.int delta) => some (.bump questId delta)
  | _, _ => none

/-- The reading of a handler's actions. -/
def actionNote (handler : PyStr) : Json F → Option (Note F) :=
  if handler = py "user_xp" then creditNote
  else if handler = py "leaderboard" then boardNote
  else if handler = py "quest_eval" then bumpNote
  else fun _ => none

def outcomeNotes (j : Json F) : List (Note F) :=
  match field "handler" j, field "actions" j with
  | some (.str handler), some (.list actions) => actions.filterMap (actionNote handler)
  | _, _ => []

/-- What the outcomes say was done. -/
def notes (outcomes : Outcomes F) : List (Note F) := outcomes.flatMap outcomeNotes

theorem notes_append (outcomes outcomes' : Outcomes F) :
    notes (outcomes ++ outcomes') = notes outcomes ++ notes outcomes' := List.flatMap_append ..

theorem py_injective : Function.Injective py := by
  intro s t h
  refine String.toList_injective (List.map_injective_iff.mpr ?_ h)
  intro c d hcd
  exact Char.toNat_inj.mp hcd

/-- A dict literal under a key. -/
theorem field_pyDict (key : String) (fields : List (String × Json F)) :
    field key (pyDict fields) = (fields.find? (·.1 = key)).map (·.2) := by
  have hkeys : (fun kv : PyStr × Json F => decide (kv.1 = py key)) ∘
      (fun f : String × Json F => (py f.1, f.2)) = fun f => decide (f.1 = key) := by
    funext f
    exact decide_eq_decide.mpr py_injective.eq_iff
  rw [pyDict, field, Json.lookup, List.find?_map, hkeys, Option.map_map]
  rfl

theorem outcomeNotes_outcome (handler : String) (actions : List (Json F)) :
    outcomeNotes (outcome handler actions) = actions.filterMap (actionNote (py handler)) := by
  simp [outcomeNotes, outcome, field_pyDict]

theorem actionNote_user_xp : actionNote (F := F) (py "user_xp") = creditNote := if_pos rfl

theorem actionNote_leaderboard : actionNote (F := F) (py "leaderboard") = boardNote := by
  simp [actionNote, py_injective.eq_iff]

theorem actionNote_quest_eval : actionNote (F := F) (py "quest_eval") = bumpNote := by
  simp [actionNote, py_injective.eq_iff]

theorem notes_leaderboard (actions : List (Json F)) :
    notes [outcome "leaderboard" actions] = actions.filterMap boardNote := by
  rw [notes, List.flatMap_singleton, outcomeNotes_outcome, actionNote_leaderboard]

theorem notes_quest_eval (actions : List (Json F)) :
    notes [outcome "quest_eval" actions] = actions.filterMap bumpNote := by
  rw [notes, List.flatMap_singleton, outcomeNotes_outcome, actionNote_quest_eval]

theorem actionNote_ad_watched : actionNote (F := F) (py "ad_watched") = fun _ => none := by
  simp [actionNote, py_injective.eq_iff]

/-- The note of an update of a bucket. -/
theorem boardNote_bucketAction (bucket : PyStr × Int) (userId : PyStr) (amount : Int)
    (scope : String) : boardNote (F := F) (Leaderboard.bucketAction bucket amount scope) =
      some (noteOf (Leaderboard.addXpStep bucket userId amount)) := by
  have hbucket : (py "BUCKET#" ++ bucket.1).drop 7 = bucket.1 := List.drop_left' (by decide)
  simp [boardNote, Leaderboard.bucketAction, field_pyDict, noteOf, Leaderboard.addXpStep, hbucket]

/-! ## The handlers -/

/-- An interpreter that puts the steps that return on a ledger, and nothing else that returns. -/
structure Posts (answer : Interpreter F σ) (ledger : σ → List (Step F)) : Prop where
  step : ∀ s, Yields ledger (answer (.call (.step s))) fun _ new => new = [s]
  others : ∀ r, (∀ s, r ≠ .call (.step s)) → Keeps ledger (answer r)
  grows : ∀ r s, ledger s <+: ledger (answer r s).2

/-- The outcomes note what was put on the ledger. -/
def Audits (outcomes : Outcomes F) (new : List (Step F)) : Prop := notes outcomes = new.map noteOf

section Parts

variable {answer : Interpreter F σ} {ledger : σ → List (Step F)} (h : Posts answer ledger)

include h

theorem Posts.perform (s : Step F) :
    Yields ledger ((Prog.perform s).run answer) fun _ new => new = [s] := by
  rw [Prog.perform, Program.run_perform]
  exact h.step s

theorem creditXp_audited (m : XpAwardedMessage) :
    Yields ledger ((creditXp m).run answer) Audits := by
  unfold creditXp
  split
  · rw [Program.run_bind]
    refine (h.perform _).bind ?_
    intro resp p hp
    subst hp
    rw [Program.run_bind]
    refine yields_after (makes_pyGet _ _).run_keeps_of_none fun newXp => yields_pure ?_
    rw [Audits, notes, List.flatMap_singleton, outcomeNotes_outcome, actionNote_user_xp]
    simp [creditNote, field_pyDict, noteOf]
  · exact yields_pure rfl

theorem updateLeaderboard_audited (m : XpAwardedMessage) :
    Yields ledger ((Leaderboard.updateLeaderboard m).run answer) fun actions new =>
      actions.filterMap boardNote = new.map noteOf := by
  have hadd : ∀ bucket, Yields ledger ((Leaderboard.addXp bucket m.userId m.amount).run answer)
      fun _ new => new = [Leaderboard.addXpStep bucket m.userId m.amount] := by
    intro bucket
    rw [Leaderboard.addXp, Program.run_bind]
    refine (h.perform _).bind ?_
    intro _ p hp
    exact yields_pure (by rw [hp, List.append_nil])
  unfold Leaderboard.updateLeaderboard
  split
  · exact yields_pure rfl
  · split
    · exact yields_pure rfl
    · split
      · exact yields_pure rfl
      · rw [Program.run_bind, Program.run_perform]
        refine yields_after (h.others .now (by simp)) fun now => ?_
        rw [Program.run_bind]
        refine (hadd _).bind ?_
        intro _ p hp
        subst hp
        rw [Program.run_bind]
        refine (hadd _).bind ?_
        intro _ q hq
        subst hq
        refine yields_pure ?_
        simp [boardNote_bucketAction _ m.userId]

theorem leaderboardOutcome_audited (cfg : Settings) (m : XpAwardedMessage) :
    Yields ledger ((leaderboardOutcome cfg m).run answer) fun j new =>
      notes [j] = new.map noteOf := by
  unfold leaderboardOutcome
  split
  · rw [Program.run_bind]
    refine (updateLeaderboard_audited h m).bind ?_
    intro actions p hp
    refine yields_pure ?_
    rw [List.append_nil, notes_leaderboard]
    exact hp
  · refine yields_pure ?_
    rw [notes_leaderboard]
    simp [boardNote, field_pyDict]

variable [PyFloat F]

theorem bumpQuest_audited (rt : Runtime) (userId unit : PyStr) (delta : Int)
    (quest progress status : Json F) :
    Yields ledger ((Quests.bumpQuest rt userId unit delta quest progress status).run answer)
      fun action new => [action].filterMap bumpNote = new.map noteOf := by
  rw [Quests.bumpQuest, Program.run_bind]
  refine yields_after (makes_pyItem _ _).run_keeps_of_none fun questId => ?_
  rw [Program.run_bind]
  refine yields_after (Quests.currentOf_makes rt _).run_keeps_of_none fun before => ?_
  rw [Program.run_bind]
  refine (h.perform _).bind ?_
  intro updated p hp
  subst hp
  rw [Program.run_bind]
  refine yields_after (makes_pyGet _ _).run_keeps_of_none fun newProgress => ?_
  rw [Program.run_bind]
  refine yields_after (Quests.currentOf_makes rt _).run_keeps_of_none fun after => yields_pure ?_
  simp [bumpNote, field_pyDict, noteOf]

theorem evaluateQuest_audited (rt : Runtime) (userId unit : PyStr) (delta : Int)
    (quest : Json F) :
    Yields ledger ((Quests.evaluateQuest rt userId unit delta quest).run answer)
      fun action new => action.toList.filterMap bumpNote = new.map noteOf := by
  rw [Quests.evaluateQuest, Program.run_bind]
  refine yields_after (makes_pyGet _ _).run_keeps_of_none fun status => ?_
  split
  · exact yields_pure rfl
  · rw [Program.run_bind]
    refine yields_after (makes_pyGet _ _).run_keeps_of_none fun progress => ?_
    rw [Program.run_bind]
    refine yields_after (makes_pyGet _ _).run_keeps_of_none fun questUnit => ?_
    split
    · exact yields_pure rfl
    · rw [Program.run_bind]
      refine (bumpQuest_audited h rt userId unit delta quest _ status).bind ?_
      intro action p hp
      refine yields_pure ?_
      rw [List.append_nil]
      exact hp

theorem evaluateListed_audited (rt : Runtime) (userId unit : PyStr) (delta : Int)
    (quests : List (Json F)) :
    Yields ledger ((Quests.evaluateListed rt userId unit delta quests).run answer)
      fun actions new => actions.filterMap bumpNote = new.map noteOf := by
  induction quests with
  | nil => exact yields_pure rfl
  | cons quest quests ih =>
    rw [Quests.evaluateListed, Program.run_bind]
    refine (evaluateQuest_audited h rt userId unit delta quest).bind ?_
    intro action p hp
    rw [Program.run_bind]
    refine ih.bind ?_
    intro actions q hq
    refine yields_pure ?_
    rw [List.append_nil, List.filterMap_append, List.map_append, hp, hq]

theorem evaluateQuestsFor_audited (rt : Runtime) (userId : PyStr) (event : EventMessage F D) :
    Yields ledger ((Quests.evaluateQuestsFor rt userId event).run answer)
      fun actions new => actions.filterMap bumpNote = new.map noteOf := by
  unfold Quests.evaluateQuestsFor
  split
  · exact yields_pure rfl
  · split
    · exact yields_pure rfl
    · rw [Program.run_bind, Program.run_perform]
      refine yields_after (h.others .questsSurfaceUnmounted (by simp)) fun unmounted => ?_
      split
      · exact yields_pure rfl
      · rw [Program.run_bind, Program.run_attempt]
        refine yields_after (keeps_attempt (h.others (.call (.listQuests userId)) (by simp))) ?_
        intro listed
        split
        · rw [Quests.evaluateListing, Program.run_bind]
          refine yields_after (makes_pyGet _ _).run_keeps_of_none fun items => ?_
          rw [Program.run_bind]
          exact yields_after (makes_pyIter _).run_keeps_of_none fun quests =>
            evaluateListed_audited h rt userId _ _ quests
        · split
          · rw [Program.run_bind, Program.run_perform]
            exact yields_after (h.others .setQuestsSurfaceUnmounted (by simp)) fun _ =>
              yields_pure rfl
          · exact yields_raise _ _

theorem questEval_audited (rt : Runtime) (event : EventMessage F D) :
    Yields ledger ((questEval rt event).run answer) fun j new =>
      notes [j] = new.map noteOf := by
  rw [questEval, Program.run_bind]
  refine (evaluateQuestsFor_audited h rt _ event).bind ?_
  intro actions p hp
  refine yields_pure ?_
  rw [List.append_nil, notes_quest_eval]
  exact hp

theorem questsOnly_audited (rt : Runtime) (event : EventMessage F D) :
    Yields ledger ((questsOnly rt event).run answer) Audits := by
  rw [questsOnly, Program.run_bind]
  refine (questEval_audited h rt event).bind ?_
  intro j p hp
  refine yields_pure ?_
  rw [List.append_nil]
  exact hp

/-- **The outcomes note every step that the handler applied, in order, and no other.** -/
theorem handle_notes (cfg : Settings) (rt : Runtime) (event : EventMessage F D) :
    Yields ledger ((handle cfg rt event).run answer) Audits := by
  cases event with
  | xpAwarded m =>
    rw [handle, xpAwarded, Program.run_bind]
    refine (creditXp_audited h m).bind ?_
    intro credited p hp
    rw [Program.run_bind]
    refine (leaderboardOutcome_audited h cfg m).bind ?_
    intro leaderboard q hq
    rw [Program.run_bind]
    refine (questEval_audited h rt _).bind ?_
    intro quests r hr
    refine yields_pure ?_
    rw [Audits, notes_append, hp, List.append_nil, List.map_append, List.map_append, ← hq, ← hr,
      ← notes_append]
    rfl
  | lessonCompleted m => exact questsOnly_audited h rt _
  | reviewCompleted m => exact questsOnly_audited h rt _
  | friendAdded m => exact questsOnly_audited h rt _
  | subscriptionChanged m => exact yields_pure rfl
  | adWatched m =>
    refine yields_pure ?_
    rw [Audits, notes, List.flatMap_singleton, outcomeNotes_outcome, actionNote_ad_watched]
    rfl

end Parts

/-! ## The rows of the log -/

section Rows

variable [PyFloat F]

/-- The row of a record accounts for the steps that its delivery applied: if it says `ok`, its text
is that of outcomes which note them; if not, the text is that of no outcomes. -/
structure Accounts (row : EventRow) (steps : List (Step F)) : Prop where
  ok : row.status = py "ok" → ∃ outcomes : Outcomes F,
    (Json.list outcomes).dumpsChecked .default = some row.outcomesJson ∧ Audits outcomes steps
  failed : row.status ≠ py "ok" → row.outcomesJson = py "[]"

variable {answer : Interpreter F σ} {ledger : σ → List (Step F)} {now : σ → Instant × σ}

/-- What a record applies, and if its handler returned, the outcomes note it. -/
theorem recordStep_audited (app : App F D) (h : Posts answer ledger)
    (hnow : ∀ s, ledger (now s).2 = ledger s) (record : SqsRecord) (s : σ) :
    ∃ steps, ledger ((app.workerOn now answer).recordStep s record) = ledger s ++ steps ∧
      ∀ outcomes, ((app.workerOn now answer).process record s).outcomes = some outcomes →
        Audits outcomes steps := by
  unfold Worker.recordStep Worker.process
  rw [handleRecord_none]
  have htick : ledger ((app.workerOn now answer).tick s) = ledger s := (hnow _).trans (hnow s)
  cases hparse : (app.workerOn now answer).parse record with
  | error exc =>
    refine ⟨[], ?_, fun _ h => nomatch h⟩
    rw [List.append_nil]
    cases exc <;> exact htick
  | ok event =>
    have hrun : dispatch (app.workerOn now answer).handlers event =
        (handle app.cfg app.rt event).run answer := dispatch_handlersOn _ _ answer event
    dsimp only
    rw [hrun]
    cases hd : (handle app.cfg app.rt event).run answer
        ((app.workerOn now answer).tick s) with
    | mk r s' =>
      cases r with
      | error exc =>
        -- a handler that raised left its steps applied, and its outcomes behind
        have hgrows : ledger ((app.workerOn now answer).tick s) <+:
            ledger ((handle app.cfg app.rt event).run answer
              ((app.workerOn now answer).tick s)).2 :=
          @Program.run_trans _ _ _ _ _ (fun s t => ledger s <+: ledger t)
            (fun _ => List.prefix_rfl) List.IsPrefix.trans answer h.grows _ _
        obtain ⟨steps, hsteps⟩ := hgrows
        rw [hd] at hsteps
        exact ⟨steps, htick ▸ hsteps.symm, fun _ h => nomatch h⟩
      | ok outcomes =>
        obtain ⟨steps, hsteps, haudits⟩ := handle_notes h app.cfg app.rt event _ _ _ hd
        refine ⟨steps, htick ▸ hsteps, ?_⟩
        intro outcomes' h
        exact Option.some.inj h ▸ haudits

/-- **Each row accounts for the last delivery of its id**, over an interpreter that posts its
steps. -/
theorem rows_audited (app : App F D) (h : Posts answer ledger)
    (hnow : ∀ s, ledger (now s).2 = ledger s) (schedule : List (List SqsRecord)) (s : σ)
    (hreturns : Along (app.workerOn now answer).onSqlite.invoke
      (fun t batch => ((app.workerOn now answer).onSqlite.lambdaHandler batch t).1.isOk = true)
      (s, .empty) schedule)
    (hdumps : ∀ p ∈ (app.workerOn now answer).processed schedule.flatten s,
      p.outcomesJson.isSome = true) :
    ∀ row ∈ (run (app.workerOn now answer).onSqlite.invoke (s, .empty) schedule).2.rows,
      ∃ pre record post steps, schedule.flatten = pre ++ record :: post ∧ record.id = row.id ∧
        (∀ later ∈ post, later.id ≠ row.id) ∧
        ledger (run (app.workerOn now answer).recordStep s (pre ++ [record])) =
          ledger (run (app.workerOn now answer).recordStep s pre) ++ steps ∧
        Accounts row steps := by
  obtain ⟨-, hagrees⟩ := invocations_agree logAgrees_empty hreturns hdumps
  intro row hrow
  obtain ⟨p, hlast, hrow⟩ := hagrees.rows row hrow
  rw [List.nil_append] at hlast
  obtain ⟨pre, record, post, hsplit, hid, hlater, rfl⟩ := lastWith_processed hlast
  obtain ⟨steps, hsteps, haudits⟩ :=
    recordStep_audited app h hnow record (run (app.workerOn now answer).recordStep s pre)
  refine ⟨pre, record, post, steps, hsplit, hid, hlater, ?_, ?_⟩
  · rw [run_concat]
    exact hsteps
  · have hstatus := hrow.status
    have htext := hrow.outcomesJson
    rw [Processed.outcomesJson] at htext
    cases hout : ((app.workerOn now answer).process record
        (run (app.workerOn now answer).recordStep s pre)).outcomes with
    | some outcomes =>
      rw [hout] at hstatus htext
      exact ⟨fun _ => ⟨outcomes, htext, haudits outcomes hout⟩, fun h => absurd hstatus h⟩
    | none =>
      rw [hout] at hstatus htext
      refine ⟨fun h => ?_, fun _ => (Option.some.inj htext).symm⟩
      exact absurd (hstatus.symm.trans h) (by decide : py "failed" ≠ py "ok")

/-! ## Over the client -/

omit [PyFloat F] in
theorem posts_live (stack : Stack F T) : Posts stack.live fun s => s.world.applied where
  step s := by
    intro live j live' hrun
    obtain ⟨e, client, updates, hcall, hc⟩ := call_cases stack (.step s) live
    rw [Stack.live, hcall] at hrun
    obtain ⟨hans, rfl⟩ := Prod.mk.inj hrun
    refine ⟨[s], ?_, rfl⟩
    show live.world.applied ++ e.applied.toList = _
    rw [Entry.applied, hans, hc]
    rfl
  others r hr := by
    intro live
    cases r with
    | call c =>
      cases c with
      | step s => exact absurd rfl (hr s)
      | listQuests userId =>
        obtain ⟨e, client, updates, hcall, hc⟩ := call_cases stack (.listQuests userId) live
        rw [Stack.live, hcall]
        show live.world.applied ++ e.applied.toList = _
        rw [Entry.applied, hc]
        cases e.answer <;> exact List.append_nil _
    | _ => rfl
  grows r live := by
    cases r with
    | call c =>
      obtain ⟨e, client, updates, hcall, -⟩ := call_cases stack c live
      rw [Stack.live, hcall]
      exact List.prefix_append _ _
    | _ => exact List.prefix_rfl

/-- **The event log and what was done.** The worker over its client, from a process that has just
started and an empty SQLite log, over any invocations that all return with outcomes that can be
dumped. For every row there is a last record with its id. If the row says `ok`, its text is that of
outcomes that note the steps which this record's delivery applied, each of them and no other; if it
does not, its text tells of no step, whatever was applied. -/
theorem log_audited (app : App F D) (stack : Stack F T) (client : ClientState T)
    (schedule : List (List SqsRecord))
    (hreturns : Along (app.live stack).onSqlite.invoke
      (fun t batch => ((app.live stack).onSqlite.lambdaHandler batch t).1.isOk = true)
      (.start client, .empty) schedule)
    (hdumps : ∀ p ∈ (app.live stack).processed schedule.flatten (.start client),
      p.outcomesJson.isSome = true) :
    ∀ row ∈ (run (app.live stack).onSqlite.invoke (.start client, .empty) schedule).2.rows,
      ∃ pre record post steps, schedule.flatten = pre ++ record :: post ∧ record.id = row.id ∧
        (∀ later ∈ post, later.id ≠ row.id) ∧
        (run (app.live stack).recordStep (.start client) (pre ++ [record])).world.applied =
          (run (app.live stack).recordStep (.start client) pre).world.applied ++ steps ∧
        Accounts row steps :=
  rows_audited app (posts_live stack) (fun _ => rfl) schedule _ hreturns hdumps

end Rows

/-! ## An award that fails halfway -/

/-- The second update of the table fails. -/
def halfwayStack : Stack Score ℚ :=
  { plainStack listingCore.net with
    table := fun n => if n = 1 then .error .TransportError else .ok .null }

/-- The award's monthly update fails, and the message comes again: the one row says `ok`, and
accounts for what the second delivery did. -/
theorem log_audited_award :
    ∃ row, (run (plainApp.live halfwayStack).onSqlite.invoke (.start (.init 5 30), .empty)
        [[awardRecord], [awardRecord]]).2.rows = [row] ∧ row.status = py "ok" ∧
      ∃ pre record post steps, [awardRecord, awardRecord] = pre ++ record :: post ∧
        record.id = row.id ∧ (∀ later ∈ post, later.id ≠ row.id) ∧
        (run (plainApp.live halfwayStack).recordStep (.start (.init 5 30))
            (pre ++ [record])).world.applied =
          (run (plainApp.live halfwayStack).recordStep (.start (.init 5 30)) pre).world.applied ++
            steps ∧
        Accounts row steps := by
  have hreturns : Along (plainApp.live halfwayStack).onSqlite.invoke
      (fun t batch => ((plainApp.live halfwayStack).onSqlite.lambdaHandler batch t).1.isOk = true)
      (.start (.init 5 30), .empty) [[awardRecord], [awardRecord]] := by decide +kernel
  have hdumps : ∀ p ∈ (plainApp.live halfwayStack).processed
      [[awardRecord], [awardRecord]].flatten (.start (.init 5 30)),
      p.outcomesJson.isSome = true := by decide +kernel
  have hrows : ((run (plainApp.live halfwayStack).onSqlite.invoke (.start (.init 5 30), .empty)
      [[awardRecord], [awardRecord]]).2.rows.map EventRow.status) = [py "ok"] := by decide +kernel
  obtain ⟨row, hrow, hstatus⟩ := List.map_eq_singleton_iff.mp hrows
  have haccounts := log_audited plainApp halfwayStack (.init 5 30) [[awardRecord], [awardRecord]]
    hreturns hdumps row (hrow ▸ List.mem_singleton_self row)
  exact ⟨row, hrow, hstatus, haccounts⟩

end LingoAsync.Handlers
