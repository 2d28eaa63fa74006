import LingoAsync.Handler.Deliveries
import LingoAsync.Machine
import LingoAsync.Scripts.DlqFaults
import Mathlib.Data.Multiset.AddSub
import Mathlib.Tactic.Abel

/-!
# From publication to settlement

Where a message can be, from its publication on: in the main queue; settled, when an invocation of
the worker has not reported it; in the dead-letter queue, when SQS has given it up; and from there
back in the main queue, when an operator replays it. The script takes the names of both queues for
arguments, so a replay may also leave a message in some other queue, or fetch it from there. A
`Pipeline` counts the bodies in each queue and those settled, and `step` is what the parts of the
system do to it. They do it in any order: an invocation is of any batch from the queue and in any
state of any container, and its answer may be lost; a replay may break off wherever it likes.

`pipeline_conserves`: nothing is lost. What was published is settled or in a queue, with one more
copy at most for each replay that broke off; the queue is the main one, the dead-letter queue, or
one that a replay named for its destination; and what is settled was decoded, and its handler
returned.
-/

namespace LingoAsync

open LingoAsync.Text LingoAsync.Contracts LingoAsync.Db LingoAsync.Handler LingoAsync.Machine
open LingoAsync.Scripts hiding Delivery

/-- The bodies in the queues, each with the name of its queue, and those settled; and, on record,
what was published, how many replays broke off, and where replays were to go. -/
structure Pipeline where
  queued : Multiset (PyStr × PyStr)
  settled : Multiset PyStr
  published : Multiset PyStr
  brokenOff : Nat
  destinations : List PyStr

/-- A replay: the arguments of the script, the messages as the queue has them, how it picks them,
which calls fail, and the operator. -/
structure Replay (ω : Type) where
  cli : CliArgs
  content : Backlog
  delivery : Scripts.Delivery
  faults : Nat → Option (Fault PyExc)
  term : Terminal ω
  operator : ω
  rounds : Nat

/-- What happens to messages. An invocation whose answer is lost deletes nothing. -/
inductive Pipeline.Event (σ ω : Type) where
  | publish (body : PyStr)
  | invoke (batch : List SqsRecord) (s : σ) (answered : Bool)
  | giveUp (body : PyStr)
  | replay (x : Replay ω)

/-- How the script ends, and the queues then. -/
def Replay.ended {ω : Type} (x : Replay ω) : Except Stop Nat × Queues :=
  let ran := main (faultyDesk x.delivery x.faults x.term) x.cli x.rounds
    ((.start x.content.messages, 0), x.operator)
  (ran.1, ran.2.1.1)

/-- The bodies of some messages. -/
def deadBodies (messages : List SqsMessage) : Multiset PyStr := messages.map SqsMessage.bodyText

/-- The bodies of some records. -/
def bodies (records : List SqsRecord) : Multiset PyStr := (records.filterMap (·.body) : List PyStr)

namespace Pipeline

variable {σ L F D ω : Type} [PyFloat F]

/-- Nothing has been published. -/
def empty : Pipeline where
  queued := 0
  settled := 0
  published := 0
  brokenOff := 0
  destinations := []

/-- Some bodies, in the queue of that name. -/
def inQueue (name : PyStr) (bodies : Multiset PyStr) : Multiset (PyStr × PyStr) :=
  bodies.map (name, ·)

/-- The bodies in the queue of that name. -/
def bodiesIn (p : Pipeline) (name : PyStr) : Multiset PyStr :=
  (p.queued.filter fun e => e.1 = name).map (·.2)

/-- The bodies in the other queues, with their names. -/
def elsewhere (p : Pipeline) (name : PyStr) : Multiset (PyStr × PyStr) :=
  p.queued.filter fun e => ¬ e.1 = name

/-- The records an invocation deletes from the queue. -/
def acknowledged (w : Worker σ F D) (batch : List SqsRecord) (s : σ) (answered : Bool) :
    List SqsRecord :=
  if answered then batch.filter (deleted (w.lambdaHandler batch s).1) else []

/-- One event. What cannot happen, as an invocation with what is not in the queue, changes nothing;
nor does a replay of a queue into itself, which is left out. -/
def step (w : Worker σ F D) (p : Pipeline) : Event σ ω → Pipeline
  | .publish body =>
    { p with queued := (DEFAULT_DEST, body) ::ₘ p.queued, published := body ::ₘ p.published }
  | .invoke batch s answered =>
    if bodies batch ≤ p.bodiesIn DEFAULT_DEST then
      let done := bodies (acknowledged w batch s answered)
      { p with
        queued := p.elsewhere DEFAULT_DEST + inQueue DEFAULT_DEST (p.bodiesIn DEFAULT_DEST - done)
        settled := p.settled + done }
    else p
  | .giveUp body =>
    if (DEFAULT_DEST, body) ∈ p.queued then
      { p with queued := (DEFAULT_DLQ, body) ::ₘ p.queued.erase (DEFAULT_DEST, body) }
    else p
  | .replay x =>
    if x.cli.dlq ≠ x.cli.dest ∧ deadBodies x.content.messages = p.bodiesIn x.cli.dlq then
      { p with
        queued := p.elsewhere x.cli.dlq + inQueue x.cli.dlq (deadBodies x.ended.2.dlq) +
          inQueue x.cli.dest x.ended.2.dest
        brokenOff := p.brokenOff + if x.ended.1.isOk then 0 else 1
        destinations := x.cli.dest :: p.destinations }
    else p

/-! ## The invariant -/

/-- The body is of a record that decodes, and whose handler has returned. -/
def Handled (w : Worker σ F D) (body : PyStr) : Prop :=
  ∃ record event s outcomes, record.body = some body ∧ w.parse record = .ok event ∧
    (dispatch w.handlers event s).1 = .ok outcomes

/-- All bodies in the queues. -/
def waiting (p : Pipeline) : Multiset PyStr := p.queued.map (·.2)

/-- Every body that was published is somewhere, and besides those there are only `copies`. -/
structure Accounts (p : Pipeline) (copies : Multiset PyStr) : Prop where
  all : p.waiting + p.settled = p.published + copies
  published : ∀ body ∈ copies, body ∈ p.published
  few : copies.card ≤ p.brokenOff
  places : ∀ e ∈ p.queued, e.1 = DEFAULT_DEST ∨ e.1 = DEFAULT_DLQ ∨ e.1 ∈ p.destinations

theorem map_inQueue (name : PyStr) (bodies : Multiset PyStr) :
    (inQueue name bodies).map (·.2) = bodies := by
  rw [inQueue, Multiset.map_map]
  exact Multiset.map_id bodies

theorem mem_inQueue {name : PyStr} {bodies : Multiset PyStr} {e : PyStr × PyStr}
    (h : e ∈ inQueue name bodies) : e.1 = name := by
  obtain ⟨body, -, rfl⟩ := Multiset.mem_map.mp h
  rfl

/-- What waits is in the one queue or elsewhere. -/
theorem waiting_eq (p : Pipeline) (name : PyStr) :
    p.waiting = (p.elsewhere name).map (·.2) + p.bodiesIn name := by
  rw [waiting, bodiesIn, elsewhere, ← Multiset.map_add, add_comm,
    Multiset.filter_add_not]

variable {p : Pipeline} {copies : Multiset PyStr}

omit [PyFloat F] in
theorem Accounts.publish (h : Accounts p copies) (body : PyStr) :
    Accounts { p with
      queued := (DEFAULT_DEST, body) ::ₘ p.queued, published := body ::ₘ p.published } copies where
  all := by
    show Multiset.map Prod.snd ((DEFAULT_DEST, body) ::ₘ p.queued) + p.settled =
      body ::ₘ p.published + copies
    rw [Multiset.map_cons, Multiset.cons_add, Multiset.cons_add, ← h.all]
    rfl
  published copy hcopy := Multiset.mem_cons_of_mem (h.published copy hcopy)
  few := h.few
  places e he := by
    rcases Multiset.mem_cons.mp he with rfl | hold
    · exact .inl rfl
    · exact h.places e hold

/-- What is in the main queue may be settled. -/
theorem Accounts.settle (h : Accounts p copies) {done : Multiset PyStr}
    (hdone : done ≤ p.bodiesIn DEFAULT_DEST) :
    Accounts { p with
      queued := p.elsewhere DEFAULT_DEST + inQueue DEFAULT_DEST (p.bodiesIn DEFAULT_DEST - done)
      settled := p.settled + done } copies where
  all := by
    show (p.elsewhere DEFAULT_DEST + inQueue DEFAULT_DEST (p.bodiesIn DEFAULT_DEST - done)).map
      Prod.snd + (p.settled + done) = p.published + copies
    rw [Multiset.map_add, map_inQueue, ← h.all, waiting_eq p DEFAULT_DEST, add_comm p.settled,
      ← add_assoc, add_assoc _ _ done, tsub_add_cancel_of_le hdone]
  published := h.published
  few := h.few
  places e he := by
    rcases Multiset.mem_add.mp he with helse | hin
    · exact h.places e (Multiset.mem_filter.mp helse).1
    · exact .inl (mem_inQueue hin)

/-- Or given up. -/
theorem Accounts.giveUp (h : Accounts p copies) {body : PyStr}
    (hmem : (DEFAULT_DEST, body) ∈ p.queued) :
    Accounts { p with queued := (DEFAULT_DLQ, body) ::ₘ p.queued.erase (DEFAULT_DEST, body) }
      copies where
  all := by
    show Multiset.map Prod.snd ((DEFAULT_DLQ, body) ::ₘ p.queued.erase (DEFAULT_DEST, body)) +
      p.settled = p.published + copies
    have herase : p.waiting =
        body ::ₘ Multiset.map Prod.snd (p.queued.erase (DEFAULT_DEST, body)) := by
      rw [waiting, ← Multiset.cons_erase hmem, Multiset.map_cons, Multiset.cons_erase hmem]
    rw [Multiset.map_cons, ← h.all, herase]
  published := h.published
  few := h.few
  places e he := by
    rcases Multiset.mem_cons.mp he with rfl | hold
    · exact .inr (.inl rfl)
    · exact h.places e (Multiset.mem_of_mem_erase hold)

/-- A replay moves messages from one queue to another, and leaves one copy at most, if it breaks
off. -/
theorem Accounts.replay (h : Accounts p copies) (x : Replay ω)
    (hcontent : deadBodies x.content.messages = p.bodiesIn x.cli.dlq) :
    ∃ copies, Accounts { p with
      queued := p.elsewhere x.cli.dlq + inQueue x.cli.dlq (deadBodies x.ended.2.dlq) +
        inQueue x.cli.dest x.ended.2.dest
      brokenOff := p.brokenOff + if x.ended.1.isOk then 0 else 1
      destinations := x.cli.dest :: p.destinations } copies := by
  obtain ⟨moved, doubt, ⟨hkept, hsent, hdoubt⟩, hone, -, -, -, hreturned⟩ :
      Delivered x.cli x.content.messages x.ended.1 x.ended.2 :=
    main_delivered x.delivery x.faults x.term x.cli x.content x.rounds _ ⟨rfl, rfl, rfl⟩
  have hdead : deadBodies moved + deadBodies x.ended.2.dlq = p.bodiesIn x.cli.dlq := by
    rw [← hcontent, deadBodies, deadBodies, Multiset.coe_add, ← List.map_append]
    exact Multiset.coe_eq_coe.mpr (hkept.map _)
  have hdest : (x.ended.2.dest : Multiset PyStr) = deadBodies moved + deadBodies doubt := by
    rw [deadBodies, deadBodies, Multiset.coe_add, ← List.map_append]
    exact congrArg _ hsent
  have hcopies : ∀ body ∈ deadBodies doubt, body ∈ p.published := by
    intro body hbody
    obtain ⟨m, hm, rfl⟩ := List.mem_map.mp (Multiset.mem_coe.mp hbody)
    have hin : m.bodyText ∈ p.published + copies := by
      rw [← h.all, waiting_eq p x.cli.dlq, ← hdead]
      exact Multiset.mem_add.mpr (.inl (Multiset.mem_add.mpr (.inr (Multiset.mem_add.mpr
        (.inr (Multiset.mem_coe.mpr (List.mem_map_of_mem (hdoubt hm))))))))
    rcases Multiset.mem_add.mp hin with hin | hin
    · exact hin
    · exact h.published _ hin
  refine ⟨copies + deadBodies doubt, ?_, ?_, ?_, ?_⟩
  · show (p.elsewhere x.cli.dlq + inQueue x.cli.dlq (deadBodies x.ended.2.dlq) +
      inQueue x.cli.dest x.ended.2.dest).map Prod.snd + p.settled =
        p.published + (copies + deadBodies doubt)
    rw [Multiset.map_add, Multiset.map_add, map_inQueue, map_inQueue, hdest,
      ← add_assoc p.published, ← h.all, waiting_eq p x.cli.dlq, ← hdead]
    abel
  · intro body hbody
    rcases Multiset.mem_add.mp hbody with hold | hnew
    · exact h.published body hold
    · exact hcopies body hnew
  · show (copies + deadBodies doubt).card ≤ p.brokenOff + if x.ended.1.isOk then 0 else 1
    have hlength : (deadBodies doubt).card = doubt.length := by
      rw [deadBodies, Multiset.coe_card, List.length_map]
    have hfew := h.few
    rw [Multiset.card_add, hlength]
    cases hended : x.ended.1 with
    | ok status =>
      rw [(hreturned status hended).1]
      exact hfew
    | error stop => exact Nat.add_le_add hfew hone
  · have hkeep : ∀ name, name = DEFAULT_DEST ∨ name = DEFAULT_DLQ ∨ name ∈ p.destinations →
        name = DEFAULT_DEST ∨ name = DEFAULT_DLQ ∨ name ∈ x.cli.dest :: p.destinations :=
      fun name hname => hname.imp_right (Or.imp_right (List.mem_cons_of_mem _))
    intro e he
    rcases Multiset.mem_add.mp he with hold | hnew
    · rcases Multiset.mem_add.mp hold with helse | hleft
      · exact hkeep _ (h.places e (Multiset.mem_filter.mp helse).1)
      · -- what a queue still holds was in it
        obtain ⟨body, hbody, rfl⟩ := Multiset.mem_map.mp hleft
        have hwas : body ∈ p.bodiesIn x.cli.dlq := by
          rw [← hdead]
          exact Multiset.mem_add.mpr (.inr hbody)
        obtain ⟨e, hfilter, -⟩ := Multiset.mem_map.mp hwas
        obtain ⟨hmem, hname⟩ := Multiset.mem_filter.mp hfilter
        exact hkeep _ (hname ▸ h.places e hmem)
    · exact .inr (.inr (mem_inQueue hnew ▸ List.mem_cons_self))

/-- **What an invocation deletes was handled.** -/
theorem handled_acknowledged (w : Worker σ F D) (openLog : Py L (Option (EventsRepo L)))
    (batch : List SqsRecord) (s : σ × L) (answered : Bool) :
    ∀ body ∈ bodies (acknowledged (w.withLog openLog) batch s answered), Handled w body := by
  intro body hbody
  obtain ⟨record, hrecord, hsome⟩ := List.mem_filterMap.mp (Multiset.mem_coe.mp hbody)
  cases answered with
  | false => cases hrecord
  | true =>
    obtain ⟨hmem, hdeleted⟩ := List.mem_filter.mp hrecord
    obtain ⟨d, hd, rfl, hacked⟩ := mem_invocation_of_deleted hmem hdeleted
    have hverdict := deliveries_acked w openLog [batch] s.1 s.2 d
      (List.mem_append_left _ hd) hacked
    rw [handleRecord_none] at hverdict
    split at hverdict
    · cases hverdict
    · cases hverdict
    · next event hparse =>
      cases hdispatch : (dispatch w.handlers event (w.tick d.before.1)).1 with
      | ok outcomes => exact ⟨d.record, event, _, outcomes, hsome, hparse, hdispatch⟩
      | error exc =>
        rw [hdispatch] at hverdict
        cases hverdict

/-- Nothing is lost, and what is settled was handled. -/
def Sound (w : Worker σ F D) (p : Pipeline) : Prop :=
  (∃ copies, Accounts p copies) ∧ ∀ body ∈ p.settled, Handled w body

/-- **One event** loses nothing. -/
theorem sound_step (w : Worker σ F D) (openLog : Py L (Option (EventsRepo L)))
    (e : Event (σ × L) ω) (h : Sound w p) : Sound w (step (w.withLog openLog) p e) := by
  obtain ⟨⟨copies, haccounts⟩, hhandled⟩ := id h
  cases e with
  | publish body => exact ⟨⟨copies, haccounts.publish body⟩, hhandled⟩
  | invoke batch s answered =>
    rw [step]
    split
    · next hbatch =>
      have hsub : bodies (acknowledged (w.withLog openLog) batch s answered) ≤ bodies batch := by
        refine Multiset.coe_le.mpr (List.Sublist.filterMap _ ?_).subperm
        unfold acknowledged
        split
        · exact List.filter_sublist
        · exact List.nil_sublist _
      refine ⟨⟨copies, haccounts.settle (hsub.trans hbatch)⟩, ?_⟩
      intro body hbody
      rcases Multiset.mem_add.mp hbody with hold | hnew
      · exact hhandled body hold
      · exact handled_acknowledged w openLog batch s answered body hnew
    · exact h
  | giveUp body =>
    rw [step]
    split
    · next hmem => exact ⟨⟨copies, haccounts.giveUp hmem⟩, hhandled⟩
    · exact h
  | replay x =>
    rw [step]
    split
    · next hcontent => exact ⟨haccounts.replay x hcontent.2, hhandled⟩
    · exact h

/-- **Nothing is lost between publication and settlement.** Over any events in any order: every body
that was published is settled or in a queue; there are no others but copies of such, one at most for
each replay that broke off; the queues are the main queue, the dead-letter queue and those that
replays named for their destination; and each body that is settled was decoded and its handler
returned. -/
theorem pipeline_conserves (w : Worker σ F D) (openLog : Py L (Option (EventsRepo L)))
    (events : List (Event (σ × L) ω)) :
    let p := run (step (w.withLog openLog)) empty events
    (∃ copies, Accounts p copies) ∧ ∀ body ∈ p.settled, Handled w body := by
  intro p
  refine run_inv (Sound w) (fun p e hp => sound_step w openLog e hp) events
    ⟨⟨0, ?_, ?_, ?_, ?_⟩, ?_⟩
  · rfl
  · exact fun body hbody => absurd hbody (Multiset.notMem_zero body)
  · exact Nat.zero_le _
  · exact fun e he => absurd he (Multiset.notMem_zero e)
  · exact fun body hbody => absurd hbody (Multiset.notMem_zero body)

end Pipeline

end LingoAsync
