import LingoAsync.Faults
import LingoAsync.Scripts.DlqMain

/-!
# A replay that breaks off

The dead-letter queue and the destination, with calls that fail: a call may raise before it has had
its effect or after, so that the script cannot tell. Wherever it breaks off, every message is still
accounted for: those that have left the dead-letter queue are in the destination, and no other but
one may be, the message that was sent and not yet deleted when the script broke off
(`main_conserves`). If the script returns there is not even that one.

The invariant is `Running`, which a message that is moved keeps: nothing is in doubt, and what a
receive has brought is still in the queue.
-/

namespace LingoAsync.Scripts

open LingoAsync.Text

/-! ## Calls that fail -/

/-- A client of two queues that fails now and then. -/
def faultyClient (d : Delivery) (faults : Nat → Option (Fault PyExc)) : Sqs (Queues × Nat) where
  receiveMessage request := faultily faults ((queueClient d).receiveMessage request)
  sendMessage queueUrl messageBody :=
    faultily faults ((queueClient d).sendMessage queueUrl messageBody)
  deleteMessage queueUrl receiptHandle :=
    faultily faults ((queueClient d).deleteMessage queueUrl receiptHandle)

/-! ## Where the messages are -/

/-- The content of a dead-letter queue: no two messages share a handle. -/
structure Backlog where
  messages : List SqsMessage
  handles_nodup : (messages.filterMap (·.ReceiptHandle)).Nodup

/-- Where the messages are: those `moved` have left the dead-letter queue and are in the
destination, and so are those in `doubt`, which have not left it. -/
structure Conserves (content : List SqsMessage) (q : Queues) (moved doubt : List SqsMessage) :
    Prop where
  kept : (moved ++ q.dlq).Perm content
  sent : q.dest = (moved ++ doubt).map SqsMessage.bodyText
  doubtful : doubt ⊆ q.dlq

/-- The queues after a send. -/
def Queues.sent (q : Queues) (body : PyStr) : Queues := { q with dest := q.dest ++ [body] }

/-- The queues after a delete. -/
def Queues.without (q : Queues) (handle : PyStr) : Queues :=
  { q with
    dlq := q.dlq.filter fun m => m.ReceiptHandle ≠ some handle
    visible := q.visible.filter fun m => m.ReceiptHandle ≠ some handle }

/-- A handle is of one message only. -/
theorem perm_without {messages : List SqsMessage}
    (hnodup : (messages.filterMap (·.ReceiptHandle)).Nodup) {msg : SqsMessage} {handle : PyStr}
    (hmem : msg ∈ messages) (hhandle : msg.ReceiptHandle = some handle) :
    messages.Perm (msg :: messages.filter fun m => m.ReceiptHandle ≠ some handle) := by
  obtain ⟨pre, post, rfl⟩ := List.append_of_mem hmem
  rw [List.filterMap_append, List.filterMap_cons, hhandle] at hnodup
  dsimp only at hnodup
  obtain ⟨-, hpost, hdisjoint⟩ := List.nodup_append'.mp hnodup
  have hpre : ∀ m ∈ pre, m.ReceiptHandle ≠ some handle := by
    intro m hm he
    exact hdisjoint (List.mem_filterMap.mpr ⟨m, hm, he⟩) List.mem_cons_self
  have hpost : ∀ m ∈ post, m.ReceiptHandle ≠ some handle := by
    intro m hm he
    exact (List.nodup_cons.mp hpost).1 (List.mem_filterMap.mpr ⟨m, hm, he⟩)
  rw [List.filter_append, List.filter_cons_of_neg (by simp [hhandle]),
    List.filter_eq_self.mpr (by simpa using hpre), List.filter_eq_self.mpr (by simpa using hpost)]
  exact List.perm_middle

namespace Conserves

variable {content : List SqsMessage} {q : Queues} {moved : List SqsMessage} {msg : SqsMessage}

/-- A message that is sent and not deleted is in doubt. -/
theorem send (h : Conserves content q moved []) (hmem : msg ∈ q.dlq) :
    Conserves content (q.sent msg.bodyText) moved [msg] where
  kept := h.kept
  sent := by
    have hsent := h.sent
    rw [List.append_nil] at hsent
    rw [Queues.sent, hsent, List.map_append]
    rfl
  doubtful := by
    intro m hm
    rw [List.mem_singleton.mp hm]
    exact hmem

/-- Nor are the messages still in the queue any that share a handle. -/
theorem handles (h : Conserves content q moved [])
    (hnodup : (content.filterMap (·.ReceiptHandle)).Nodup) :
    (q.dlq.filterMap (·.ReceiptHandle)).Nodup := by
  have hall := (h.kept.filterMap (·.ReceiptHandle)).nodup_iff.mpr hnodup
  rw [List.filterMap_append] at hall
  exact hall.of_append_right

/-- A message that is sent and deleted is moved. -/
theorem move (h : Conserves content q moved [])
    (hnodup : (content.filterMap (·.ReceiptHandle)).Nodup) (hmem : msg ∈ q.dlq) {handle : PyStr}
    (hhandle : msg.ReceiptHandle = some handle) :
    Conserves content ((q.sent msg.bodyText).without handle) (moved ++ [msg]) [] where
  kept := by
    refine List.Perm.trans ?_ h.kept
    rw [List.append_assoc]
    exact List.Perm.append_left moved (perm_without (h.handles hnodup) hmem hhandle).symm
  sent := by
    rw [List.append_nil]
    exact (h.send hmem).sent
  doubtful := List.nil_subset _

end Conserves

/-! ## The apply pass -/

/-- A pass that is going on: nothing is in doubt, what is visible is in the queue, and what was
moved is as many as the script has counted, each of which passes the filter. -/
def Running (args : ReplayArgs) (content : List SqsMessage) (r : ReplayResult) (q : Queues) :
    Prop :=
  ∃ moved, Conserves content q moved [] ∧ q.visible.Subperm q.dlq ∧ r.moved = moved.length ∧
    r.matched = r.moved ∧ (r.matched : Int) ≤ max 0 args.maxMessages ∧
    ∀ m ∈ moved, args.selects m = true

/-- A pass wherever it breaks off: at most one message is in doubt. -/
def Accounted (args : ReplayArgs) (content : List SqsMessage) (q : Queues) : Prop :=
  ∃ moved doubt, Conserves content q moved doubt ∧ doubt.length ≤ 1 ∧
    ((moved ++ doubt).length : Int) ≤ max 0 args.maxMessages ∧
    ∀ m ∈ moved ++ doubt, args.selects m = true

theorem Running.accounted {args : ReplayArgs} {content : List SqsMessage} {r : ReplayResult}
    {q : Queues} (h : Running args content r q) : Accounted args content q := by
  obtain ⟨moved, hcons, -, hmoved, hmatched, hmax, hsel⟩ := h
  refine ⟨moved, [], hcons, Nat.zero_le _, ?_, ?_⟩
  · rw [List.append_nil, ← hmoved, ← hmatched]
    exact hmax
  · rw [List.append_nil]
    exact hsel

/-- How the move of a message ends: before the send or after it, or after the delete. -/
theorem move_faulty (d : Delivery) (faults : Nat → Option (Fault PyExc)) (args : ReplayArgs)
    (msg : SqsMessage) (q : Queues) (n : Nat) :
    ∃ n', (∃ e, move (faultyClient d faults) args msg (q, n) = (.error e, (q, n'))) ∨
      (∃ e, move (faultyClient d faults) args msg (q, n) =
        (.error e, (q.sent msg.bodyText, n'))) ∨
      ∃ handle r, msg.ReceiptHandle = some handle ∧
        move (faultyClient d faults) args msg (q, n) =
          (r, ((q.sent msg.bodyText).without handle, n')) := by
  rcases faultily_cases faults ((queueClient d).sendMessage args.destUrl msg.bodyText) q n with
    hsend | ⟨e, hsend | hsend⟩
  · have hsent : (faultyClient d faults).sendMessage args.destUrl msg.bodyText (q, n) =
        (.ok (), (q.sent msg.bodyText, n + 1)) := hsend
    rw [move, Action.bind_ok hsent]
    cases hhandle : msg.ReceiptHandle with
    | none => exact ⟨n + 1, .inr (.inl ⟨_, rfl⟩)⟩
    | some handle =>
      rcases faultily_cases faults ((queueClient d).deleteMessage args.dlqUrl handle)
        (q.sent msg.bodyText) (n + 1) with hdelete | ⟨e, hdelete | hdelete⟩
      · exact ⟨n + 2, .inr (.inr ⟨handle, _, rfl, hdelete⟩)⟩
      · exact ⟨n + 2, .inr (.inl ⟨e, hdelete⟩)⟩
      · exact ⟨n + 2, .inr (.inr ⟨handle, _, rfl, hdelete⟩)⟩
  · exact ⟨n + 1, .inl ⟨e, Action.bind_error hsend _⟩⟩
  · exact ⟨n + 1, .inr (.inl ⟨e, Action.bind_error hsend _⟩)⟩

section Apply

variable (d : Delivery) (faults : Nat → Option (Fault PyExc)) {args : ReplayArgs}
  {content : Backlog}

/-- **One message is moved**: all is accounted for however that ends, and if it returns the pass is
going on. -/
theorem move_running {msg : SqsMessage} (hsel : args.selects msg = true)
    {r : ReplayResult} {q : Queues} {n : Nat} (h : Running args content.messages r q)
    (hleft : (r.matched : Int) < args.maxMessages) {rest : List SqsMessage}
    (hbatch : (msg :: rest).Subperm q.dlq) :
    Accounted args content.messages (move (faultyClient d faults) args msg (q, n)).2.1 ∧
      ((move (faultyClient d faults) args msg (q, n)).1 = .ok () →
        Running args content.messages (r.move args msg)
            (move (faultyClient d faults) args msg (q, n)).2.1 ∧
          rest.Subperm (move (faultyClient d faults) args msg (q, n)).2.1.dlq) := by
  obtain ⟨moved, hcons, hvisible, hmoved, hmatched, hmax, hall⟩ := id h
  have hmem : msg ∈ q.dlq := hbatch.subset List.mem_cons_self
  have hone : ∀ m ∈ moved ++ [msg], args.selects m = true := by
    intro m hm
    rcases List.mem_append.mp hm with hm | hm
    · exact hall m hm
    · rw [List.mem_singleton.mp hm]
      exact hsel
  have hlength : ((moved ++ [msg]).length : Int) ≤ max 0 args.maxMessages := by
    rw [List.length_append, List.length_singleton, ← hmoved, ← hmatched]
    push_cast
    omega
  obtain ⟨n', ⟨e, hmove⟩ | ⟨e, hmove⟩ | ⟨handle, res, hhandle, hmove⟩⟩ :=
    move_faulty d faults args msg q n
  · rw [hmove]
    exact ⟨h.accounted, by simp⟩
  · rw [hmove]
    exact ⟨⟨moved, [msg], hcons.send hmem, Nat.le_refl _, hlength, hone⟩, by simp⟩
  · rw [hmove]
    have hcons' := hcons.move content.handles_nodup hmem hhandle
    have hrunning : Running args content.messages (r.move args msg)
        ((q.sent msg.bodyText).without handle) := by
      refine ⟨moved ++ [msg], hcons', hvisible.filter _, ?_, ?_, ?_, hone⟩
      · show r.moved + 1 = (moved ++ [msg]).length
        rw [hmoved, List.length_append, List.length_singleton]
      · show r.matched + 1 = r.moved + 1
        rw [hmatched]
      · show ((r.matched + 1 : Nat) : Int) ≤ max 0 args.maxMessages
        push_cast
        omega
    refine ⟨hrunning.accounted, fun _ => ⟨hrunning, ?_⟩⟩
    have hperm := perm_without (hcons.handles content.handles_nodup) hmem hhandle
    exact (List.subperm_cons msg).mp (hbatch.trans hperm.subperm)

/-- **The messages of one receive**, wherever the scan breaks off. -/
theorem scan_running (happly : args.apply = true) (messages : List SqsMessage) {r : ReplayResult}
    {q : Queues} {n : Nat} (h : Running args content.messages r q)
    (hleft : (r.matched : Int) < args.maxMessages) (hbatch : messages.Subperm q.dlq) :
    Accounted args content.messages (scan (faultyClient d faults) args messages r (q, n)).2.1 ∧
      ∀ r', (scan (faultyClient d faults) args messages r (q, n)).1 = .ok r' →
        Running args content.messages r'
          (scan (faultyClient d faults) args messages r (q, n)).2.1 := by
  induction messages generalizing r q n with
  | nil =>
    refine ⟨h.accounted, ?_⟩
    intro r' hr'
    rw [← Except.ok.inj hr']
    exact h
  | cons msg messages ih =>
    have hrest : messages.Subperm q.dlq :=
      (List.sublist_cons_self msg messages).subperm.trans hbatch
    cases hm : args.selects msg with
    | false =>
      rw [scan_skip _ hm]
      exact ih h hleft hrest
    | true =>
      obtain ⟨hacc, hrun⟩ := move_running d faults (n := n) hm h hleft hbatch
      cases hmove : move (faultyClient d faults) args msg (q, n) with
      | mk res s =>
        rw [hmove] at hacc hrun
        cases res with
        | error e =>
          rw [scan_raised happly hm hmove]
          exact ⟨hacc, by simp⟩
        | ok u =>
          obtain ⟨hrunning, hbatch'⟩ := hrun rfl
          rw [scan_moved happly hm hmove]
          split
          · refine ⟨hacc, ?_⟩
            intro r' hr'
            rw [← Except.ok.inj hr']
            exact hrunning
          · next hmore =>
            refine ih hrunning ?_ hbatch'
            show ((r.matched + 1 : Nat) : Int) < args.maxMessages
            push_cast
            omega

/-- A receive, whether it fails or not, takes messages out of sight and nothing else. -/
theorem running_received {r : ReplayResult} {q : Queues} (h : Running args content.messages r q)
    (matched : Nat) : Running args content.messages r (received d args matched q) := by
  obtain ⟨moved, hcons, hvisible, hcounts⟩ := h
  refine ⟨moved, ⟨hcons.kept, hcons.sent, hcons.doubtful⟩, ?_, hcounts⟩
  show (if args.apply then q.visible.diff (batch d args matched q) else q.visible).Subperm q.dlq
  split
  · exact (List.diff_sublist _ _).subperm.trans hvisible
  · exact hvisible

/-- What has to hold of a pass that has ended. -/
def PassEnded (args : ReplayArgs) (content : List SqsMessage)
    (ended : Except PyExc ReplayResult × (Queues × Nat)) : Prop :=
  Accounted args content ended.2.1 ∧ ∀ r, ended.1 = .ok r → Running args content r ended.2.1

/-- **A round** of the apply pass. -/
theorem replayStep_running (happly : args.apply = true) {r : ReplayResult} {q : Queues} {n : Nat}
    (h : Running args content.messages r q) :
    (replayStep (faultyClient d faults) args (r, (q, n))).elim (PassEnded args content.messages)
      (fun going => Running args content.messages going.1 going.2.1) := by
  have hreturned : ∀ {q' : Queues} (n' : Nat), Running args content.messages r q' →
      PassEnded args content.messages (.ok r, (q', n')) := by
    intro q' n' hq'
    exact ⟨hq'.accounted, fun r' hr' => Except.ok.inj hr' ▸ hq'⟩
  have hraised : ∀ {q' : Queues} (e : PyExc) (n' : Nat), Running args content.messages r q' →
      PassEnded args content.messages (.error e, (q', n')) :=
    fun _ _ hq' => ⟨hq'.accounted, by simp⟩
  rw [replayStep]
  split
  · next hleft =>
    rcases faultily_cases faults ((queueClient d).receiveMessage (args.receive r.matched)) q n with
      hrecv | ⟨e, hrecv | hrecv⟩
    · have hreceived : (faultyClient d faults).receiveMessage (args.receive r.matched) (q, n) =
          (.ok (batch d args r.matched q), (received d args r.matched q, n + 1)) := by
        rw [receive_eq] at hrecv
        exact hrecv
      have hrunning := running_received d h r.matched
      have hbatch : (batch d args r.matched q).Subperm (received d args r.matched q).dlq := by
        obtain ⟨-, -, hvisible, -⟩ := h
        exact (d.offer_subperm _ _ _).trans hvisible
      rw [hreceived]
      cases hmessages : batch d args r.matched q with
      | nil => exact hreturned _ hrunning
      | cons msg messages =>
        rw [hmessages] at hbatch
        obtain ⟨hacc, hrun⟩ := scan_running d faults (n := n + 1) happly (msg :: messages) hrunning
          hleft hbatch
        dsimp only
        cases hscan : scan (faultyClient d faults) args (msg :: messages) r
            (received d args r.matched q, n + 1) with
        | mk ran s =>
          rw [hscan] at hacc hrun
          cases ran with
          | error e => exact ⟨hacc, by simp⟩
          | ok r' => exact hrun r' rfl
    · have hfailed : (faultyClient d faults).receiveMessage (args.receive r.matched) (q, n) =
          (.error e, (q, n + 1)) := hrecv
      rw [hfailed]
      exact hraised e _ h
    · have hfailed : (faultyClient d faults).receiveMessage (args.receive r.matched) (q, n) =
          (.error e, (received d args r.matched q, n + 1)) := by
        rw [receive_eq] at hrecv
        exact hrecv
      rw [hfailed]
      exact hraised e _ (running_received d h r.matched)
  · exact hreturned n h

theorem running_start (args : ReplayArgs) (q : Queues) (hdlq : q.dlq = content.messages)
    (hdest : q.dest = []) (hvisible : q.visible.Subperm q.dlq) :
    Running args content.messages (.start !args.apply) q := by
  refine ⟨[], ⟨?_, hdest, List.nil_subset _⟩, hvisible, rfl, rfl, le_max_left 0 _,
    List.forall_mem_nil _⟩
  rw [List.nil_append, hdlq]

/-- **The apply pass**, as far as it has got. -/
theorem replayFor_accounted (happly : args.apply = true) (rounds : Nat) {q : Queues} {n : Nat}
    (h : Running args content.messages (.start !args.apply) q) :
    Accounted args content.messages
        (replayFor (faultyClient d faults) args rounds (q, n)).2.1 ∧
      ∀ r, (replayFor (faultyClient d faults) args rounds (q, n)).1 = .ok r →
        Running args content.messages r
          (replayFor (faultyClient d faults) args rounds (q, n)).2.1 := by
  have hrounds : (Loop.upTo (replayStep (faultyClient d faults) args) rounds
      (.start !args.apply, (q, n))).elim (PassEnded args content.messages)
      (fun going => Running args content.messages going.1 going.2.1) := by
    refine Loop.upTo_inv (fun going : ReplayResult × (Queues × Nat) =>
      Running args content.messages going.1 going.2.1) (PassEnded args content.messages) ?_ ?_
      rounds h
    · intro s s' hs hstep
      have hround := replayStep_running d faults happly (n := s.2.2) hs
      rwa [hstep] at hround
    · intro s ended hs hstep
      have hround := replayStep_running d faults happly (n := s.2.2) hs
      rwa [hstep] at hround
  rw [replayFor]
  cases hup : Loop.upTo (replayStep (faultyClient d faults) args) rounds
      (.start !args.apply, (q, n)) with
  | inl ended =>
    rw [hup] at hrounds
    obtain ⟨result, s⟩ := ended
    refine ⟨hrounds.1, ?_⟩
    intro r hr
    cases result with
    | error e => cases hr
    | ok r' => exact Except.ok.inj hr ▸ hrounds.2 r' rfl
  | inr going =>
    rw [hup] at hrounds
    exact ⟨hrounds.accounted, by simp⟩

end Apply

/-! ## The dry run -/

section Dry

variable (d : Delivery) (faults : Nat → Option (Fault PyExc)) {args : ReplayArgs}

/-- What both passes start from: the queues as the script has found them. -/
structure Untouched (content : List SqsMessage) (q : Queues) : Prop where
  dlq : q.dlq = content
  dest : q.dest = []
  visible : q.visible = content

theorem untouched_received {content : List SqsMessage} {q : Queues} (hdry : args.apply = false)
    (h : Untouched content q) (matched : Nat) : Untouched content (received d args matched q) := by
  rw [received_dry d hdry]
  exact ⟨h.dlq, h.dest, h.visible⟩

/-- A round of a dry run touches nothing, whatever fails. -/
theorem replayStep_untouched {content : List SqsMessage} (hdry : args.apply = false)
    {r : ReplayResult} {q : Queues} {n : Nat} (h : Untouched content q) :
    (replayStep (faultyClient d faults) args (r, (q, n))).elim
      (fun ended => Untouched content ended.2.1) (fun going => Untouched content going.2.1) := by
  rw [replayStep]
  split
  · rcases faultily_cases faults ((queueClient d).receiveMessage (args.receive r.matched)) q n with
      hrecv | ⟨e, hrecv | hrecv⟩
    · have hreceived : (faultyClient d faults).receiveMessage (args.receive r.matched) (q, n) =
          (.ok (batch d args r.matched q), (received d args r.matched q, n + 1)) := by
        rw [receive_eq] at hrecv
        exact hrecv
      rw [hreceived]
      cases batch d args r.matched q with
      | nil => exact untouched_received d hdry h _
      | cons msg messages =>
        dsimp only
        rw [scan_dry _ hdry]
        exact untouched_received d hdry h _
    · have hfailed : (faultyClient d faults).receiveMessage (args.receive r.matched) (q, n) =
          (.error e, (q, n + 1)) := hrecv
      rw [hfailed]
      exact h
    · have hfailed : (faultyClient d faults).receiveMessage (args.receive r.matched) (q, n) =
          (.error e, (received d args r.matched q, n + 1)) := by
        rw [receive_eq] at hrecv
        exact hrecv
      rw [hfailed]
      exact untouched_received d hdry h _
  · exact h

/-- A dry run touches nothing. -/
theorem replayFor_untouched {content : List SqsMessage} (hdry : args.apply = false) (rounds : Nat)
    {q : Queues} {n : Nat} (h : Untouched content q) :
    Untouched content (replayFor (faultyClient d faults) args rounds (q, n)).2.1 := by
  have hrounds : (Loop.upTo (replayStep (faultyClient d faults) args) rounds
      (.start !args.apply, (q, n))).elim (fun ended => Untouched content ended.2.1)
      (fun going => Untouched content going.2.1) := by
    refine Loop.upTo_inv (fun going : ReplayResult × (Queues × Nat) => Untouched content going.2.1)
      (fun ended : Except PyExc ReplayResult × (Queues × Nat) => Untouched content ended.2.1) ?_ ?_
      rounds h
    · intro s s' hs hstep
      have hround := replayStep_untouched d faults hdry (r := s.1) (n := s.2.2) hs
      rwa [hstep] at hround
    · intro s ended hs hstep
      have hround := replayStep_untouched d faults hdry (r := s.1) (n := s.2.2) hs
      rwa [hstep] at hround
  rw [replayFor]
  cases hup : Loop.upTo (replayStep (faultyClient d faults) args) rounds
      (.start !args.apply, (q, n)) with
  | inl ended =>
    rw [hup] at hrounds
    exact hrounds
  | inr going =>
    rw [hup] at hrounds
    exact hrounds

end Dry

/-! ## The script -/

/-- The rest of what the script works with: the names of the queues, and the terminal. -/
structure Terminal (ω : Type) where
  getQueueUrl : (queueName : PyStr) → Py ω PyStr
  print : PyStr → Py ω Unit
  input : (prompt : PyStr) → Py ω PyStr

section Main

variable {ω : Type} (d : Delivery) (faults : Nat → Option (Fault PyExc)) (term : Terminal ω)

/-- The two queues, which fail now and then, and a terminal. -/
def faultyDesk : Desk ((Queues × Nat) × ω) where
  receiveMessage request := ((faultyClient d faults).receiveMessage request).onFst
  sendMessage queueUrl messageBody :=
    ((faultyClient d faults).sendMessage queueUrl messageBody).onFst
  deleteMessage queueUrl receiptHandle :=
    ((faultyClient d faults).deleteMessage queueUrl receiptHandle).onFst
  getQueueUrl queueName := (term.getQueueUrl queueName).onSnd
  print text := (term.print text).onSnd
  input prompt := (term.input prompt).onSnd

theorem faultyDesk_over : (faultyDesk d faults term).toSqs.Over Prod.fst (faultyClient d faults) :=
  ⟨fun _ _ => rfl, fun _ _ _ => rfl, fun _ _ _ => rfl⟩

/-- Where the messages are when the script comes to `r`, or is still at it. -/
def Delivered (cli : CliArgs) (content : List SqsMessage) (r : Except Stop Nat) (q : Queues) :
    Prop :=
  ∃ moved doubt, Conserves content q moved doubt ∧ doubt.length ≤ 1 ∧
    ((moved ++ doubt).length : Int) ≤ max 0 cli.maxMessages ∧
    (∀ m ∈ moved ++ doubt, bodyMatches m.bodyText cli.bodyFilter = true) ∧
    (cli.apply = false → moved ++ doubt = []) ∧
    ∀ status, r = .ok status → doubt = [] ∧ (status = 1 → moved = [])

theorem Untouched.delivered {cli : CliArgs} {content : List SqsMessage} {q : Queues}
    (h : Untouched content q) (r : Except Stop Nat) : Delivered cli content r q := by
  refine ⟨[], [], ⟨?_, h.dest, List.nil_subset _⟩, Nat.zero_le _, le_max_left 0 _,
    List.forall_mem_nil _, fun _ => rfl, fun _ _ => ⟨rfl, fun _ => rfl⟩⟩
  rw [List.nil_append, h.dlq]

variable {d faults term} {cli : CliArgs} {content : Backlog}

theorem Accounted.delivered {dlqUrl destUrl : PyStr} {q : Queues} (happly : cli.apply = true)
    (h : Accounted (mainArgs dlqUrl destUrl cli.maxMessages cli.bodyFilter true)
      content.messages q) (e : Stop) : Delivered cli content.messages (.error e) q := by
  obtain ⟨moved, doubt, hcons, hdoubt, hmax, hsel⟩ := h
  refine ⟨moved, doubt, hcons, hdoubt, hmax, hsel, ?_, nofun⟩
  intro hdry
  rw [happly] at hdry
  cases hdry

theorem Running.delivered {dlqUrl destUrl : PyStr} {result : ReplayResult} {q : Queues}
    (happly : cli.apply = true)
    (h : Running (mainArgs dlqUrl destUrl cli.maxMessages cli.bodyFilter true)
      content.messages result q) {r : Except Stop Nat}
    (hr : ∀ status, r = .ok status → status = 0) :
    Delivered cli content.messages r q := by
  obtain ⟨moved, hcons, -, hmoved, hmatched, hmax, hsel⟩ := h
  refine ⟨moved, [], hcons, Nat.zero_le _, ?_, ?_, ?_, ?_⟩
  · rw [List.append_nil, ← hmoved, ← hmatched]
    exact hmax
  · rw [List.append_nil]
    exact hsel
  · intro hdry
    rw [happly] at hdry
    cases hdry
  · intro status hstatus
    refine ⟨rfl, fun hone => ?_⟩
    rw [hr status hstatus] at hone
    cases hone

variable (d faults term) in
/-- A pass over the desk is one over its queues. -/
theorem replayFor_faultyDesk (args : ReplayArgs) (rounds : Nat) (t : (Queues × Nat) × ω) :
    ((replayFor (faultyDesk d faults term).toSqs args rounds t).1,
        (replayFor (faultyDesk d faults term).toSqs args rounds t).2.1) =
      replayFor (faultyClient d faults) args rounds t.1 :=
  (through_replayFor (faultyDesk_over d faults term) args rounds t).symm

/-- What leaves the queues alone leaves them as they were found. -/
theorem ends_untouched {α : Type} {m : Py ((Queues × Nat) × ω) α}
    (h : Action.Keeps (fun t : (Queues × Nat) × ω => t.1) m) :
    Action.Ends (fun t => Untouched content.messages t.1.1) (Script.of m)
      fun _ t => Untouched content.messages t.1.1 := by
  intro t ht
  have hsame : (m t).2.1 = t.1 := h t
  show Untouched content.messages (m t).2.1.1
  rw [hsame]
  exact ht

/-- The second pass, and the line that says what was moved. -/
theorem applyPass_delivered (happly : cli.apply = true) (dlqUrl destUrl : PyStr) (rounds : Nat) :
    Action.Ends (fun t => Untouched content.messages t.1.1)
      (applyPass (faultyDesk d faults term) cli dlqUrl destUrl rounds)
      fun r t => Delivered cli content.messages r t.1.1 := by
  have hpass : Action.Ends (fun t => Untouched content.messages t.1.1)
      (replayFor (faultyDesk d faults term).toSqs
        (mainArgs dlqUrl destUrl cli.maxMessages cli.bodyFilter true) rounds)
      fun r t => Accounted (mainArgs dlqUrl destUrl cli.maxMessages cli.bodyFilter true)
          content.messages t.1.1 ∧ ∀ result, r = .ok result →
        Running (mainArgs dlqUrl destUrl cli.maxMessages cli.bodyFilter true) content.messages
          result t.1.1 := by
    intro t ht
    have hrunning : Running (mainArgs dlqUrl destUrl cli.maxMessages cli.bodyFilter true)
        content.messages (.start !true) t.1.1 :=
      running_start _ t.1.1 ht.dlq ht.dest (by rw [ht.visible, ht.dlq])
    have hended := replayFor_accounted d faults rfl rounds (n := t.1.2) hrunning
    rw [← replayFor_faultyDesk d faults term] at hended
    exact hended
  refine hpass.bind (fun applied => ?_) fun e t ht => ht.1.delivered happly e
  refine Action.Ends.bind (R := fun _ t => Running
    (mainArgs dlqUrl destUrl cli.maxMessages cli.bodyFilter true) content.messages applied t.1.1)
    (fun t ht => ht.2 applied rfl) (fun _ => ?_) fun e t ht => ?_
  · exact Action.ends_pure fun t ht => ht.delivered happly fun _ h => (Except.ok.inj h).symm
  · exact ht.delivered happly (by intro _ h; cases h)

/-- After the preview, from queues as they were found. -/
theorem afterPreview_delivered (dlqUrl destUrl : PyStr) (rounds matched : Nat) :
    Action.Ends (fun t => Untouched content.messages t.1.1)
      (afterPreview (faultyDesk d faults term) cli dlqUrl destUrl rounds matched)
      fun r t => Delivered cli content.messages r t.1.1 := by
  have hprint : ∀ text (status : Nat), Action.Ends (fun t => Untouched content.messages t.1.1)
      (do Script.of ((faultyDesk d faults term).print text); pure status : Script _ Nat)
      fun r t => Delivered cli content.messages r t.1.1 := by
    intro text status
    exact (ends_untouched fun _ => rfl).bind (fun _ => Action.ends_pure fun t ht => ht.delivered _)
      fun e t ht => ht.delivered _
  unfold afterPreview
  split
  · exact hprint _ 0
  · next happly =>
    split
    · exact hprint _ 0
    · have hkeeps : Action.Keeps (fun t : (Queues × Nat) × ω => t.1)
          (confirmed (faultyDesk d faults term) cli matched) := by
        unfold confirmed
        split
        · exact Action.keeps_pure _
        · exact Action.keeps_bind (fun _ => rfl) fun _ => Action.keeps_pure _
      refine (ends_untouched hkeeps).bind (fun yes => ?_) fun e t ht => ht.delivered _
      split
      · exact applyPass_delivered (by simpa using happly) dlqUrl destUrl rounds
      · exact hprint _ 1

variable (d faults term cli content)

/-- The script, from queues as they were found. -/
theorem main_delivered (rounds : Nat) :
    Action.Ends (fun t => Untouched content.messages t.1.1)
      (main (faultyDesk d faults term) cli rounds)
      fun r t => Delivered cli content.messages r t.1.1 := by
  refine (ends_untouched fun _ => rfl).bind (fun dlqUrl => ?_) fun e t ht => ht.delivered _
  refine (ends_untouched fun _ => rfl).bind (fun destUrl => ?_) fun e t ht => ht.delivered _
  have hdry : Action.Ends (fun t => Untouched content.messages t.1.1)
      (replayFor (faultyDesk d faults term).toSqs
        (mainArgs dlqUrl destUrl cli.maxMessages cli.bodyFilter false) rounds)
      fun _ t => Untouched content.messages t.1.1 := by
    intro t ht
    have hsame := replayFor_untouched d faults (n := t.1.2)
      (rfl : (mainArgs dlqUrl destUrl cli.maxMessages cli.bodyFilter false).apply = false) rounds ht
    rw [← replayFor_faultyDesk d faults term] at hsame
    exact hsame
  refine hdry.bind (fun preview => ?_) fun e t ht => ht.delivered _
  refine (ends_untouched (keeps_printPreview (fun _ _ => rfl) preview cli.dest)).bind (fun _ => ?_)
    fun e t ht => ht.delivered _
  exact afterPreview_delivered dlqUrl destUrl rounds preview.matched

/-- **No message is lost, and at most one is in doubt.** The script over two queues that fail now
and then, wherever it is and whatever the operator says: every message of the dead-letter queue is
still there or has been moved, and the destination has got what was moved and nothing else, but for
at most one message that was sent and is still there. What has been sent passes the filter and is no
more than was asked for. Without `--apply` nothing has been sent; and if the script has returned,
nothing is in doubt, and with status 1 nothing has been moved. -/
theorem main_conserves (rounds : Nat) (w : ω) :
    Delivered cli content.messages
      (main (faultyDesk d faults term) cli rounds ((.start content.messages, 0), w)).1
      (main (faultyDesk d faults term) cli rounds ((.start content.messages, 0), w)).2.1.1 :=
  main_delivered d faults term cli content rounds _ ⟨rfl, rfl, rfl⟩

end Main

end LingoAsync.Scripts
