import LingoAsync.Scripts.DlqReplay

/-!
# What a replay may do to the queues

`replay` against a client that does whatever it likes: a receive gives any list of
messages, and every call may raise. `Sqs.traced` writes the calls down as they are
made, so that what has been done to the queues is a list that only grows, and
"at every point of the run" is "for every prefix of it".

`SafeCalls` says what such a list may be. One lemma for each kind of call says when
the list may grow by it; `scan_sound` is the induction over the messages of one
receive, whose invariant `Balanced` ties the counters of the script to the calls;
`replayStep_sound` is one round, and `replay_safe` any number of them.
-/

namespace LingoAsync.Scripts

open LingoAsync.Text

/-- A call of the client, with what it gave. -/
inductive SqsCall where
  | receive (request : ReceiveRequest) (answer : Except PyExc (List SqsMessage))
  | send (queueUrl messageBody : PyStr) (answer : Except PyExc Unit)
  | delete (queueUrl receiptHandle : PyStr) (answer : Except PyExc Unit)

def SqsCall.isSend : SqsCall → Bool
  | send .. => true
  | _ => false

def SqsCall.isReceive : SqsCall → Bool
  | receive .. => true
  | _ => false

variable {κ : Type}

/-- The client, with its calls written down. -/
def Sqs.traced (sqs : Sqs κ) : Sqs (κ × List SqsCall) where
  receiveMessage request := (sqs.receiveMessage request).logged (.receive request)
  sendMessage queueUrl messageBody :=
    (sqs.sendMessage queueUrl messageBody).logged (.send queueUrl messageBody)
  deleteMessage queueUrl receiptHandle :=
    (sqs.deleteMessage queueUrl receiptHandle).logged (.delete queueUrl receiptHandle)

/-- The calls `replay` has made within `rounds` rounds, whether it has come to its end or not. -/
def callsMade (sqs : Sqs κ) (args : ReplayArgs) (rounds : Nat) (q : κ) : List SqsCall :=
  (Loop.upTo (replayStep sqs.traced args) rounds (.start !args.apply, (q, []))).elim
    (fun ended => ended.2.2) (fun going => going.2.2)

/-! ## Writing the calls down changes nothing -/

theorem forgets_move (sqs : Sqs κ) (args : ReplayArgs) (msg : SqsMessage) :
    Action.Forgets (move sqs.traced args msg) (move sqs args msg) := by
  refine Action.forgets_bind (Action.forgets_logged _ _) ?_
  intro _
  cases msg.ReceiptHandle with
  | some handle => exact Action.forgets_logged _ _
  | none => exact Action.forgets_raise _

theorem forgets_scan (sqs : Sqs κ) (args : ReplayArgs) (messages : List SqsMessage)
    (r : ReplayResult) :
    Action.Forgets (scan sqs.traced args messages r) (scan sqs args messages r) := by
  induction messages generalizing r with
  | nil => exact Action.forgets_pure _
  | cons msg messages ih =>
    rw [scan, scan]
    split
    · exact ih _
    · -- what follows the move, whichever result it is reached with
      have hrest : ∀ r' : ReplayResult, Action.Forgets
          (if args.maxMessages ≤ r'.matched then pure r' else scan sqs.traced args messages r')
          (if args.maxMessages ≤ r'.matched then pure r' else scan sqs args messages r') := by
        intro r'
        split
        · exact Action.forgets_pure _
        · exact ih r'
      dsimp only
      split
      · refine Action.forgets_bind (forgets_move sqs args msg) ?_
        intro _
        exact Action.forgets_bind (Action.forgets_pure _) hrest
      · exact Action.forgets_bind (Action.forgets_pure _) hrest

theorem replayStep_traced (sqs : Sqs κ) (args : ReplayArgs) (r : ReplayResult)
    (s : κ × List SqsCall) :
    replayStep sqs args (r, s.1) =
      (replayStep sqs.traced args (r, s)).map (fun ended => (ended.1, ended.2.1))
        (fun going => (going.1, going.2.1)) := by
  rw [replayStep, replayStep]
  split
  · cases hrecv : sqs.receiveMessage (args.receive r.matched) s.1 with
    | mk answer q' =>
      have htraced : sqs.traced.receiveMessage (args.receive r.matched) s =
          (answer, (q', s.2 ++ [.receive (args.receive r.matched) answer])) :=
        Action.logged_eq hrecv _
      rw [htraced]
      cases answer with
      | error e => rfl
      | ok messages =>
        cases messages with
        | nil => rfl
        | cons msg messages =>
          have hscan := forgets_scan sqs args (msg :: messages) r
            (q', s.2 ++ [.receive (args.receive r.matched) (.ok (msg :: messages))])
          dsimp only at hscan ⊢
          rw [← hscan]
          cases scan sqs.traced args (msg :: messages) r
            (q', s.2 ++ [.receive (args.receive r.matched) (.ok (msg :: messages))]) with
          | mk ran s' => cases ran <;> rfl
  · rfl

/-- **A traced replay is the replay.** -/
theorem replay_traced (sqs : Sqs κ) (args : ReplayArgs) (rounds : Nat) (q : κ) :
    replay sqs args rounds q =
      (replay sqs.traced args rounds (q, [])).map (fun ended => (ended.1, ended.2.1)) :=
  Loop.loop_map (fun going : ReplayResult × κ × List SqsCall => (going.1, going.2.1)) _
    (fun going => replayStep_traced sqs args going.1 going.2) rounds (.start !args.apply, (q, []))

/-! ## What the calls may be -/

/-- The message came in a batch that was received. -/
def Received (calls : List SqsCall) (msg : SqsMessage) : Prop :=
  ∃ request messages, .receive request (.ok messages) ∈ calls ∧ msg ∈ messages

/-- The calls a replay may have made. -/
structure SafeCalls (args : ReplayArgs) (calls : List SqsCall) : Prop where
  /-- a delete is of a message that was received, directly after its body was sent -/
  deletes : ∀ before queueUrl handle answer,
    before ++ [.delete queueUrl handle answer] <+: calls →
      queueUrl = args.dlqUrl ∧ ∃ earlier msg,
        before = earlier ++ [.send args.destUrl msg.bodyText (.ok ())] ∧
          msg.ReceiptHandle = some handle ∧ Received earlier msg
  /-- what is sent goes to the destination, and passes the filter -/
  sends : ∀ queueUrl body answer, .send queueUrl body answer ∈ calls →
    queueUrl = args.destUrl ∧ bodyMatches body args.bodyFilter = true
  atMost : (calls.countP SqsCall.isSend : Int) ≤ max 0 args.maxMessages
  dryRun : args.apply = false → ∀ call ∈ calls, call.isReceive = true
  /-- SQS takes no other sizes -/
  receives : ∀ request answer, .receive request answer ∈ calls →
    1 ≤ request.MaxNumberOfMessages ∧ request.MaxNumberOfMessages ≤ 10

/-- The counters of a replay that returned. -/
structure Accounts (args : ReplayArgs) (r : ReplayResult) : Prop where
  scanned : r.scanned = r.matched + r.skippedFilter
  moved : r.moved = if args.apply then r.matched else 0
  previews : r.previews.length = min r.matched args.previewLimit

theorem Received.append {calls : List SqsCall} {msg : SqsMessage} (h : Received calls msg)
    (more : List SqsCall) : Received (calls ++ more) msg := by
  obtain ⟨request, messages, hcall, hmsg⟩ := h
  exact ⟨request, messages, List.mem_append_left _ hcall, hmsg⟩

namespace SafeCalls

variable {args : ReplayArgs} {calls : List SqsCall} {msg : SqsMessage}

theorem nil (args : ReplayArgs) : SafeCalls args [] := by
  refine ⟨?_, ?_, ?_, ?_, ?_⟩
  · intro before _ _ _ h
    have hnil := List.prefix_nil.mp h
    simp at hnil
  · intro _ _ _ h
    cases h
  · exact le_max_left 0 _
  · intro _ _ h
    cases h
  · intro _ _ h
    cases h

/-- The past of a safe list of calls is safe. -/
theorem past {past : List SqsCall} (h : SafeCalls args calls) (hp : past <+: calls) :
    SafeCalls args past := by
  refine ⟨?_, ?_, ?_, ?_, ?_⟩
  · intro before queueUrl handle answer hd
    exact h.deletes before queueUrl handle answer (hd.trans hp)
  · intro queueUrl body answer hs
    exact h.sends queueUrl body answer (hp.subset hs)
  · have hle := hp.sublist.countP_le (p := SqsCall.isSend)
    exact le_trans (by exact_mod_cast hle) h.atMost
  · intro hdry call hc
    exact h.dryRun hdry call (hp.subset hc)
  · intro request answer hr
    exact h.receives request answer (hp.subset hr)

/-- A call that is no delete adds no delete. -/
theorem deletes_concat {call : SqsCall}
    (hcall : ∀ queueUrl handle answer, call ≠ .delete queueUrl handle answer)
    {before : List SqsCall} {queueUrl handle : PyStr} {answer : Except PyExc Unit}
    (hd : before ++ [.delete queueUrl handle answer] <+: calls ++ [call]) :
    before ++ [.delete queueUrl handle answer] <+: calls := by
  rcases List.prefix_concat_iff.mp hd with heq | hp
  · have hlast := List.append_inj_right' heq rfl
    exact absurd (List.cons.inj hlast).1.symm (hcall _ _ _)
  · exact hp

theorem receive (h : SafeCalls args calls) {request : ReceiveRequest}
    (hsize : 1 ≤ request.MaxNumberOfMessages ∧ request.MaxNumberOfMessages ≤ 10)
    (answer : Except PyExc (List SqsMessage)) :
    SafeCalls args (calls ++ [.receive request answer]) := by
  refine ⟨?_, ?_, ?_, ?_, ?_⟩
  · intro before queueUrl handle answer' hd
    exact h.deletes before queueUrl handle answer'
      (deletes_concat (fun _ _ _ he => by cases he) hd)
  · intro queueUrl body answer' hs
    rcases List.mem_append.mp hs with hs | hs
    · exact h.sends queueUrl body answer' hs
    · cases List.mem_singleton.mp hs
  · rw [List.countP_append]
    exact h.atMost
  · intro hdry call hc
    rcases List.mem_append.mp hc with hc | hc
    · exact h.dryRun hdry call hc
    · rw [List.mem_singleton.mp hc]
      rfl
  · intro request' answer' hr
    rcases List.mem_append.mp hr with hr | hr
    · exact h.receives request' answer' hr
    · cases List.mem_singleton.mp hr
      exact hsize

/-- One more send is safe in an apply pass with some left to move. -/
theorem send (h : SafeCalls args calls) (happly : args.apply = true) {body : PyStr}
    (hbody : bodyMatches body args.bodyFilter = true)
    (hleft : (calls.countP SqsCall.isSend : Int) < args.maxMessages)
    (answer : Except PyExc Unit) :
    SafeCalls args (calls ++ [.send args.destUrl body answer]) := by
  refine ⟨?_, ?_, ?_, ?_, ?_⟩
  · intro before queueUrl handle answer' hd
    exact h.deletes before queueUrl handle answer'
      (deletes_concat (fun _ _ _ he => by cases he) hd)
  · intro queueUrl body' answer' hs
    rcases List.mem_append.mp hs with hs | hs
    · exact h.sends queueUrl body' answer' hs
    · cases List.mem_singleton.mp hs
      exact ⟨rfl, hbody⟩
  · rw [List.countP_append]
    show ((calls.countP SqsCall.isSend + 1 : Nat) : Int) ≤ _
    push_cast
    omega
  · intro hdry
    rw [happly] at hdry
    cases hdry
  · intro request answer' hr
    rcases List.mem_append.mp hr with hr | hr
    · exact h.receives request answer' hr
    · cases List.mem_singleton.mp hr

/-- After a send that went through, the delete of a received message with that body. -/
theorem delete (h : SafeCalls args (calls ++ [.send args.destUrl msg.bodyText (.ok ())]))
    (happly : args.apply = true) (hrecv : Received calls msg)
    {handle : PyStr} (hhandle : msg.ReceiptHandle = some handle) (answer : Except PyExc Unit) :
    SafeCalls args (calls ++ [.send args.destUrl msg.bodyText (.ok ())] ++
      [.delete args.dlqUrl handle answer]) := by
  refine ⟨?_, ?_, ?_, ?_, ?_⟩
  · intro before queueUrl handle' answer' hd
    rcases List.prefix_concat_iff.mp hd with heq | hp
    · -- the delete asked about is the new one
      obtain ⟨hbefore, hlast⟩ := List.append_inj' heq rfl
      cases hlast
      exact ⟨rfl, calls, msg, hbefore, hhandle, hrecv⟩
    · exact h.deletes before queueUrl handle' answer' hp
  · intro queueUrl body answer' hs
    rcases List.mem_append.mp hs with hs | hs
    · exact h.sends queueUrl body answer' hs
    · cases List.mem_singleton.mp hs
  · rw [List.countP_append]
    exact h.atMost
  · intro hdry
    rw [happly] at hdry
    cases hdry
  · intro request answer' hr
    rcases List.mem_append.mp hr with hr | hr
    · exact h.receives request answer' hr
    · cases List.mem_singleton.mp hr

end SafeCalls

/-! ## The counters -/

theorem Accounts.start (args : ReplayArgs) : Accounts args (.start !args.apply) where
  scanned := rfl
  moved := by
    show 0 = if args.apply then 0 else 0
    split <;> rfl
  previews := (Nat.zero_min _).symm

theorem Accounts.skip {args : ReplayArgs} {r : ReplayResult} (h : Accounts args r) :
    Accounts args r.skip where
  scanned := by
    have := h.scanned
    show r.scanned + 1 = r.matched + (r.skippedFilter + 1)
    omega
  moved := h.moved
  previews := h.previews

/-- A message that passes the filter adds a preview while there is room for one. -/
theorem accept_previews {args : ReplayArgs} {r : ReplayResult} (h : Accounts args r)
    (msg : SqsMessage) :
    (r.accept args msg).previews.length = min (r.matched + 1) args.previewLimit := by
  have hlen := h.previews
  show (if r.previews.length < args.previewLimit then r.previews ++ [_] else r.previews).length = _
  split
  · rw [List.length_append, List.length_singleton]
    omega
  · omega

theorem Accounts.preview {args : ReplayArgs} {r : ReplayResult} (h : Accounts args r)
    (hdry : args.apply = false) (msg : SqsMessage) : Accounts args (r.accept args msg) where
  scanned := by
    have := h.scanned
    show r.scanned + 1 = r.matched + 1 + r.skippedFilter
    omega
  moved := by
    have := h.moved
    rw [hdry] at this ⊢
    exact this
  previews := accept_previews h msg

theorem Accounts.move {args : ReplayArgs} {r : ReplayResult} (h : Accounts args r)
    (happly : args.apply = true) (msg : SqsMessage) : Accounts args (r.move args msg) where
  scanned := by
    have := h.scanned
    show r.scanned + 1 = r.matched + 1 + r.skippedFilter
    omega
  moved := by
    have := h.moved
    rw [happly, if_pos rfl] at this ⊢
    show r.moved + 1 = r.matched + 1
    rw [this]
  previews := accept_previews h msg

/-! ## The scan, and a round -/

/-- The counters and the calls of a run that is going on: each message that was counted
as moved was sent, and no more matched than were asked for. -/
structure Balanced (args : ReplayArgs) (r : ReplayResult) (calls : List SqsCall) : Prop where
  accounts : Accounts args r
  safe : SafeCalls args calls
  sent : calls.countP SqsCall.isSend = r.moved
  capped : (r.matched : Int) ≤ max 0 args.maxMessages

/-- What has to hold after a part of the run: the calls are safe, and balanced if it
returned. -/
def Sound (args : ReplayArgs) (ran : Except PyExc ReplayResult × (κ × List SqsCall)) : Prop :=
  SafeCalls args ran.2.2 ∧ ∀ r, ran.1 = .ok r → Balanced args r ran.2.2

theorem Sound.raised {args : ReplayArgs} {calls : List SqsCall} (h : SafeCalls args calls)
    (e : PyExc) (q : κ) : Sound args (.error e, (q, calls)) :=
  ⟨h, fun _ he => nomatch he⟩

theorem Sound.returned {args : ReplayArgs} {r : ReplayResult} {calls : List SqsCall}
    (h : Balanced args r calls) (q : κ) : Sound args (.ok r, (q, calls)) :=
  ⟨h.safe, fun _ he => Except.ok.inj he ▸ h⟩

/-- What `move` has called: nothing but the send if that raised or there is no handle,
and otherwise the delete as well. -/
theorem move_calls (sqs : Sqs κ) (args : ReplayArgs) (msg : SqsMessage) (q : κ)
    (calls : List SqsCall) :
    (∃ e q' answer, move sqs.traced args msg (q, calls) =
        (.error e, (q', calls ++ [.send args.destUrl msg.bodyText answer]))) ∨
      ∃ ran q' handle answer, msg.ReceiptHandle = some handle ∧
        move sqs.traced args msg (q, calls) =
          (ran, (q', calls ++ [.send args.destUrl msg.bodyText (.ok ())] ++
            [.delete args.dlqUrl handle answer])) := by
  cases hsend : sqs.sendMessage args.destUrl msg.bodyText q with
  | mk answer q' =>
    have htraced : sqs.traced.sendMessage args.destUrl msg.bodyText (q, calls) =
        (answer, (q', calls ++ [.send args.destUrl msg.bodyText answer])) :=
      Action.logged_eq hsend _
    cases answer with
    | error e =>
      left
      exact ⟨e, q', .error e, Action.bind_error htraced _⟩
    | ok u =>
      rw [move, Action.bind_ok htraced]
      cases hhandle : msg.ReceiptHandle with
      | none =>
        left
        exact ⟨_, q', .ok (), rfl⟩
      | some handle =>
        right
        exact ⟨_, _, handle, _, rfl, rfl⟩

/-- **The scan of one batch**, whatever its messages are and wherever it breaks off. -/
theorem scan_sound (sqs : Sqs κ) (args : ReplayArgs) (messages : List SqsMessage)
    {r : ReplayResult} (q : κ) {calls : List SqsCall} (h : Balanced args r calls)
    (hleft : (r.matched : Int) < args.maxMessages)
    (hrecv : ∀ msg ∈ messages, Received calls msg) :
    Sound args (scan sqs.traced args messages r (q, calls)) := by
  induction messages generalizing r q calls with
  | nil => exact Sound.returned h q
  | cons msg messages ih =>
    have htail : ∀ msg' ∈ messages, Received calls msg' := by
      intro msg' hmsg'
      exact hrecv msg' (List.mem_cons_of_mem _ hmsg')
    by_cases hm : args.selects msg = true
    · by_cases happly : args.apply = true
      · have hmoved := h.accounts.moved
        rw [happly, if_pos rfl] at hmoved
        have hsent : (calls.countP SqsCall.isSend : Int) < args.maxMessages := by
          rw [h.sent, hmoved]
          exact hleft
        have hsafe : ∀ answer, SafeCalls args
            (calls ++ [.send args.destUrl msg.bodyText answer]) := by
          intro answer
          exact h.safe.send happly hm hsent answer
        obtain ⟨e, q', answer, hmove⟩ | ⟨ran, q', handle, answer, hhandle, hmove⟩ :=
          move_calls sqs args msg q calls
        · rw [scan_raised happly hm hmove]
          exact Sound.raised (hsafe answer) e q'
        · have hboth := (hsafe (.ok ())).delete happly (hrecv msg List.mem_cons_self) hhandle
            answer
          cases ran with
          | error e =>
            rw [scan_raised happly hm hmove]
            exact Sound.raised hboth e q'
          | ok u =>
            have hmatched : (r.move args msg).matched = r.matched + 1 := rfl
            have hbalanced : Balanced args (r.move args msg)
                (calls ++ [.send args.destUrl msg.bodyText (.ok ())] ++
                  [.delete args.dlqUrl handle answer]) := by
              refine ⟨h.accounts.move happly msg, hboth, ?_, ?_⟩
              · rw [List.countP_append, List.countP_append, h.sent]
                rfl
              · rw [hmatched]
                push_cast
                omega
            rw [scan_moved happly hm hmove]
            split
            · exact Sound.returned hbalanced q'
            · refine ih q' hbalanced (by rw [hmatched]; push_cast; omega) ?_
              intro msg' hmsg'
              exact ((htail msg' hmsg').append _).append _
      · -- a dry run counts the message and calls nothing
        have hdry : args.apply = false := by
          cases happ : args.apply with
          | true => exact absurd happ happly
          | false => rfl
        have hmatched : (r.accept args msg).matched = r.matched + 1 := rfl
        have hbalanced : Balanced args (r.accept args msg) calls :=
          ⟨h.accounts.preview hdry msg, h.safe, h.sent, by rw [hmatched]; push_cast; omega⟩
        have hscan := scan_dry sqs.traced hdry messages (r.accept args msg) (q, calls)
        rw [scan_dry _ hdry, preview, if_neg (by rw [hm]; decide)]
        split
        · exact Sound.returned hbalanced q
        · rename_i hmax
          rw [← hscan]
          exact ih q hbalanced (by omega) htail
    · rw [scan_skip _ (by cases hs : args.selects msg <;> simp_all)]
      exact ih q ⟨h.accounts.skip, h.safe, h.sent, h.capped⟩ hleft htail

/-- The arguments of a receive that is made ask for one to ten messages. -/
theorem receive_size (args : ReplayArgs) {matched : Nat} (h : (matched : Int) < args.maxMessages) :
    1 ≤ (args.receive matched).MaxNumberOfMessages ∧
      (args.receive matched).MaxNumberOfMessages ≤ 10 := by
  show 1 ≤ min (10 : Int) (args.maxMessages - matched) ∧
    min (10 : Int) (args.maxMessages - matched) ≤ 10
  omega

/-- **A round** from a balanced state stops soundly or goes on balanced. -/
theorem replayStep_sound (sqs : Sqs κ) (args : ReplayArgs) {r : ReplayResult} (q : κ)
    {calls : List SqsCall} (h : Balanced args r calls) :
    (replayStep sqs.traced args (r, (q, calls))).elim (Sound args)
      (fun going => Balanced args going.1 going.2.2) := by
  rw [replayStep]
  split
  · rename_i hleft
    cases hrecv : sqs.receiveMessage (args.receive r.matched) q with
    | mk answer q' =>
      have htraced : sqs.traced.receiveMessage (args.receive r.matched) (q, calls) =
          (answer, (q', calls ++ [.receive (args.receive r.matched) answer])) :=
        Action.logged_eq hrecv _
      have hsafe := h.safe.receive (receive_size args hleft) answer
      have hbalanced : Balanced args r (calls ++ [.receive (args.receive r.matched) answer]) := by
        refine ⟨h.accounts, hsafe, ?_, h.capped⟩
        rw [List.countP_append, h.sent]
        rfl
      rw [htraced]
      cases answer with
      | error e => exact Sound.raised hsafe e q'
      | ok messages =>
        cases messages with
        | nil => exact Sound.returned hbalanced q'
        | cons msg messages =>
          have hscan : Sound args (scan sqs.traced args (msg :: messages) r
              (q', calls ++ [.receive (args.receive r.matched) (.ok (msg :: messages))])) := by
            refine scan_sound sqs args (msg :: messages) q' hbalanced hleft ?_
            -- the batch just received is in the calls
            intro msg' hmsg'
            exact ⟨_, _, List.mem_append_right _ (List.mem_singleton.mpr rfl), hmsg'⟩
          dsimp only
          generalize scan sqs.traced args (msg :: messages) r
            (q', calls ++ [.receive (args.receive r.matched) (.ok (msg :: messages))]) = ran
            at hscan ⊢
          obtain ⟨result, s⟩ := ran
          cases result with
          | error e => exact hscan
          | ok r' => exact hscan.2 r' rfl
  · exact Sound.returned h q

theorem balanced_start (args : ReplayArgs) : Balanced args (.start !args.apply) [] where
  accounts := Accounts.start args
  safe := SafeCalls.nil args
  sent := rfl
  capped := le_max_left 0 _

/-- **Any number of rounds** from the start. -/
theorem replay_sound (sqs : Sqs κ) (args : ReplayArgs) (rounds : Nat) (q : κ) :
    (Loop.upTo (replayStep sqs.traced args) rounds (.start !args.apply, (q, []))).elim
      (Sound args) (fun going => Balanced args going.1 going.2.2) := by
  refine Loop.upTo_inv
    (fun going : ReplayResult × κ × List SqsCall => Balanced args going.1 going.2.2) (Sound args)
    ?_ ?_ rounds (balanced_start args)
  · intro s s' hs hstep
    have h := replayStep_sound sqs args s.2.1 hs
    rwa [hstep] at h
  · intro s ended hs hstep
    have h := replayStep_sound sqs args s.2.1 hs
    rwa [hstep] at h

/-- Wherever a replay is, its calls are safe. -/
theorem callsMade_safe (sqs : Sqs κ) (args : ReplayArgs) (rounds : Nat) (q : κ) :
    SafeCalls args (callsMade sqs args rounds q) := by
  have h := replay_sound sqs args rounds q
  rw [callsMade]
  cases hup : Loop.upTo (replayStep sqs.traced args) rounds (.start !args.apply, (q, [])) with
  | inl ended =>
    rw [hup] at h
    exact h.1
  | inr going =>
    rw [hup] at h
    exact h.safe

/-- What a replay that returns has counted. -/
theorem replay_accounts (sqs : Sqs κ) (args : ReplayArgs) {rounds : Nat} {q q' : κ}
    {r : ReplayResult} (h : replay sqs args rounds q = some (.ok r, q')) : Accounts args r := by
  rw [replay_traced] at h
  obtain ⟨ended, hran, hended⟩ := Option.map_eq_some_iff.mp h
  have hsound := replay_sound sqs args rounds q
  rw [Loop.loop_eq_some.mp hran] at hsound
  exact (hsound.2 r (congrArg Prod.fst hended)).accounts

/-- **Replay is safe against any queue.** Whatever the client does, at every point of the run
its calls are safe: each delete directly follows the send of that message, what is sent passes
the filter, there are never more sends than were asked for, a dry run only receives, and every
receive asks for one to ten messages. And if the run returns, its counters add up. -/
theorem replay_safe (sqs : Sqs κ) (args : ReplayArgs) (rounds : Nat) (q : κ) :
    (∀ calls, calls <+: callsMade sqs args rounds q → SafeCalls args calls) ∧
      ∀ r q', replay sqs args rounds q = some (.ok r, q') → Accounts args r := by
  constructor
  · intro calls hpast
    exact (callsMade_safe sqs args rounds q).past hpast
  · intro r q' h
    exact replay_accounts sqs args h

end LingoAsync.Scripts
