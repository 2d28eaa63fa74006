import LingoAsync.Loop
import LingoAsync.Python

/-!
# Replaying the dead-letter queue

`scripts/dlq-replay.py`. `replay` receives messages from the dead-letter queue,
keeps those whose body contains a filter, and, with `apply`, sends each to the
destination and then deletes it; without, it only previews. The `while` runs
until enough messages have matched or a receive comes back empty.

The SQS client is the structure `Sqs`, over whatever state the queue has, so
`replay` can be run against any queue; `Scripts/DlqQueue.lean` runs it against
queues that keep the visibility rules.
-/

namespace LingoAsync.Scripts

open LingoAsync.Text

/-- One entry of `resp["Messages"]`. -/
structure SqsMessage where
  MessageId : Option PyStr
  Body : Option PyStr
  ReceiptHandle : Option PyStr
  deriving DecidableEq, Repr

/-- The arguments of `receive_message`. -/
structure ReceiveRequest where
  QueueUrl : PyStr
  MaxNumberOfMessages : Int
  VisibilityTimeout : Nat
  WaitTimeSeconds : Nat
  MessageAttributeNames : List PyStr

/-- What the script uses of a boto3 SQS client whose queues are the state `κ`. -/
structure Sqs (κ : Type) where
  /-- `resp.get("Messages") or []` -/
  receiveMessage : ReceiveRequest → Py κ (List SqsMessage)
  sendMessage : (queueUrl messageBody : PyStr) → Py κ Unit
  deleteMessage : (queueUrl receiptHandle : PyStr) → Py κ Unit

structure Preview where
  MessageId : Option PyStr
  Body : PyStr
  deriving DecidableEq, Repr

structure ReplayResult where
  scanned : Nat
  matched : Nat
  moved : Nat
  skippedFilter : Nat
  previews : List Preview
  dryRun : Bool
  deriving DecidableEq, Repr

/-- `ReplayResult(dry_run=…)`. -/
def ReplayResult.start (dryRun : Bool) : ReplayResult where
  scanned := 0
  matched := 0
  moved := 0
  skippedFilter := 0
  previews := []
  dryRun := dryRun

/-- `_RECEIVE_BATCH`. -/
def RECEIVE_BATCH : Int := 10

/-- The arguments of `replay` but for the client. -/
structure ReplayArgs where
  dlqUrl : PyStr
  destUrl : PyStr
  maxMessages : Int
  bodyFilter : Option PyStr
  apply : Bool
  previewLimit : Nat
  deriving DecidableEq, Repr

/-- `_matches`. -/
def bodyMatches (body : PyStr) : (needle : Option PyStr) → Bool
  | none => true
  | some needle => contains needle body

/-- `msg.get("Body", "")`. -/
def SqsMessage.bodyText (msg : SqsMessage) : PyStr := msg.Body.getD []

/-- The message passes the filter. -/
def ReplayArgs.selects (args : ReplayArgs) (msg : SqsMessage) : Bool :=
  bodyMatches msg.bodyText args.bodyFilter

variable {κ : Type}

/-- `sqs.send_message(…); sqs.delete_message(…, ReceiptHandle=msg["ReceiptHandle"])`. -/
def move (sqs : Sqs κ) (args : ReplayArgs) (msg : SqsMessage) : Py κ Unit := do
  sqs.sendMessage args.destUrl msg.bodyText
  -- the subscript is evaluated after the send has gone out
  match msg.ReceiptHandle with
  | some handle => sqs.deleteMessage args.dlqUrl handle
  | none => Action.raise (.KeyError (py "ReceiptHandle"))

/-- The counters and previews after a message that does not pass the filter. -/
def ReplayResult.skip (r : ReplayResult) : ReplayResult :=
  { r with scanned := r.scanned + 1, skippedFilter := r.skippedFilter + 1 }

/-- The counters and previews after a message that passes it. -/
def ReplayResult.accept (r : ReplayResult) (args : ReplayArgs) (msg : SqsMessage) : ReplayResult :=
  { r with
    scanned := r.scanned + 1
    matched := r.matched + 1
    previews :=
      if r.previews.length < args.previewLimit then
        r.previews ++ [⟨msg.MessageId, msg.bodyText⟩]
      else r.previews }

/-- `for msg in messages`, with its `break`. -/
def scan (sqs : Sqs κ) (args : ReplayArgs) : List SqsMessage → ReplayResult → Py κ ReplayResult
  | [], r => pure r
  | msg :: messages, r =>
    if args.selects msg = false then scan sqs args messages r.skip
    else do
      let r := r.accept args msg
      let r ← if args.apply then do
          move sqs args msg
          pure { r with moved := r.moved + 1 }
        else pure r
      if args.maxMessages ≤ r.matched then pure r else scan sqs args messages r

/-- The arguments of one receive, with `matched` messages so far. -/
def ReplayArgs.receive (args : ReplayArgs) (matched : Nat) : ReceiveRequest where
  QueueUrl := args.dlqUrl
  MaxNumberOfMessages := min RECEIVE_BATCH (args.maxMessages - matched)
  VisibilityTimeout := if args.apply then 30 else 0
  WaitTimeSeconds := 1
  MessageAttributeNames := [py "All"]

/-- One round of the `while`: its test, a receive, and the `for`. -/
def replayStep (sqs : Sqs κ) (args : ReplayArgs) :
    ReplayResult × κ → (Except PyExc ReplayResult × κ) ⊕ (ReplayResult × κ)
  | (r, q) =>
    if r.matched < args.maxMessages then
      match sqs.receiveMessage (args.receive r.matched) q with
      | (.error e, q') => .inl (.error e, q')
      -- an empty receive counts as the end of the queue
      | (.ok [], q') => .inl (.ok r, q')
      | (.ok (msg :: messages), q') =>
        match scan sqs args (msg :: messages) r q' with
        | (.error e, q'') => .inl (.error e, q'')
        | (.ok r', q'') => .inr (r', q'')
    else .inl (.ok r, q)

/-- `replay`, for at most `fuel` rounds. -/
def replay (sqs : Sqs κ) (args : ReplayArgs) (fuel : Nat) (q : κ) :
    Option (Except PyExc ReplayResult × κ) :=
  Loop.loop (replayStep sqs args) fuel (.start !args.apply, q)

/-- `replay` comes to an end. -/
def ReplayHalts (sqs : Sqs κ) (args : ReplayArgs) (q : κ) : Prop :=
  Loop.Halts (replayStep sqs args) (.start !args.apply, q)

/-! ## What a round does -/

theorem replayStep_done {sqs : Sqs κ} {args : ReplayArgs} {r : ReplayResult} {q : κ}
    (h : args.maxMessages ≤ r.matched) : replayStep sqs args (r, q) = .inl (.ok r, q) := by
  rw [replayStep, if_neg (by omega)]

theorem replayStep_empty {sqs : Sqs κ} {args : ReplayArgs} {r : ReplayResult} {q q' : κ}
    (h : r.matched < args.maxMessages)
    (hrecv : sqs.receiveMessage (args.receive r.matched) q = (.ok [], q')) :
    replayStep sqs args (r, q) = .inl (.ok r, q') := by
  rw [replayStep, if_pos h, hrecv]

theorem replayStep_batch (sqs : Sqs κ) (args : ReplayArgs) {r : ReplayResult} {q q' : κ}
    {messages : List SqsMessage} (h : r.matched < args.maxMessages) (hne : messages ≠ [])
    (hrecv : sqs.receiveMessage (args.receive r.matched) q = (.ok messages, q')) :
    replayStep sqs args (r, q) =
      match scan sqs args messages r q' with
      | (.error e, q'') => .inl (.error e, q'')
      | (.ok r', q'') => .inr (r', q'') := by
  cases messages with
  | nil => exact absurd rfl hne
  | cons msg messages => rw [replayStep, if_pos h, hrecv]

/-! ## The dry run's scan -/

/-- A dry run's `for` touches no queue: it is a fold over the messages, up to the
one that makes enough. -/
def preview (args : ReplayArgs) : List SqsMessage → ReplayResult → ReplayResult
  | [], r => r
  | msg :: messages, r =>
    if args.selects msg = false then preview args messages r.skip
    else if args.maxMessages ≤ (r.accept args msg).matched then r.accept args msg
    else preview args messages (r.accept args msg)

theorem scan_dry (sqs : Sqs κ) {args : ReplayArgs} (hdry : args.apply = false)
    (messages : List SqsMessage) (r : ReplayResult) (q : κ) :
    scan sqs args messages r q = (.ok (preview args messages r), q) := by
  induction messages generalizing r with
  | nil => rfl
  | cons msg messages ih =>
    rw [scan, preview]
    by_cases hm : args.selects msg = false
    · rw [if_pos hm, if_pos hm]
      exact ih _
    · rw [if_neg hm, if_neg hm, hdry]
      show (if args.maxMessages ≤ _ then _ else scan sqs args messages _ : Py κ _) q = _
      by_cases hmax : args.maxMessages ≤ (r.accept args msg).matched
      · rw [if_pos hmax, if_pos hmax]
        rfl
      · rw [if_neg hmax, if_neg hmax]
        exact ih _

/-! ## The apply pass's scan -/

/-- The counters after a message was moved. -/
def ReplayResult.move (r : ReplayResult) (args : ReplayArgs) (msg : SqsMessage) : ReplayResult :=
  { r.accept args msg with moved := r.moved + 1 }

theorem scan_skip (sqs : Sqs κ) {args : ReplayArgs} {msg : SqsMessage}
    (hm : args.selects msg = false) (messages : List SqsMessage) (r : ReplayResult) (q : κ) :
    scan sqs args (msg :: messages) r q = scan sqs args messages r.skip q := by
  rw [scan, if_pos hm]

/-- A message is moved, and the scan goes on unless it was the last one wanted. -/
theorem scan_moved {sqs : Sqs κ} {args : ReplayArgs} {msg : SqsMessage} {q q' : κ}
    (happly : args.apply = true) (hm : args.selects msg = true)
    (hmove : move sqs args msg q = (.ok (), q')) (messages : List SqsMessage) (r : ReplayResult) :
    scan sqs args (msg :: messages) r q =
      if args.maxMessages ≤ r.matched + 1 then (.ok (r.move args msg), q')
      else scan sqs args messages (r.move args msg) q' := by
  rw [scan, if_neg (by rw [hm]; decide), happly, if_pos rfl]
  refine (Action.bind_ok hmove _).trans ?_
  have hcount : ((r.move args msg).matched : Int) = r.matched + 1 := by
    simp [ReplayResult.move, ReplayResult.accept]
  show (if args.maxMessages ≤ ((r.move args msg).matched : Int) then pure (r.move args msg)
    else scan sqs args messages (r.move args msg) : Py κ ReplayResult) q' = _
  rw [hcount]
  by_cases hmax : args.maxMessages ≤ r.matched + 1
  · rw [if_pos hmax, if_pos hmax]
    rfl
  · rw [if_neg hmax, if_neg hmax]

/-- A move that raises ends the scan. -/
theorem scan_raised {sqs : Sqs κ} {args : ReplayArgs} {msg : SqsMessage} {q q' : κ} {e : PyExc}
    (happly : args.apply = true) (hm : args.selects msg = true)
    (hmove : move sqs args msg q = (.error e, q')) (messages : List SqsMessage)
    (r : ReplayResult) : scan sqs args (msg :: messages) r q = (.error e, q') := by
  rw [scan, if_neg (by rw [hm]; decide), happly, if_pos rfl]
  exact Action.bind_error hmove _

end LingoAsync.Scripts
