import LingoAsync.Scripts.DlqPreview
import LingoAsync.Scripts.DlqSafety

/-!
# The script around the replay

`main` of `scripts/dlq-replay.py`: it finds the two queues, previews, asks the operator, and only
then moves. The client and the terminal are a `Desk`, which may do whatever it likes; every call of
it may raise, and a preview need not come to an end. So a run is looked at after some number of
rounds of its loops, wherever it is by then.

Until the operator has consented the script does nothing but receive (`main_consents`): consent is
`--apply`, a preview that found something, and `--yes` or the word `yes` at the prompt.
-/

namespace LingoAsync.Scripts

open LingoAsync.Text

/-- `DEFAULT_DLQ`. -/
def DEFAULT_DLQ : PyStr := py "lingo-events-dlq"

/-- `DEFAULT_DEST`. -/
def DEFAULT_DEST : PyStr := py "lingo-events"

/-- What `main` works with: the client of the queues, and the terminal. -/
structure Desk (κ : Type) extends Sqs κ where
  /-- `sqs.get_queue_url(QueueName=…)["QueueUrl"]` -/
  getQueueUrl : (queueName : PyStr) → Py κ PyStr
  print : PyStr → Py κ Unit
  input : (prompt : PyStr) → Py κ PyStr

/-- The parsed arguments; the region goes into the making of the client. -/
structure CliArgs where
  dlq : PyStr
  dest : PyStr
  maxMessages : Int
  bodyFilter : Option PyStr
  apply : Bool
  yes : Bool
  deriving DecidableEq, Repr

/-- Why the script is no further: it raised, or it is still at it. -/
inductive Stop where
  | raised (e : PyExc)
  | going
  deriving DecidableEq, Repr

/-- A part of the script, looked at after some rounds of its loops. -/
abbrev Script (κ : Type) := Action Stop κ

variable {κ : Type}

/-- A part without a loop. -/
def Script.of {α : Type} (m : Py κ α) : Script κ α := fun q => ((m q).1.mapError .raised, (m q).2)

/-- `replay`, as far as it gets in `rounds` rounds. -/
def replayFor (sqs : Sqs κ) (args : ReplayArgs) (rounds : Nat) : Script κ ReplayResult := fun q =>
  match Loop.upTo (replayStep sqs args) rounds (.start !args.apply, q) with
  | .inl ended => (ended.1.mapError .raised, ended.2)
  | .inr going => (.error .going, going.2)

/-- The line of a preview: its number, its id and the first 200 characters of its body. -/
def previewLine (i : Nat) (p : Preview) : PyStr :=
  let snippet := if p.Body.length ≤ 200 then p.Body else p.Body.take 200 ++ py "…"
  py "  " ++ Json.dumpsNat i ++ py ". id=" ++ p.MessageId.getD (py "None") ++
    py "\n     " ++ snippet

/-- `for i, p in enumerate(result.previews, 1)`. -/
def printPreviews (desk : Desk κ) : (i : Nat) → List Preview → Py κ Unit
  | _, [] => pure ()
  | i, p :: previews => do
    desk.print (previewLine i p)
    printPreviews desk (i + 1) previews

/-- `_print_preview`. -/
def printPreview (desk : Desk κ) (result : ReplayResult) (dest : PyStr) : Py κ Unit := do
  let mode := if result.dryRun then py "DRY-RUN (no messages moved)" else py "APPLY"
  desk.print (py "\n=== DLQ replay preview [" ++ mode ++ py "] ===")
  desk.print (py "scanned=" ++ Json.dumpsNat result.scanned ++ py " matched=" ++
    Json.dumpsNat result.matched ++ py " skipped_by_filter=" ++ Json.dumpsNat result.skippedFilter)
  if result.previews = [] then desk.print (py "(no matching messages)")
  else do
    desk.print (py "\nWould move " ++ Json.dumpsNat result.matched ++ py " message(s) → " ++ dest ++
      py ". Showing first " ++ Json.dumpsNat result.previews.length ++ py ":")
    printPreviews desk 1 result.previews

/-- The question at the prompt. -/
def confirmPrompt (cli : CliArgs) (matched : Nat) : PyStr :=
  py "\nMove " ++ Json.dumpsNat matched ++ py " message(s) from " ++ cli.dlq ++ py " → " ++
    cli.dest ++ py "? Type 'yes' to proceed: "

/-- `--yes`, or what the operator types. -/
def confirmed (desk : Desk κ) (cli : CliArgs) (matched : Nat) : Py κ Bool :=
  if cli.yes then pure true
  else do
    let confirm ← desk.input (confirmPrompt cli matched)
    pure (strip confirm = py "yes")

/-- The second pass. -/
def applyPass (desk : Desk κ) (cli : CliArgs) (dlqUrl destUrl : PyStr) (rounds : Nat) :
    Script κ Nat := do
  let applied ← replayFor desk.toSqs
    (mainArgs dlqUrl destUrl cli.maxMessages cli.bodyFilter true) rounds
  Script.of (desk.print (py "\nMoved " ++ Json.dumpsNat applied.moved ++ py " message(s) → " ++
    cli.dest ++ py "."))
  pure 0

/-- What `main` does after the first pass. -/
def afterPreview (desk : Desk κ) (cli : CliArgs) (dlqUrl destUrl : PyStr) (rounds matched : Nat) :
    Script κ Nat :=
  if cli.apply = false then do
    Script.of (desk.print (py "\nDry-run only. Re-run with --apply to move these messages."))
    pure 0
  else if matched = 0 then do
    Script.of (desk.print (py "\nNothing to move."))
    pure 0
  else do
    if ← Script.of (confirmed desk cli matched) then applyPass desk cli dlqUrl destUrl rounds
    else do
      Script.of (desk.print (py "Aborted."))
      pure 1

/-- `main`: its exit status. -/
def main (desk : Desk κ) (cli : CliArgs) (rounds : Nat) : Script κ Nat := do
  let dlqUrl ← Script.of (desk.getQueueUrl cli.dlq)
  let destUrl ← Script.of (desk.getQueueUrl cli.dest)
  let preview ← replayFor desk.toSqs
    (mainArgs dlqUrl destUrl cli.maxMessages cli.bodyFilter false) rounds
  Script.of (printPreview desk preview cli.dest)
  afterPreview desk cli dlqUrl destUrl rounds preview.matched

/-! ## A client seen through another -/

section Through

variable {τ : Type} {g : τ → κ}

/-- `sqs` does on `g t` what `sqs'` does on `t`. -/
structure Sqs.Over (g : τ → κ) (sqs' : Sqs τ) (sqs : Sqs κ) : Prop where
  receiveMessage : ∀ request, Action.Through g (sqs'.receiveMessage request)
    (sqs.receiveMessage request)
  sendMessage : ∀ queueUrl messageBody, Action.Through g (sqs'.sendMessage queueUrl messageBody)
    (sqs.sendMessage queueUrl messageBody)
  deleteMessage : ∀ queueUrl receiptHandle, Action.Through g
    (sqs'.deleteMessage queueUrl receiptHandle) (sqs.deleteMessage queueUrl receiptHandle)

variable {sqs' : Sqs τ} {sqs : Sqs κ} (h : sqs'.Over g sqs)

include h

theorem through_move (args : ReplayArgs) (msg : SqsMessage) :
    Action.Through g (move sqs' args msg) (move sqs args msg) := by
  refine Action.through_bind (h.sendMessage _ _) fun _ => ?_
  cases msg.ReceiptHandle with
  | some handle => exact h.deleteMessage _ _
  | none => exact Action.through_raise _

theorem through_scan (args : ReplayArgs) (messages : List SqsMessage) (r : ReplayResult) :
    Action.Through g (scan sqs' args messages r) (scan sqs args messages r) := by
  induction messages generalizing r with
  | nil => exact Action.through_pure _
  | cons msg messages ih =>
    rw [scan, scan]
    split
    · exact ih _
    · have hrest : ∀ r' : ReplayResult, Action.Through g
          (if args.maxMessages ≤ r'.matched then pure r' else scan sqs' args messages r')
          (if args.maxMessages ≤ r'.matched then pure r' else scan sqs args messages r') := by
        intro r'
        split
        · exact Action.through_pure _
        · exact ih r'
      dsimp only
      split
      · exact Action.through_bind (through_move h args msg) fun _ =>
          Action.through_bind (Action.through_pure _) hrest
      · exact Action.through_bind (Action.through_pure _) hrest

theorem replayStep_through (args : ReplayArgs) (c : ReplayResult × τ) :
    replayStep sqs args (Prod.map id g c) =
      (replayStep sqs' args c).map (Prod.map id g) (Prod.map id g) := by
  obtain ⟨r, t⟩ := c
  rw [Prod.map_apply, replayStep, replayStep]
  dsimp only [id]
  split
  · rw [h.receiveMessage]
    cases sqs'.receiveMessage (args.receive r.matched) t with
    | mk answer t' =>
      cases answer with
      | error e => rfl
      | ok messages =>
        cases messages with
        | nil => rfl
        | cons msg messages =>
          dsimp only
          rw [through_scan h args (msg :: messages) r t']
          cases scan sqs' args (msg :: messages) r t' with
          | mk ran t'' => cases ran <;> rfl
  · rfl

/-- **A replay sees no more of its client than the client shows.** -/
theorem through_replayFor (args : ReplayArgs) (rounds : Nat) :
    Action.Through g (replayFor sqs' args rounds) (replayFor sqs args rounds) := by
  intro t
  have hmap := Loop.upTo_map (Prod.map id g) (Prod.map id g) (replayStep_through h args) rounds
    (.start !args.apply, t)
  rw [Prod.map_apply] at hmap
  dsimp only [id] at hmap
  rw [replayFor, replayFor, hmap]
  cases Loop.upTo (replayStep sqs' args) rounds (.start !args.apply, t) <;> rfl

end Through

/-! ## What the script does, in order -/

/-- A call of the client, or what came back from the prompt. -/
inductive DeskEvent where
  | queue (call : SqsCall)
  | heard (prompt : PyStr) (reply : Except PyExc PyStr)

/-- The desk, with its events written down. -/
def Desk.recorded (desk : Desk κ) : Desk (κ × List DeskEvent) where
  receiveMessage request := (desk.receiveMessage request).logged (.queue ∘ .receive request)
  sendMessage queueUrl messageBody :=
    (desk.sendMessage queueUrl messageBody).logged (.queue ∘ .send queueUrl messageBody)
  deleteMessage queueUrl receiptHandle :=
    (desk.deleteMessage queueUrl receiptHandle).logged (.queue ∘ .delete queueUrl receiptHandle)
  getQueueUrl queueName := (desk.getQueueUrl queueName).onFst
  print text := (desk.print text).onFst
  input prompt := (desk.input prompt).logged (.heard prompt)

/-- Its client writes the calls of `Sqs.traced` down, after what is there already. -/
theorem recorded_over (desk : Desk κ) (log : List DeskEvent) :
    desk.toSqs.traced.Over (fun s => (s.1, log ++ s.2.map .queue)) desk.recorded.toSqs := by
  have hlogged : ∀ {α : Type} (m : Py κ α) (entry : Except PyExc α → SqsCall),
      Action.Through (fun s : κ × List SqsCall => (s.1, log ++ s.2.map .queue))
        (m.logged entry) (m.logged (DeskEvent.queue ∘ entry)) := by
    intro α m entry t
    have hlog : log ++ t.2.map .queue ++ [DeskEvent.queue (entry (m t.1).1)] =
        log ++ (t.2 ++ [entry (m t.1).1]).map .queue := by
      rw [List.map_append, List.append_assoc]
      rfl
    exact congrArg (fun l => ((m t.1).1, ((m t.1).2, l))) hlog
  exact ⟨fun _ => hlogged _ _, fun _ _ => hlogged _ _, fun _ _ => hlogged _ _⟩

theorem replayFor_traced (sqs : Sqs κ) (args : ReplayArgs) (rounds : Nat) (q : κ) :
    (replayFor sqs.traced args rounds (q, [])).2.2 = callsMade sqs args rounds q := by
  rw [replayFor, callsMade]
  cases Loop.upTo (replayStep sqs.traced args) rounds (.start !args.apply, (q, [])) <;> rfl

/-- A pass writes down the calls of its replay. -/
theorem replayFor_recorded (desk : Desk κ) (args : ReplayArgs) (rounds : Nat) (q : κ)
    (log : List DeskEvent) :
    ∃ ran q', replayFor desk.recorded.toSqs args rounds (q, log) =
      (ran, (q', log ++ (callsMade desk.toSqs args rounds q).map .queue)) := by
  have hthrough := through_replayFor (recorded_over desk log) args rounds (q, [])
  dsimp only at hthrough
  rw [List.map_nil, List.append_nil, replayFor_traced] at hthrough
  exact ⟨_, _, hthrough⟩

/-! ### Writing the events down changes nothing -/

section Same

theorem through_of {α τ : Type} {g : τ → κ} {m' : Py τ α} {m : Py κ α}
    (h : Action.Through g m' m) : Action.Through g (Script.of m') (Script.of m) := by
  intro t
  exact congrArg (fun r => (r.1.mapError Stop.raised, r.2)) (h t)

variable (desk : Desk κ)

theorem recorded_forgets : desk.recorded.toSqs.Over Prod.fst desk.toSqs :=
  ⟨fun _ _ => rfl, fun _ _ _ => rfl, fun _ _ _ => rfl⟩

theorem recorded_print (text : PyStr) :
    Action.Through Prod.fst (desk.recorded.print text) (desk.print text) := fun _ => rfl

theorem through_printPreviews (i : Nat) (previews : List Preview) :
    Action.Through Prod.fst (printPreviews desk.recorded i previews)
      (printPreviews desk i previews) := by
  induction previews generalizing i with
  | nil => exact Action.through_pure _
  | cons p previews ih => exact Action.through_bind (recorded_print desk _) fun _ => ih (i + 1)

theorem through_printPreview (result : ReplayResult) (dest : PyStr) :
    Action.Through Prod.fst (printPreview desk.recorded result dest)
      (printPreview desk result dest) := by
  refine Action.through_bind (recorded_print desk _) fun _ =>
    Action.through_bind (recorded_print desk _) fun _ => ?_
  split
  · exact recorded_print desk _
  · exact Action.through_bind (recorded_print desk _) fun _ => through_printPreviews desk 1 _

theorem through_confirmed (cli : CliArgs) (matched : Nat) :
    Action.Through Prod.fst (confirmed desk.recorded cli matched) (confirmed desk cli matched) := by
  unfold confirmed
  split
  · exact Action.through_pure _
  · exact Action.through_bind (fun _ => rfl) fun _ => Action.through_pure _

theorem through_afterPreview (cli : CliArgs) (dlqUrl destUrl : PyStr) (rounds matched : Nat) :
    Action.Through Prod.fst (afterPreview desk.recorded cli dlqUrl destUrl rounds matched)
      (afterPreview desk cli dlqUrl destUrl rounds matched) := by
  have hprint : ∀ text, Action.Through Prod.fst (Script.of (desk.recorded.print text))
      (Script.of (desk.print text)) := fun text => through_of (recorded_print desk text)
  unfold afterPreview applyPass
  split
  · exact Action.through_bind (hprint _) fun _ => Action.through_pure _
  · split
    · exact Action.through_bind (hprint _) fun _ => Action.through_pure _
    · refine Action.through_bind (through_of (through_confirmed desk cli matched)) fun yes => ?_
      split
      · refine Action.through_bind (through_replayFor (recorded_forgets desk) _ rounds) fun _ => ?_
        exact Action.through_bind (hprint _) fun _ => Action.through_pure _
      · exact Action.through_bind (hprint _) fun _ => Action.through_pure _

/-- **A recorded run is the run.** -/
theorem through_main (cli : CliArgs) (rounds : Nat) :
    Action.Through Prod.fst (main desk.recorded cli rounds) (main desk cli rounds) := by
  refine Action.through_bind (through_of fun _ => rfl) fun _ => ?_
  refine Action.through_bind (through_of fun _ => rfl) fun _ => ?_
  refine Action.through_bind (through_replayFor (recorded_forgets desk) _ rounds) fun preview => ?_
  exact Action.through_bind (through_of (through_printPreview desk preview cli.dest)) fun _ =>
    through_afterPreview desk cli _ _ rounds _

end Same

/-! ## Parts of the script, and what they write down -/

/-- However it comes out, `m` adds events to those there are, and `P` holds of its result and of
them. -/
def Writes {α : Type} (m : Script (κ × List DeskEvent) α)
    (P : Except Stop α → List DeskEvent → Prop) : Prop :=
  ∀ q log, ∃ r q' events, m (q, log) = (r, (q', log ++ events)) ∧ P r events

section Writes

variable {α β : Type}

theorem Writes.mono {m : Script (κ × List DeskEvent) α}
    {P Q : Except Stop α → List DeskEvent → Prop}
    (h : Writes m P) (hPQ : ∀ r events, P r events → Q r events) : Writes m Q := by
  intro q log
  obtain ⟨r, q', events, hm, hP⟩ := h q log
  exact ⟨r, q', events, hm, hPQ r events hP⟩

theorem writes_pure {a : α} {P : Except Stop α → List DeskEvent → Prop} (h : P (.ok a) []) :
    Writes (pure a : Script (κ × List DeskEvent) α) P := by
  intro q log
  exact ⟨.ok a, q, [], by rw [List.append_nil]; rfl, h⟩

/-- One part after another; the second is reached only if the first returned. -/
theorem Writes.bind {m : Script (κ × List DeskEvent) α} {f : α → Script (κ × List DeskEvent) β}
    {P : Except Stop α → List DeskEvent → Prop} {Q : Except Stop β → List DeskEvent → Prop}
    (hm : Writes m P)
    (hf : ∀ a events, P (.ok a) events → Writes (f a) fun r more => Q r (events ++ more))
    (hstop : ∀ e events, P (.error e) events → Q (.error e) events) : Writes (m >>= f) Q := by
  intro q log
  obtain ⟨r, q', events, hrun, hP⟩ := hm q log
  cases r with
  | error e => exact ⟨.error e, q', events, Action.bind_error hrun f, hstop e events hP⟩
  | ok a =>
    obtain ⟨r', q'', more, hrun', hQ⟩ := hf a events hP q' (log ++ events)
    refine ⟨r', q'', events ++ more, ?_, hQ⟩
    rw [Action.bind_ok hrun f, hrun', List.append_assoc]

/-- A part that leaves the events alone. -/
theorem writes_of_keeps {m : Py (κ × List DeskEvent) α} (h : Action.Keeps Prod.snd m) :
    Writes (Script.of m) fun _ events => events = [] := by
  intro q log
  refine ⟨(m (q, log)).1.mapError .raised, (m (q, log)).2.1, [], ?_, rfl⟩
  rw [List.append_nil]
  exact congrArg (fun l => ((m (q, log)).1.mapError Stop.raised, ((m (q, log)).2.1, l)))
    (h (q, log))

/-- A quiet part, and then another. -/
theorem writes_after {m : Py (κ × List DeskEvent) α} {f : α → Script (κ × List DeskEvent) β}
    {Q : Except Stop β → List DeskEvent → Prop} (hm : Action.Keeps Prod.snd m)
    (hf : ∀ a, Writes (f a) Q) (hstop : ∀ e, Q (.error e) []) : Writes (Script.of m >>= f) Q := by
  refine (writes_of_keeps hm).bind ?_ ?_
  · intro a events he
    subst he
    exact hf a
  · intro e events he
    subst he
    exact hstop e

/-- What printing a line keeps of the state, a preview keeps. -/
theorem keeps_printPreviews {ν : Type} {f : κ → ν} {desk : Desk κ}
    (hprint : ∀ text, Action.Keeps f (desk.print text)) (i : Nat) (previews : List Preview) :
    Action.Keeps f (printPreviews desk i previews) := by
  induction previews generalizing i with
  | nil => exact Action.keeps_pure _
  | cons p previews ih => exact Action.keeps_bind (hprint _) fun _ => ih (i + 1)

theorem keeps_printPreview {ν : Type} {f : κ → ν} {desk : Desk κ}
    (hprint : ∀ text, Action.Keeps f (desk.print text)) (result : ReplayResult) (dest : PyStr) :
    Action.Keeps f (printPreview desk result dest) := by
  refine Action.keeps_bind (hprint _) fun _ => Action.keeps_bind (hprint _) fun _ => ?_
  split
  · exact hprint _
  · exact Action.keeps_bind (hprint _) fun _ => keeps_printPreviews hprint 1 _

/-- A pass writes its calls down, and they are safe. -/
theorem writes_pass (desk : Desk κ) (args : ReplayArgs) (rounds : Nat) :
    Writes (replayFor desk.recorded.toSqs args rounds) fun _ events =>
      ∃ calls, events = calls.map .queue ∧ SafeCalls args calls := by
  intro q log
  obtain ⟨ran, q', hrun⟩ := replayFor_recorded desk args rounds q log
  exact ⟨ran, q', _, hrun, _, rfl, callsMade_safe desk.toSqs args rounds q⟩

end Writes

/-! ## Consent -/

/-- What was heard is consent: `--yes`, or the word at a prompt that names something to move. -/
def Consent (cli : CliArgs) (heard : List DeskEvent) : Prop :=
  cli.apply = true ∧ ((cli.yes = true ∧ heard = []) ∨ ∃ matched reply, 0 < matched ∧
    heard = [.heard (confirmPrompt cli matched) (.ok reply)] ∧ strip reply = py "yes")

/-- The script has asked, if it had to, and has moved only on consent. -/
def AskedFirst (cli : CliArgs) (args : ReplayArgs) (r : Except Stop Nat)
    (events : List DeskEvent) : Prop :=
  ∃ heard applied, events = heard ++ applied.map .queue ∧ SafeCalls args applied ∧
    (applied = [] ∨ Consent cli heard) ∧ (∀ e ∈ heard, ∃ prompt reply, e = .heard prompt reply) ∧
    ∀ status, r = .ok status → status = 0 ∨ (status = 1 ∧ applied = [])

theorem askedFirst_quiet {cli : CliArgs} {args : ReplayArgs} {r : Except Stop Nat}
    {heard : List DeskEvent} (hheard : ∀ e ∈ heard, ∃ prompt reply, e = .heard prompt reply)
    (hr : ∀ status, r = .ok status → status = 0 ∨ status = 1) : AskedFirst cli args r heard := by
  refine ⟨heard, [], (List.append_nil _).symm, SafeCalls.nil args, .inl rfl, hheard, ?_⟩
  intro status h
  exact (hr status h).imp_right fun h1 => ⟨h1, rfl⟩

/-- What the prompt makes of a reply. -/
theorem writes_confirmed (desk : Desk κ) (cli : CliArgs) (matched : Nat) :
    Writes (Script.of (confirmed desk.recorded cli matched)) fun r events =>
      (∀ e ∈ events, ∃ prompt reply, e = .heard prompt reply) ∧
      (r = .ok true → (cli.yes = true ∧ events = []) ∨ ∃ reply,
        events = [.heard (confirmPrompt cli matched) (.ok reply)] ∧ strip reply = py "yes") := by
  unfold confirmed
  split
  · next hyes =>
    intro q log
    exact ⟨.ok true, q, [], by rw [List.append_nil]; rfl, List.forall_mem_nil _,
      fun _ => .inl ⟨hyes, rfl⟩⟩
  · intro q log
    have hask : desk.recorded.input (confirmPrompt cli matched) (q, log) =
        ((desk.input (confirmPrompt cli matched) q).1,
          ((desk.input (confirmPrompt cli matched) q).2, log ++
            [.heard (confirmPrompt cli matched) (desk.input (confirmPrompt cli matched) q).1])) :=
      rfl
    have hone : ∀ reply, ∀ e ∈ [DeskEvent.heard (confirmPrompt cli matched) reply],
        ∃ prompt reply, e = .heard prompt reply := by
      intro reply e he
      exact ⟨_, _, List.mem_singleton.mp he⟩
    rw [Script.of]
    cases hr : (desk.input (confirmPrompt cli matched) q).1 with
    | error e =>
      rw [hr] at hask
      rw [Action.bind_error hask]
      exact ⟨_, _, _, rfl, hone _, nofun⟩
    | ok reply =>
      rw [hr] at hask
      rw [Action.bind_ok hask]
      refine ⟨_, _, _, rfl, hone _, ?_⟩
      intro hyes
      exact .inr ⟨reply, rfl, of_decide_eq_true (Except.ok.inj hyes)⟩

/-- After the preview: nothing is moved without consent. -/
theorem writes_afterPreview (desk : Desk κ) (cli : CliArgs) (dlqUrl destUrl : PyStr)
    (rounds matched : Nat) :
    Writes (afterPreview desk.recorded cli dlqUrl destUrl rounds matched)
      (AskedFirst cli (mainArgs dlqUrl destUrl cli.maxMessages cli.bodyFilter true)) := by
  have hquiet : ∀ (r : Except Stop Nat), (∀ status, r = .ok status → status = 0 ∨ status = 1) →
      AskedFirst cli (mainArgs dlqUrl destUrl cli.maxMessages cli.bodyFilter true) r [] :=
    fun r hr => askedFirst_quiet (List.forall_mem_nil _) hr
  have hprint : ∀ text, Action.Keeps Prod.snd (desk.recorded.print text) := fun _ _ => rfl
  unfold afterPreview
  split
  · exact writes_after (hprint _) (fun _ => writes_pure (hquiet _ fun _ h =>
      .inl (Except.ok.inj h).symm)) fun _ => hquiet _ nofun
  · next happly =>
    split
    · exact writes_after (hprint _) (fun _ => writes_pure (hquiet _ fun _ h =>
        .inl (Except.ok.inj h).symm)) fun _ => hquiet _ nofun
    · next hmatched =>
      refine (writes_confirmed desk cli matched).bind ?_ ?_
      · intro yes heard hheard
        obtain ⟨hall, hconsent⟩ := hheard
        split
        · next hyes =>
          -- the operator has consented: whatever the second pass does is covered
          have hcons : Consent cli heard := by
            refine ⟨(by simpa using happly), ?_⟩
            rcases hconsent (congrArg _ hyes) with hflag | ⟨reply, hheard, hreply⟩
            · exact .inl hflag
            · exact .inr ⟨matched, reply, Nat.pos_of_ne_zero hmatched, hheard, hreply⟩
          refine (writes_pass desk _ rounds).bind ?_ ?_
          · intro applied events hevents
            obtain ⟨calls, rfl, hsafe⟩ := hevents
            have hdone : ∀ r : Except Stop Nat, (∀ status, r = .ok status → status = 0) →
                AskedFirst cli (mainArgs dlqUrl destUrl cli.maxMessages cli.bodyFilter true) r
                  (heard ++ (calls.map .queue ++ [])) := by
              intro r hr
              exact ⟨heard, calls, by rw [List.append_nil], hsafe, .inr hcons, hall,
                fun status h => .inl (hr status h)⟩
            exact writes_after (hprint _) (fun _ => writes_pure (hdone _ fun _ h =>
              (Except.ok.inj h).symm)) fun _ => hdone _ nofun
          · intro e events hevents
            obtain ⟨calls, rfl, hsafe⟩ := hevents
            exact ⟨heard, calls, rfl, hsafe, .inr hcons, hall, nofun⟩
        · have hdone : ∀ r : Except Stop Nat, (∀ status, r = .ok status → status = 1) →
              AskedFirst cli (mainArgs dlqUrl destUrl cli.maxMessages cli.bodyFilter true) r
                (heard ++ []) := by
            intro r hr
            rw [List.append_nil]
            exact askedFirst_quiet hall fun status h => .inr (hr status h)
          exact writes_after (hprint _) (fun _ => writes_pure (hdone _ fun _ h =>
            (Except.ok.inj h).symm)) fun _ => hdone _ nofun
      · intro e heard hheard
        exact askedFirst_quiet hheard.1 nofun

/-- The whole script: it previews, asks if it has to, and moves on consent. -/
def Proceeds (cli : CliArgs) (r : Except Stop Nat) (events : List DeskEvent) : Prop :=
  ∃ dlqUrl destUrl dry rest, events = dry.map .queue ++ rest ∧
    SafeCalls (mainArgs dlqUrl destUrl cli.maxMessages cli.bodyFilter false) dry ∧
    AskedFirst cli (mainArgs dlqUrl destUrl cli.maxMessages cli.bodyFilter true) r rest

theorem proceeds_quiet (cli : CliArgs) (dlqUrl destUrl : PyStr) {dry : List SqsCall}
    (hdry : SafeCalls (mainArgs dlqUrl destUrl cli.maxMessages cli.bodyFilter false) dry)
    (e : Stop) : Proceeds cli (.error e) (dry.map .queue) :=
  ⟨dlqUrl, destUrl, dry, [], (List.append_nil _).symm, hdry,
    askedFirst_quiet (List.forall_mem_nil _) nofun⟩

theorem writes_main (desk : Desk κ) (cli : CliArgs) (rounds : Nat) :
    Writes (main desk.recorded cli rounds) (Proceeds cli) := by
  have hurl : ∀ name, Action.Keeps Prod.snd (desk.recorded.getQueueUrl name) := fun _ _ => rfl
  have hnone : ∀ e, Proceeds cli (.error e) [] :=
    fun e => proceeds_quiet cli [] [] (SafeCalls.nil _) e
  refine writes_after (hurl _) (fun dlqUrl => ?_) hnone
  refine writes_after (hurl _) (fun destUrl => ?_) hnone
  refine (writes_pass desk _ rounds).bind ?_ ?_
  · intro preview events hevents
    obtain ⟨dry, rfl, hdry⟩ := hevents
    refine writes_after (keeps_printPreview (fun _ _ => rfl) preview cli.dest) (fun _ => ?_) ?_
    · refine (writes_afterPreview desk cli dlqUrl destUrl rounds preview.matched).mono ?_
      intro r rest hrest
      exact ⟨dlqUrl, destUrl, dry, rest, rfl, hdry, hrest⟩
    · intro e
      rw [List.append_nil]
      exact proceeds_quiet cli dlqUrl destUrl hdry e
  · intro e events hevents
    obtain ⟨dry, rfl, hdry⟩ := hevents
    exact proceeds_quiet cli dlqUrl destUrl hdry e

/-- **Nothing is moved without consent.** Whatever the queues and the terminal do, and wherever the
script is: its first calls are those of a dry run, which only receives; then it has heard at most
the operator's reply; and if it has made any calls after that, the operator has consented, with
`--apply` and with `--yes` or the word at a prompt that names something to move. Those calls are
safe: each delete directly follows the send of that message, and no more are sent than were asked
for. The script's status is 0, or 1 with nothing moved. -/
theorem main_consents (desk : Desk κ) (cli : CliArgs) (rounds : Nat) (q : κ) :
    ∃ (dlqUrl destUrl : PyStr) (dry : List SqsCall) (heard : List DeskEvent)
        (applied : List SqsCall),
      (main desk.recorded cli rounds (q, [])).2.2 =
        dry.map .queue ++ (heard ++ applied.map .queue) ∧
      (∀ call ∈ dry, call.isReceive = true) ∧
      (∀ e ∈ heard, ∃ prompt reply, e = .heard prompt reply) ∧
      (applied = [] ∨ Consent cli heard) ∧
      SafeCalls (mainArgs dlqUrl destUrl cli.maxMessages cli.bodyFilter true) applied ∧
      ∀ status, (main desk.recorded cli rounds (q, [])).1 = .ok status →
        status = 0 ∨ (status = 1 ∧ applied = []) := by
  obtain ⟨r, q', events, hrun, dlqUrl, destUrl, dry, rest, rfl, hdry, heard, applied, rfl, hsafe,
    hconsent, hheard, hstatus⟩ := writes_main desk cli rounds q []
  rw [hrun]
  exact ⟨dlqUrl, destUrl, dry, heard, applied, rfl, hdry.dryRun rfl, hheard, hconsent, hsafe,
    hstatus⟩

end LingoAsync.Scripts
