import LingoAsync.Scripts.DlqReplay
import Mathlib.Data.List.Perm.Subperm

/-!
# Replay against a queue

A dead-letter queue under SQS's visibility rules, and what `replay` does to it.
How the queue picks the messages of a receive is its own affair: a `Delivery` is
any way of doing so that never comes back empty-handed while a message is
visible.

The loop leaves off when enough messages have matched or when a receive is empty.
A dry run receives with a visibility timeout of zero, so what it has seen comes
again, and no receive is empty while the queue holds anything. Hence `replay`
ends against every queue exactly in apply mode, or with nothing asked for, or
when every message passes the filter (`replay_halts_iff`): one message that does
not can be offered for ever.
-/

namespace LingoAsync.Scripts

open LingoAsync.Text LingoAsync.Loop

/-- How a queue answers: `offer k n visible` are the messages of the `k`-th
receive, when it asks for up to `n` and `visible` are the visible ones. -/
structure Delivery where
  offer : (k n : Nat) → List SqsMessage → List SqsMessage
  offer_ne_nil : ∀ k n visible, visible ≠ [] → 1 ≤ n → offer k n visible ≠ []
  offer_length : ∀ k n visible, (offer k n visible).length ≤ n
  offer_subperm : ∀ k n visible, (offer k n visible).Subperm visible

/-- The two queues: the messages in the dead-letter queue, those of them now
visible, the bodies sent to the destination; and the number of receives so far. -/
structure Queues where
  dlq : List SqsMessage
  visible : List SqsMessage
  dest : List PyStr
  receives : Nat

/-- A dead-letter queue with nothing in flight, and an empty destination. -/
def Queues.start (content : List SqsMessage) : Queues where
  dlq := content
  visible := content
  dest := []
  receives := 0

/-- The client of such queues. A message received with a timeout of zero stays
visible, any other is hidden; nothing ever fails. -/
def queueClient (d : Delivery) : Sqs Queues where
  receiveMessage req q :=
    let batch := d.offer q.receives req.MaxNumberOfMessages.toNat q.visible
    (.ok batch,
      { q with
        visible := if req.VisibilityTimeout = 0 then q.visible else q.visible.diff batch
        receives := q.receives + 1 })
  sendMessage _ body q := (.ok (), { q with dest := q.dest ++ [body] })
  deleteMessage _ handle q :=
    (.ok (), { q with
      dlq := q.dlq.filter fun m => m.ReceiptHandle ≠ some handle
      visible := q.visible.filter fun m => m.ReceiptHandle ≠ some handle })

/-- The messages of the receive that `matched` matches ask for. -/
def batch (d : Delivery) (args : ReplayArgs) (matched : Nat) (q : Queues) : List SqsMessage :=
  d.offer q.receives (args.receive matched).MaxNumberOfMessages.toNat q.visible

/-- While more matches are wanted, a receive asks for at least one message. -/
theorem receive_pos {args : ReplayArgs} {matched : Nat} (h : matched < args.maxMessages) :
    1 ≤ (args.receive matched).MaxNumberOfMessages.toNat := by
  simp only [ReplayArgs.receive, RECEIVE_BATCH]
  omega

theorem batch_ne_nil (d : Delivery) {args : ReplayArgs} {matched : Nat} {q : Queues}
    (h : matched < args.maxMessages) (hv : q.visible ≠ []) : batch d args matched q ≠ [] :=
  d.offer_ne_nil _ _ _ hv (receive_pos h)

theorem batch_mem {d : Delivery} {args : ReplayArgs} {matched : Nat} {q : Queues}
    {m : SqsMessage} (h : m ∈ batch d args matched q) : m ∈ q.visible :=
  (d.offer_subperm _ _ _).subset h

theorem batch_nil (d : Delivery) (args : ReplayArgs) (matched : Nat) {q : Queues}
    (hv : q.visible = []) : batch d args matched q = [] := by
  have := (d.offer_subperm q.receives (args.receive matched).MaxNumberOfMessages.toNat q.visible)
  rw [hv] at this
  exact List.subperm_nil.mp (by rwa [batch, hv])

/-- The queue after that receive. -/
def received (d : Delivery) (args : ReplayArgs) (matched : Nat) (q : Queues) : Queues :=
  { q with
    visible := if args.apply then q.visible.diff (batch d args matched q) else q.visible
    receives := q.receives + 1 }

theorem receive_eq (d : Delivery) (args : ReplayArgs) (matched : Nat) (q : Queues) :
    (queueClient d).receiveMessage (args.receive matched) q =
      (.ok (batch d args matched q), received d args matched q) := by
  cases h : args.apply <;> simp [queueClient, batch, received, ReplayArgs.receive, h]

theorem received_dry (d : Delivery) {args : ReplayArgs} (h : args.apply = false) (matched : Nat)
    (q : Queues) : received d args matched q = { q with receives := q.receives + 1 } := by
  simp [received, h]

/-- In apply mode a receive takes messages out of sight. -/
theorem received_visible_lt (d : Delivery) {args : ReplayArgs} (happly : args.apply = true)
    {matched : Nat} {q : Queues} (h : matched < args.maxMessages) (hv : q.visible ≠ []) :
    (received d args matched q).visible.length < q.visible.length := by
  have hsub :=
    (d.offer_subperm q.receives (args.receive matched).MaxNumberOfMessages.toNat q.visible)
  have hpos := List.length_pos_iff.mpr (batch_ne_nil d h hv)
  have hle := hsub.length_le
  have hdiff : (q.visible.diff (batch d args matched q)).length =
      q.visible.length - (batch d args matched q).length := by
    have hperm :
        (batch d args matched q ++ q.visible.diff (batch d args matched q)).Perm q.visible :=
      List.subperm_append_diff_self_of_count_le fun x _ => hsub.count_le x
    have := hperm.length_eq
    rw [List.length_append] at this
    omega
  simp only [received, happly, if_true, hdiff]
  unfold batch at *
  omega

/-- A move sends the body and deletes the message. -/
theorem move_eq (d : Delivery) (args : ReplayArgs) {msg : SqsMessage} {handle : PyStr}
    (h : msg.ReceiptHandle = some handle) (q : Queues) :
    move (queueClient d) args msg q =
      (.ok (), { q with
        dlq := q.dlq.filter fun m => m.ReceiptHandle ≠ some handle
        visible := q.visible.filter fun m => m.ReceiptHandle ≠ some handle
        dest := q.dest ++ [msg.bodyText] }) := by
  unfold move
  rw [h]
  rfl

/-! ## When replay ends -/

/-- Moving messages only ever takes from what is visible. -/
theorem scan_visible_le (d : Delivery) {args : ReplayArgs} (happly : args.apply = true)
    (messages : List SqsMessage) (r : ReplayResult) (q : Queues) :
    (scan (queueClient d) args messages r q).2.visible.length ≤ q.visible.length := by
  induction messages generalizing r q with
  | nil => exact Nat.le_refl _
  | cons msg messages ih =>
    cases hm : args.selects msg with
    | false =>
      rw [scan_skip _ hm]
      exact ih _ q
    | true =>
      cases hh : msg.ReceiptHandle with
      | none =>
        -- the body has been sent by then, and the message stays
        have hmove : move (queueClient d) args msg q =
            (.error (.KeyError (py "ReceiptHandle")),
              { q with dest := q.dest ++ [msg.bodyText] }) := by
          unfold move
          rw [hh]
          rfl
        rw [scan_raised happly hm hmove]
      | some handle =>
        rw [scan_moved happly hm (move_eq d args hh q)]
        have hle : (q.visible.filter fun m => m.ReceiptHandle ≠ some handle).length ≤
            q.visible.length := List.length_filter_le ..
        split
        · exact hle
        · exact (ih _ _).trans hle

/-- A round in apply mode that goes on leaves fewer messages visible. -/
theorem replayStep_apply_lt {d : Delivery} {args : ReplayArgs} (happly : args.apply = true)
    {r r' : ReplayResult} {q q' : Queues}
    (h : replayStep (queueClient d) args (r, q) = .inr (r', q')) :
    q'.visible.length < q.visible.length := by
  by_cases hr : (r.matched : Int) < args.maxMessages
  · by_cases hv : q.visible = []
    · rw [replayStep_empty hr (by rw [receive_eq, batch_nil d args r.matched hv])] at h
      cases h
    · rw [replayStep_batch (queueClient d) args hr (batch_ne_nil d hr hv)
        (receive_eq d args r.matched q)] at h
      have hle := scan_visible_le d happly (batch d args r.matched q) r
        (received d args r.matched q)
      have hlt := received_visible_lt d happly hr hv
      cases hs : scan (queueClient d) args (batch d args r.matched q) r
          (received d args r.matched q) with
      | mk res q'' =>
        rw [hs] at h hle
        cases res with
        | error e => cases h
        | ok r'' =>
          obtain rfl : q'' = q' := (Prod.mk.inj (Sum.inr.inj h)).2
          exact lt_of_le_of_lt hle hlt
  · rw [replayStep_done (by omega)] at h
    cases h

/-- In apply mode, `replay` ends. -/
theorem replay_halts_apply (d : Delivery) {args : ReplayArgs} (happly : args.apply = true)
    (r : ReplayResult) (q : Queues) : Halts (replayStep (queueClient d) args) (r, q) :=
  halts_of_measure (fun _ => True) (fun s => s.2.visible.length)
    (fun (_, _) (_, _) _ hstep => ⟨trivial, replayStep_apply_lt happly hstep⟩) trivial

/-- A dry run's round that goes on: the queue is as it was, and the batch has been
previewed. -/
theorem replayStep_dry (d : Delivery) (args : ReplayArgs) (hdry : args.apply = false)
    {r : ReplayResult} {q : Queues} (hr : r.matched < args.maxMessages) (hv : q.visible ≠ []) :
    replayStep (queueClient d) args (r, q) =
      .inr (preview args (batch d args r.matched q) r, { q with receives := q.receives + 1 }) := by
  rw [replayStep_batch (queueClient d) args hr (batch_ne_nil d hr hv)
    (receive_eq d args r.matched q), received_dry d hdry, scan_dry _ hdry]

/-- How a dry run's round can go on. -/
theorem replayStep_dry_inv {d : Delivery} {args : ReplayArgs} (hdry : args.apply = false)
    {r r' : ReplayResult} {q q' : Queues}
    (h : replayStep (queueClient d) args (r, q) = .inr (r', q')) :
    r.matched < args.maxMessages ∧ q.visible ≠ [] ∧
      r' = preview args (batch d args r.matched q) r ∧
        q' = { q with receives := q.receives + 1 } := by
  by_cases hr : (r.matched : Int) < args.maxMessages
  · by_cases hv : q.visible = []
    · rw [replayStep_empty hr (by rw [receive_eq, batch_nil d args r.matched hv])] at h
      cases h
    · rw [replayStep_dry d args hdry hr hv] at h
      obtain ⟨hr', hq'⟩ := Prod.mk.inj (Sum.inr.inj h)
      exact ⟨hr, hv, hr'.symm, hq'.symm⟩
  · rw [replayStep_done (by omega)] at h
    cases h

theorem matched_le_preview (args : ReplayArgs) (messages : List SqsMessage) (r : ReplayResult) :
    r.matched ≤ (preview args messages r).matched := by
  induction messages generalizing r with
  | nil => exact Nat.le_refl _
  | cons msg messages ih =>
    rw [preview]
    split
    · exact ih r.skip
    · split
      · exact Nat.le_succ _
      · exact (Nat.le_succ _).trans (ih (r.accept args msg))

/-- A first message that passes the filter is counted. -/
theorem matched_lt_preview {args : ReplayArgs} {msg : SqsMessage} (hm : args.selects msg = true)
    (messages : List SqsMessage) (r : ReplayResult) :
    r.matched < (preview args (msg :: messages) r).matched := by
  rw [preview, if_neg (by rw [hm]; decide)]
  split
  · exact Nat.lt_succ_self _
  · exact lt_of_lt_of_le (Nat.lt_succ_self _) (matched_le_preview args messages (r.accept args msg))

/-- Messages that do not pass the filter leave the count and the previews alone. -/
theorem preview_none_match {args : ReplayArgs} (messages : List SqsMessage) (r : ReplayResult)
    (h : ∀ m ∈ messages, args.selects m = false) :
    (preview args messages r).matched = r.matched ∧
    (preview args messages r).previews = r.previews := by
  induction messages generalizing r with
  | nil => exact ⟨rfl, rfl⟩
  | cons msg messages ih =>
    rw [preview, if_pos (h msg (List.mem_cons_self ..))]
    exact ih r.skip fun m hm => h m (List.mem_cons_of_mem _ hm)

/-- When every message passes the filter, a dry run ends: each round counts one at
least. -/
theorem replay_halts_allMatch (d : Delivery) {args : ReplayArgs} (hdry : args.apply = false)
    {r : ReplayResult} {q : Queues} (hall : ∀ m ∈ q.visible, args.selects m = true) :
    Halts (replayStep (queueClient d) args) (r, q) := by
  refine halts_of_measure (fun s => ∀ m ∈ s.2.visible, args.selects m = true)
    (fun s => (args.maxMessages - s.1.matched).toNat) ?_ hall
  intro c c' hinv hstep
  obtain ⟨r, q⟩ := c
  obtain ⟨r', q'⟩ := c'
  obtain ⟨hr, hv, rfl, rfl⟩ := replayStep_dry_inv hdry hstep
  refine ⟨hinv, ?_⟩
  obtain ⟨msg, messages, hb⟩ := List.exists_cons_of_ne_nil (batch_ne_nil d hr hv)
  have hm : args.selects msg = true :=
    hinv msg (batch_mem (by rw [hb]; exact List.mem_cons_self ..))
  have hlt := matched_lt_preview hm messages r
  rw [hb]
  show (args.maxMessages - (preview args (msg :: messages) r).matched).toNat <
    (args.maxMessages - r.matched).toNat
  omega

theorem take_ne_nil {n : Nat} {visible : List SqsMessage} (hv : visible ≠ []) (hn : 1 ≤ n) :
    visible.take n ≠ [] := by
  intro h
  rcases List.take_eq_nil_iff.mp h with h0 | hnil
  · omega
  · exact hv hnil

/-- A queue that offers the one message `m` again and again, for as long as it is
visible. -/
def stubborn (m : SqsMessage) : Delivery where
  offer _ n visible := if m ∈ visible then [m].take n else visible.take n
  offer_ne_nil _ n visible hv hn := by
    split
    · exact take_ne_nil (List.cons_ne_nil m []) hn
    · exact take_ne_nil hv hn
  offer_length _ n visible := by
    split
    · exact List.length_take_le ..
    · exact List.length_take_le ..
  offer_subperm _ n visible := by
    split
    · rename_i hm
      exact (List.take_sublist n [m]).subperm.trans (List.singleton_subperm_iff.mpr hm)
    · exact (List.take_sublist n visible).subperm

theorem mem_batch_stubborn {args : ReplayArgs} {m m' : SqsMessage} {matched : Nat} {q : Queues}
    (hmem : m ∈ q.visible) (h : m' ∈ batch (stubborn m) args matched q) : m' = m := by
  simp only [batch, stubborn, if_pos hmem] at h
  exact List.mem_singleton.mp (List.mem_of_mem_take h)

/-- One message that does not pass the filter keeps a dry run going for ever. -/
theorem replay_diverges {args : ReplayArgs} (hdry : args.apply = false)
    {m : SqsMessage} (hm : args.selects m = false) {r : ReplayResult} {q : Queues}
    (hr : r.matched < args.maxMessages) (hmem : m ∈ q.visible) :
    ¬ Halts (replayStep (queueClient (stubborn m)) args) (r, q) := by
  refine not_halts_of_invariant
    (fun s => s.1.matched < args.maxMessages ∧ m ∈ s.2.visible) ?_ ⟨hr, hmem⟩
  intro c hyp'
  obtain ⟨r, q⟩ := c
  obtain ⟨hr, hmem⟩ := hyp'
  -- the queue offers `m` while it is visible, and a dry run never takes it out of sight
  have hb : ∀ m' ∈ batch (stubborn m) args r.matched q, args.selects m' = false :=
    fun m' hm' => mem_batch_stubborn hmem hm' ▸ hm
  refine ⟨_, replayStep_dry _ args hdry hr (List.ne_nil_of_mem hmem), ?_, hmem⟩
  show ((preview args _ r).matched : Int) < _
  rw [(preview_none_match _ r hb).1]
  exact hr

/-- **When replay ends.** It ends against every queue exactly in apply mode, or
when no message is asked for, or when every message passes the filter. -/
theorem replay_halts_iff (args : ReplayArgs) (content : List SqsMessage) :
    (∀ d, ReplayHalts (queueClient d) args (.start content)) ↔
      args.apply = true ∨ args.maxMessages ≤ 0 ∨ ∀ m ∈ content, args.selects m = true := by
  constructor
  · intro h
    by_contra hcon
    simp only [not_or, not_forall, Bool.not_eq_true, not_le] at hcon
    obtain ⟨hdry, hmax, m, hmem, hm⟩ := hcon
    exact replay_diverges hdry hm (r := .start !args.apply) hmax hmem (h (stubborn m))
  · intro hcase d
    rcases hcase with happly | hmax | hall
    · exact replay_halts_apply d happly _ _
    · exact halts_stop (replayStep_done hmax)
    · cases happly : args.apply with
      | true => exact replay_halts_apply d happly _ _
      | false => exact replay_halts_allMatch d happly hall

/-- A dry run for `xp_awarded` messages over a dead-letter queue that holds one
`friend_added` message: nothing matches, and the message never goes out of sight. -/
theorem replay_dry_diverges :
    ¬ ∀ d, ReplayHalts (queueClient d)
      ⟨py "dlq", py "dest", 100, some (py "xp_awarded"), false, 20⟩
      (.start [⟨some (py "m1"), some (py "\x7b\"type\":\"friend_added\"\x7d"),
        some (py "rh-m1")⟩]) := by
  intro h
  refine replay_diverges rfl ?_ ?_ (List.mem_singleton.mpr rfl) (h (stubborn _))
  · decide
  · decide

end LingoAsync.Scripts
