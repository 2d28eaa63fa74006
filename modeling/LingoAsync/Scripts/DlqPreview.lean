import LingoAsync.Scripts.DlqQueue

/-!
# The preview and the move

`main` of `scripts/dlq-replay.py` always makes a dry run first, and the operator
confirms the move on what it reports. Here both passes run against a queue that
offers its visible messages in their order and that nobody else touches: a receive
brings the first ones, as many as the queue likes.

The dry run leaves every message visible, so each of its receives starts again at
the head of the queue, where the apply pass would find the next messages. If the
head passes the filter, the second receive previews it again; if it does not, every
receive is one match short, and the dry run never ends. So the preview is right
exactly when the first receive settles it: it brings `maxMessages` messages that all
pass, or there is nothing to bring (`preview_tells_iff`). A queue may bring one
message at a time; the preview is right against every queue only if there is none to
move, or one and it is the head.
-/

namespace LingoAsync.Scripts

open LingoAsync.Text LingoAsync.Loop

/-- A queue that offers its visible messages in their order. -/
structure OrderedDelivery extends Delivery where
  offer_prefix : ∀ k n visible, offer k n visible <+: visible

/-- A queue that offers one message at a time. -/
def oneByOne : OrderedDelivery where
  offer _ n visible := visible.take (min 1 n)
  offer_ne_nil _ n visible hv hn := take_ne_nil hv (by omega)
  offer_length _ n visible := (List.length_take_le ..).trans (Nat.min_le_right 1 n)
  offer_subperm _ n visible := (List.take_sublist _ visible).subperm
  offer_prefix _ n visible := List.take_prefix _ visible

/-- The content of a dead-letter queue: each message has its own id, and its own
handle to delete it by. -/
structure DlqContent where
  messages : List SqsMessage
  ids_nodup : (messages.map (·.MessageId)).Nodup
  handles : ∀ m ∈ messages, m.ReceiptHandle.isSome = true
  handles_nodup : (messages.map (·.ReceiptHandle)).Nodup

/-- The arguments `main` calls `replay` with. -/
def mainArgs (dlqUrl destUrl : PyStr) (maxMessages : Int) (bodyFilter : Option PyStr)
    (apply : Bool) : ReplayArgs where
  dlqUrl := dlqUrl
  destUrl := destUrl
  maxMessages := maxMessages
  bodyFilter := bodyFilter
  apply := apply
  previewLimit := 20

def SqsMessage.preview (m : SqsMessage) : Preview := ⟨m.MessageId, m.bodyText⟩

/-- A scan for which the matches of the batch are not too many counts them all, and
previews them all while there is room. -/
theorem preview_counts (args : ReplayArgs) (messages : List SqsMessage) (r : ReplayResult)
    (hmax : r.matched + (messages.countP args.selects : Int) ≤ args.maxMessages)
    (hlim : r.previews.length + messages.countP args.selects ≤ args.previewLimit) :
    (preview args messages r).matched = r.matched + messages.countP args.selects ∧
    (preview args messages r).previews =
      r.previews ++ (messages.filter args.selects).map SqsMessage.preview := by
  induction messages generalizing r with
  | nil => exact ⟨rfl, (List.append_nil _).symm⟩
  | cons msg messages ih =>
    cases hm : args.selects msg with
    | false =>
      rw [preview, if_pos hm]
      rw [List.countP_cons_of_neg (by simp [hm])] at *
      rw [List.filter_cons_of_neg (by simp [hm])]
      exact ih r.skip hmax hlim
    | true =>
      rw [preview, if_neg (by simp [hm])]
      rw [List.countP_cons_of_pos hm] at *
      rw [List.filter_cons_of_pos hm]
      have hacc : (r.accept args msg).previews = r.previews ++ [msg.preview] :=
        if_pos (by omega)
      have hcount : (r.accept args msg).matched = r.matched + 1 := rfl
      by_cases hlast : args.maxMessages ≤ (r.accept args msg).matched
      · -- the last match wanted: the rest of the batch holds none
        rw [if_pos hlast]
        have hzero : messages.countP args.selects = 0 := by
          rw [hcount] at hlast
          push_cast at hlast hmax
          omega
        have hnil : messages.filter args.selects = [] :=
          List.length_eq_zero_iff.mp (by rw [← List.countP_eq_length_filter, hzero])
        rw [hzero, hnil, hacc]
        exact ⟨rfl, rfl⟩
      · rw [if_neg hlast]
        have hmax' : (r.accept args msg).matched + (messages.countP args.selects : Int) ≤
            args.maxMessages := by
          rw [hcount]; push_cast at hmax ⊢; omega
        have hlim' : (r.accept args msg).previews.length + messages.countP args.selects ≤
            args.previewLimit := by
          rw [hacc, List.length_append, List.length_singleton]; omega
        obtain ⟨h1, h2⟩ := ih (r.accept args msg) hmax' hlim'
        refine ⟨?_, ?_⟩
        · rw [h1, hcount]; omega
        · rw [h2, hacc, List.append_assoc]; rfl

/-- Previews are only ever added to. -/
theorem preview_previews_prefix_of (args : ReplayArgs) (messages : List SqsMessage)
    (r : ReplayResult) : r.previews <+: (preview args messages r).previews := by
  induction messages generalizing r with
  | nil => exact List.prefix_refl _
  | cons msg messages ih =>
    have hacc : r.previews <+: (r.accept args msg).previews := by
      unfold ReplayResult.accept
      show r.previews <+: if _ then _ else _
      split
      · exact List.prefix_append ..
      · exact List.prefix_refl _
    rw [preview]
    split
    · exact ih r.skip
    · split
      · exact hacc
      · exact hacc.trans (ih (r.accept args msg))

/-- While there is room, a match at the head of a batch is previewed. -/
theorem preview_adds_head {args : ReplayArgs} {msg : SqsMessage} (hm : args.selects msg = true)
    (messages : List SqsMessage) (r : ReplayResult) (hlim : r.previews.length < args.previewLimit) :
    r.previews ++ [msg.preview] <+: (preview args (msg :: messages) r).previews := by
  have hacc : (r.accept args msg).previews = r.previews ++ [msg.preview] := if_pos hlim
  rw [preview, if_neg (by simp [hm]), ← hacc]
  split
  · exact List.prefix_refl _
  · exact preview_previews_prefix_of args messages (r.accept args msg)

/-- A batch counts no more than its matches. -/
theorem matched_preview_le (args : ReplayArgs) (messages : List SqsMessage) (r : ReplayResult) :
    (preview args messages r).matched ≤ r.matched + messages.countP args.selects := by
  induction messages generalizing r with
  | nil => exact Nat.le_add_right ..
  | cons msg messages ih =>
    rw [preview]
    cases hm : args.selects msg with
    | false =>
      rw [if_pos rfl, List.countP_cons_of_neg (by simp [hm])]
      exact ih r.skip
    | true =>
      rw [if_neg (by simp), List.countP_cons_of_pos hm]
      have hcount : (r.accept args msg).matched = r.matched + 1 := rfl
      split
      · omega
      · have := ih (r.accept args msg)
        omega

/-- A dry run that has previewed a message twice ends, if it ends, with a preview
that names it twice. -/
theorem replay_previews_dup {args : ReplayArgs} (hdry : args.apply = false) (d : Delivery)
    {r p : ReplayResult} {q q' : Queues} {fuel : Nat}
    (hdup : ¬ (r.previews.map (·.MessageId)).Nodup)
    (h : loop (replayStep (queueClient d) args) fuel (r, q) = some (.ok p, q')) :
    ¬ (p.previews.map (·.MessageId)).Nodup := by
  refine loop_result (fun s => ¬ (s.1.previews.map (·.MessageId)).Nodup)
    (fun res => ∀ p, res.1 = .ok p → ¬ (p.previews.map (·.MessageId)).Nodup)
    ?_ ?_ hdup h p rfl
  · intro c c' hdup hstep
    obtain ⟨r, q⟩ := c
    obtain ⟨r', q'⟩ := c'
    obtain ⟨-, -, rfl, -⟩ := replayStep_dry_inv hdry hstep
    refine fun hnd => hdup (hnd.sublist ?_)
    exact ((preview_previews_prefix_of args _ r).map _).sublist
  · intro c hyp' hdup hstep p heq
    obtain ⟨r, q⟩ := c
    obtain ⟨res, q'⟩ := hyp'
    subst heq
    by_cases hr : (r.matched : Int) < args.maxMessages
    · by_cases hv : q.visible = []
      · rw [replayStep_empty hr (by rw [receive_eq, batch_nil d args r.matched hv])] at hstep
        obtain ⟨hp, -⟩ := Prod.mk.inj (Sum.inl.inj hstep)
        exact Except.ok.inj hp ▸ hdup
      · rw [replayStep_dry d args hdry hr hv] at hstep
        cases hstep
    · rw [replayStep_done (by omega)] at hstep
      obtain ⟨hp, -⟩ := Prod.mk.inj (Sum.inl.inj hstep)
      exact Except.ok.inj hp ▸ hdup

section Ordered

variable (d : OrderedDelivery) (args : ReplayArgs)

/-- While messages are wanted, a receive starts at the head of the queue. -/
theorem batch_head {matched : Nat} {q : Queues} {msg : SqsMessage} {messages : List SqsMessage}
    (hr : matched < args.maxMessages) (hv : q.visible = msg :: messages) :
    ∃ rest, batch d.toDelivery args matched q = msg :: rest := by
  obtain ⟨msg', rest, hbatch⟩ := List.exists_cons_of_ne_nil
    (batch_ne_nil d.toDelivery hr (by rw [hv]; exact List.cons_ne_nil _ _))
  have hprefix := d.offer_prefix q.receives (args.receive matched).MaxNumberOfMessages.toNat
    q.visible
  have hb : d.offer q.receives (args.receive matched).MaxNumberOfMessages.toNat q.visible =
      msg' :: rest := hbatch
  rw [hb, hv] at hprefix
  obtain rfl := (List.cons_prefix_cons.mp hprefix).1
  exact ⟨rest, hbatch⟩

/-- A receive brings no more than what is wanted. -/
theorem batch_length_le {matched : Nat} {q : Queues} (hr : matched < args.maxMessages) :
    matched + ((batch d.toDelivery args matched q).length : Int) ≤ args.maxMessages := by
  have hle := d.offer_length q.receives (args.receive matched).MaxNumberOfMessages.toNat q.visible
  have hn : ((args.receive matched).MaxNumberOfMessages.toNat : Int) ≤
      args.maxMessages - matched := by
    simp only [ReplayArgs.receive, RECEIVE_BATCH]
    omega
  unfold batch
  omega

/-- A dry run never ends if the head of the queue does not pass the filter: it is in every
receive, so that none brings all that is wanted. -/
theorem replay_stuck (hdry : args.apply = false) {r : ReplayResult} {q : Queues}
    {msg : SqsMessage} {messages : List SqsMessage} (hr : r.matched < args.maxMessages)
    (hv : q.visible = msg :: messages) (hm : args.selects msg = false) :
    ¬ Halts (replayStep (queueClient d.toDelivery) args) (r, q) := by
  refine not_halts_of_invariant
    (fun s => s.1.matched < args.maxMessages ∧ s.2.visible = msg :: messages) ?_ ⟨hr, hv⟩
  intro c hyp'
  obtain ⟨r, q⟩ := c
  obtain ⟨hr, hv⟩ := hyp'
  simp only at hr hv
  refine ⟨_, replayStep_dry _ args hdry hr (by rw [hv]; exact List.cons_ne_nil _ _), ?_, hv⟩
  obtain ⟨rest, hbatch⟩ := batch_head d args hr hv
  have hle := matched_preview_le args (batch d.toDelivery args r.matched q) r
  have hlength := batch_length_le d args hr (q := q)
  have hcount : rest.countP args.selects ≤ rest.length := List.countP_le_length
  rw [hbatch, List.countP_cons_of_neg (by simp [hm])] at hle
  rw [hbatch, List.length_cons] at hlength
  show ((preview args (batch d.toDelivery args r.matched q) r).matched : Int) < args.maxMessages
  rw [hbatch]
  omega

/-- A dry run that has previewed the head of the queue and wants more previews it again. -/
theorem replay_rescan (hdry : args.apply = false) {r p : ReplayResult} {q q' : Queues}
    {fuel : Nat} {msg : SqsMessage} {messages : List SqsMessage} (hr : r.matched < args.maxMessages)
    (hroom : r.previews.length < args.previewLimit) (hv : q.visible = msg :: messages)
    (hm : args.selects msg = true) (hseen : msg.preview ∈ r.previews)
    (h : loop (replayStep (queueClient d.toDelivery) args) fuel (r, q) = some (.ok p, q')) :
    ¬ (p.previews.map (·.MessageId)).Nodup := by
  obtain ⟨rest, hbatch⟩ := batch_head d args hr hv
  have hpre := preview_adds_head hm rest r hroom
  obtain ⟨fuel', hrun⟩ := loop_after (replayStep_dry d.toDelivery args hdry hr
    (by rw [hv]; exact List.cons_ne_nil _ _)) h
  rw [hbatch] at hrun
  refine replay_previews_dup hdry d.toDelivery ?_ hrun
  intro hnd
  have hnd' := hnd.sublist (hpre.map (·.MessageId)).sublist
  rw [List.map_append, List.nodup_append'] at hnd'
  exact hnd'.2.2 (List.mem_map_of_mem hseen) (List.mem_singleton.mpr rfl)

end Ordered

/-- Moving messages that all pass the filter, when they are not too many. -/
theorem scan_moves (d : Delivery) (args : ReplayArgs) (happly : args.apply = true)
    (messages : List SqsMessage) (r : ReplayResult) (q : Queues)
    (hsel : ∀ m ∈ messages, args.selects m = true)
    (hhandle : ∀ m ∈ messages, m.ReceiptHandle.isSome = true)
    (hmax : r.matched + (messages.length : Int) ≤ args.maxMessages) :
    ∃ r' q', scan (queueClient d) args messages r q = (.ok r', q') ∧
      r'.matched = r.matched + messages.length ∧ r'.moved = r.moved + messages.length ∧
      q'.dlq ⊆ q.dlq ∧ q.dest ⊆ q'.dest ∧
      q'.visible = q.visible.filter (fun m => m.ReceiptHandle ∉ messages.map (·.ReceiptHandle)) ∧
      ∀ m ∈ messages, m ∉ q'.dlq ∧ m.bodyText ∈ q'.dest := by
  induction messages generalizing r q with
  | nil =>
    refine ⟨r, q, rfl, rfl, rfl, fun _ h => h, fun _ h => h, ?_, fun _ h => by cases h⟩
    exact (List.filter_eq_self.mpr fun _ _ => by simp).symm
  | cons msg messages ih =>
    obtain ⟨handle, hh⟩ := Option.isSome_iff_exists.mp (hhandle msg (List.mem_cons_self ..))
    rw [scan_moved happly (hsel msg (List.mem_cons_self ..)) (move_eq d args hh q)]
    have hgone : msg ∉ q.dlq.filter fun m => m.ReceiptHandle ≠ some handle := by
      intro hmem
      simpa [hh] using (List.mem_filter.mp hmem).2
    have hsub : (q.dlq.filter fun m => m.ReceiptHandle ≠ some handle) ⊆ q.dlq :=
      List.filter_subset_self _
    have hsent : msg.bodyText ∈ q.dest ++ [msg.bodyText] := by simp
    rw [List.length_cons] at hmax
    push_cast at hmax
    by_cases hlast : args.maxMessages ≤ r.matched + 1
    · -- the last one wanted, so there are no more in the batch
      obtain rfl : messages = [] := List.length_eq_zero_iff.mp (by omega)
      rw [if_pos hlast]
      refine ⟨_, _, rfl, rfl, rfl, hsub, List.subset_append_left .., ?_, ?_⟩
      · simp [hh]
      · intro m hm
        obtain rfl := List.mem_singleton.mp hm
        exact ⟨hgone, hsent⟩
    · rw [if_neg hlast]
      have hmatched : (r.move args msg).matched = r.matched + 1 := rfl
      have hmoved : (r.move args msg).moved = r.moved + 1 := rfl
      obtain ⟨r', q', hscan, h1, h2, hdlq, hdest, hvisible, hall⟩ :=
        ih (r.move args msg)
          { q with
            dlq := q.dlq.filter fun m => m.ReceiptHandle ≠ some handle
            visible := q.visible.filter fun m => m.ReceiptHandle ≠ some handle
            dest := q.dest ++ [msg.bodyText] }
          (fun m hm => hsel m (List.mem_cons_of_mem _ hm))
          (fun m hm => hhandle m (List.mem_cons_of_mem _ hm))
          (by rw [hmatched]; push_cast; omega)
      refine ⟨r', q', hscan, ?_, ?_, List.Subset.trans hdlq hsub, ?_, ?_, fun m hm => ?_⟩
      · rw [h1, hmatched, List.length_cons]; omega
      · rw [h2, hmoved, List.length_cons]; omega
      · exact List.Subset.trans (List.subset_append_left ..) hdest
      · rw [hvisible, List.filter_filter]
        refine List.filter_congr fun m _ => ?_
        rw [List.map_cons, hh, ← Bool.decide_and, decide_eq_decide, List.mem_cons, not_or, and_comm]
      · -- the rest of the scan puts nothing back into the queue and sends on top
        rcases List.mem_cons.mp hm with rfl | hm'
        · exact ⟨fun hmem => hgone (hdlq hmem), hdest hsent⟩
        · exact hall m hm'

/-- The preview tells what the apply pass will do: the dry run ends, the apply pass
after it ends, the first's matches are as many as the second moves, and its
previews name distinct messages that the second moves. -/
def PreviewTells (d : OrderedDelivery) (dlqUrl destUrl : PyStr) (maxMessages : Nat)
    (bodyFilter : Option PyStr) (content : DlqContent) : Prop :=
  ∃ fuel p q fuel' r q',
    replay (queueClient d.toDelivery) (mainArgs dlqUrl destUrl maxMessages bodyFilter false) fuel
      (.start content.messages) = some (.ok p, q) ∧
    replay (queueClient d.toDelivery) (mainArgs dlqUrl destUrl maxMessages bodyFilter true) fuel' q
      = some (.ok r, q') ∧
    p.matched = r.moved ∧ (p.previews.map (·.MessageId)).Nodup ∧
    ∀ v ∈ p.previews, ∃ m ∈ content.messages,
      m.preview = v ∧ m ∉ q'.dlq ∧ m.bodyText ∈ q'.dest

/-- The messages of the dry run's first receive. -/
def firstReceive (d : OrderedDelivery) (maxMessages : Nat) (content : DlqContent) :
    List SqsMessage :=
  d.offer 0 (min 10 maxMessages) content.messages

/-- One receive settles the preview: there is nothing to move, or the first receive brings
`maxMessages` messages, which all pass the filter. -/
def OneReceive (d : OrderedDelivery) (maxMessages : Nat) (bodyFilter : Option PyStr)
    (content : DlqContent) : Prop :=
  content.messages = [] ∨ maxMessages = 0 ∨
    ((firstReceive d maxMessages content).length = maxMessages ∧
      ∀ m ∈ firstReceive d maxMessages content, bodyMatches m.bodyText bodyFilter = true)

/-- One message settles the preview: there is nothing to move, or one message is wanted and the
head of the queue passes the filter. -/
def OneMessage (maxMessages : Nat) (bodyFilter : Option PyStr) (content : DlqContent) : Prop :=
  content.messages = [] ∨ maxMessages = 0 ∨
    (maxMessages = 1 ∧ ∀ m ∈ content.messages.head?, bodyMatches m.bodyText bodyFilter = true)

section Passes

variable {d : OrderedDelivery} {dlqUrl destUrl : PyStr} {maxMessages : Nat}
  {bodyFilter : Option PyStr} {content : DlqContent}

theorem batch_first {q : Queues} (hv : q.visible = content.messages) (hk : q.receives = 0) :
    batch d.toDelivery (mainArgs dlqUrl destUrl maxMessages bodyFilter false) 0 q =
      firstReceive d maxMessages content := by
  have hn : (min RECEIVE_BATCH ((maxMessages : Int) - (0 : Nat))).toNat = min 10 maxMessages := by
    simp only [RECEIVE_BATCH]; omega
  simp only [batch, firstReceive, ReplayArgs.receive, mainArgs, hv, hk, hn]

/-- Both passes find nothing where nothing is wanted, -/
theorem previewTells_of_zero : PreviewTells d dlqUrl destUrl 0 bodyFilter content := by
  have hpass : ∀ (apply : Bool) (q : Queues),
      replay (queueClient d.toDelivery) (mainArgs dlqUrl destUrl (0 : Nat) bodyFilter apply) 1 q =
        some (.ok (.start !apply), q) :=
    fun _ _ => loop_stop (replayStep_done (by simp [mainArgs, ReplayResult.start])) 0
  exact ⟨1, _, _, 1, _, _, hpass false _, hpass true _, rfl, List.nodup_nil,
    fun _ hv => by cases hv⟩

/-- and on an empty queue. -/
theorem previewTells_of_empty (h : content.messages = []) :
    PreviewTells d dlqUrl destUrl maxMessages bodyFilter content := by
  have hpass : ∀ (apply : Bool) (q : Queues), q.visible = [] → ∃ q', q'.visible = [] ∧
      replay (queueClient d.toDelivery) (mainArgs dlqUrl destUrl maxMessages bodyFilter apply) 1 q =
        some (.ok (.start !apply), q') := by
    intro apply q hv
    by_cases hmax : (0 : Int) < maxMessages
    · have hrecv := receive_eq d.toDelivery
        (mainArgs dlqUrl destUrl maxMessages bodyFilter apply) 0 q
      rw [batch_nil _ _ _ hv] at hrecv
      refine ⟨_, ?_, loop_stop (replayStep_empty hmax hrecv) 0⟩
      simp [received, hv]
    · refine ⟨q, hv, loop_stop (replayStep_done ?_) 0⟩
      simpa [mainArgs, ReplayResult.start] using hmax
  obtain ⟨q, hq, hdry⟩ := hpass false (.start content.messages) h
  obtain ⟨q', -, happly⟩ := hpass true q hq
  exact ⟨1, _, q, 1, _, q', hdry, happly, rfl, List.nodup_nil, fun _ hv => by cases hv⟩

/-- The first receive brings the first messages of the queue. -/
theorem firstReceive_eq_take (hlen : (firstReceive d maxMessages content).length = maxMessages) :
    firstReceive d maxMessages content = content.messages.take maxMessages := by
  have htake := List.prefix_iff_eq_take.mp (d.offer_prefix 0 (min 10 maxMessages) content.messages)
  rwa [show (d.offer 0 (min 10 maxMessages) content.messages).length = maxMessages from hlen]
    at htake

/-- A dry run whose first receive brings all the matches wanted. -/
theorem replay_dry_batch (dlqUrl destUrl : PyStr) (hpos : 0 < maxMessages)
    (hlen : (firstReceive d maxMessages content).length = maxMessages)
    (hall : ∀ m ∈ firstReceive d maxMessages content, bodyMatches m.bodyText bodyFilter = true) :
    ∃ p q, replay (queueClient d.toDelivery)
        (mainArgs dlqUrl destUrl maxMessages bodyFilter false) 2
        (.start content.messages) = some (.ok p, q) ∧
      q.visible = content.messages ∧ p.matched = maxMessages ∧
      p.previews = (firstReceive d maxMessages content).map SqsMessage.preview := by
  let dry := mainArgs dlqUrl destUrl maxMessages bodyFilter false
  let head := firstReceive d maxMessages content
  have hten : maxMessages ≤ 10 := by
    have hle : head.length ≤ min 10 maxMessages := d.offer_length 0 _ _
    rw [show head.length = maxMessages from hlen] at hle
    omega
  have hv : content.messages ≠ [] := by
    intro h
    have hnil : head = [] := List.prefix_nil.mp (h ▸ d.offer_prefix 0 (min 10 maxMessages) _)
    have : head.length = maxMessages := hlen
    rw [hnil, List.length_nil] at this
    omega
  have hwanted : ((0 : Nat) : Int) < maxMessages := by omega
  have hcount : head.countP dry.selects = maxMessages :=
    (List.countP_eq_length.mpr fun m hm => hall m hm).trans hlen
  have hfilter : head.filter dry.selects = head := List.filter_eq_self.mpr fun m hm => hall m hm
  obtain ⟨hmatched, hpreviews⟩ := preview_counts dry head (.start true)
    (by rw [hcount]; show ((0 : Nat) : Int) + maxMessages ≤ maxMessages; omega)
    (by rw [hcount]; show 0 + maxMessages ≤ 20; omega)
  rw [hcount] at hmatched
  rw [hfilter] at hpreviews
  have hmatched' := hmatched.trans (Nat.zero_add maxMessages)
  have hround := replayStep_dry d.toDelivery dry rfl (r := .start true)
    (q := .start content.messages) hwanted hv
  rw [show batch d.toDelivery dry (ReplayResult.start true).matched (.start content.messages) = head
    from batch_first rfl rfl] at hround
  refine ⟨preview dry head (.start true), { Queues.start content.messages with receives := 1 },
    ?_, rfl, hmatched', hpreviews⟩
  exact (loop_next hround 1).trans (loop_stop (replayStep_done (by
    rw [hmatched']; exact le_refl _)) 0)

/-! The apply pass, in as many rounds as the queue makes of it. -/

/-- The apply pass has moved the first messages of the queue, and sees the others. -/
structure Moving (content : DlqContent) (maxMessages : Nat) (r : ReplayResult) (q : Queues) :
    Prop where
  moved : r.moved = r.matched
  most : r.matched ≤ maxMessages
  visible : q.visible = content.messages.drop r.matched
  gone : ∀ m ∈ content.messages.take r.matched, m ∉ q.dlq ∧ m.bodyText ∈ q.dest

theorem diff_append_left (xs ys : List SqsMessage) : (xs ++ ys).diff xs = ys := by
  induction xs with
  | nil => rfl
  | cons x xs ih =>
    rw [List.cons_append, List.diff_cons, List.erase_cons_head]
    exact ih

/-- A message that was not received has a handle that was not. -/
theorem filter_handles (content : DlqContent) (n k : Nat) :
    (content.messages.drop (n + k)).filter (fun m => m.ReceiptHandle ∉
      ((content.messages.drop n).take k).map (·.ReceiptHandle)) =
        content.messages.drop (n + k) := by
  refine List.filter_eq_self.mpr fun m hm => ?_
  have hnodup := content.handles_nodup.sublist ((List.drop_sublist n content.messages).map _)
  rw [← List.take_append_drop k (content.messages.drop n), List.drop_drop, List.map_append,
    List.nodup_append'] at hnodup
  simp only [decide_eq_true_eq]
  intro hin
  exact hnodup.2.2 hin (List.mem_map_of_mem hm)

/-- One round of the apply pass. -/
theorem moving_step (hall : ∀ m ∈ content.messages.take maxMessages,
      bodyMatches m.bodyText bodyFilter = true)
    {r : ReplayResult} {q : Queues} (h : Moving content maxMessages r q)
    (hr : r.matched < maxMessages) (hv : q.visible ≠ []) :
    ∃ r' q', replayStep (queueClient d.toDelivery)
        (mainArgs dlqUrl destUrl maxMessages bodyFilter true) (r, q) = .inr (r', q') ∧
      Moving content maxMessages r' q' := by
  let app := mainArgs dlqUrl destUrl maxMessages bodyFilter true
  let got := batch d.toDelivery app r.matched q
  have hwanted : (r.matched : Int) < app.maxMessages := by
    show (r.matched : Int) < maxMessages
    omega
  have hlength : (r.matched : Int) + got.length ≤ maxMessages := batch_length_le d app hwanted
  have hgot : got = (content.messages.drop r.matched).take got.length := by
    rw [← h.visible]
    exact List.prefix_iff_eq_take.mp (d.offer_prefix ..)
  have hmem : ∀ m ∈ got, m ∈ content.messages.take maxMessages := by
    intro m hm
    rw [hgot] at hm
    have htake : (content.messages.drop r.matched).take got.length =
        (content.messages.take (r.matched + got.length)).drop r.matched := by
      rw [List.drop_take, Nat.add_sub_cancel_left]
    rw [htake] at hm
    exact (List.take_prefix_take_left (by omega)).subset (List.mem_of_mem_drop hm)
  obtain ⟨r', q', hscan, hmatched, hmoved, hdlq, hdest, hvisible, hgone⟩ :=
    scan_moves d.toDelivery app rfl got r (received d.toDelivery app r.matched q)
      (fun m hm => hall m (hmem m hm))
      (fun m hm => content.handles m (List.mem_of_mem_take (hmem m hm))) hlength
  refine ⟨r', q', ?_, ?_, ?_, ?_, ?_⟩
  · rw [replayStep_batch (queueClient d.toDelivery) app hwanted (batch_ne_nil _ hwanted hv)
      (receive_eq d.toDelivery app r.matched q), hscan]
  · rw [hmoved, hmatched, h.moved]
  · omega
  · have hleft : (received d.toDelivery app r.matched q).visible =
        content.messages.drop (r.matched + got.length) := by
      show q.visible.diff got = _
      have hsplit : q.visible = got ++ content.messages.drop (r.matched + got.length) := by
        rw [h.visible, ← List.take_append_drop got.length (content.messages.drop r.matched),
          List.drop_drop, ← hgot]
      rw [hsplit, diff_append_left]
    have hfilter := filter_handles content r.matched got.length
    rw [← hgot] at hfilter
    rw [hvisible, hleft, hfilter, hmatched]
  · intro m hm
    rw [hmatched, List.take_add, ← hgot] at hm
    rcases List.mem_append.mp hm with hold | hnew
    · obtain ⟨hout, hin⟩ := h.gone m hold
      exact ⟨fun hmem => hout (hdlq hmem), hdest hin⟩
    · exact hgone m hnew

/-- The apply pass, from a queue of which it sees everything. -/
theorem replay_apply (d : OrderedDelivery) (dlqUrl destUrl : PyStr)
    (hlen : maxMessages ≤ content.messages.length)
    (hall : ∀ m ∈ content.messages.take maxMessages, bodyMatches m.bodyText bodyFilter = true)
    {q : Queues} (hq : q.visible = content.messages) :
    ∃ fuel r q', replay (queueClient d.toDelivery)
        (mainArgs dlqUrl destUrl maxMessages bodyFilter true) fuel q = some (.ok r, q') ∧
      r.moved = maxMessages ∧
      ∀ m ∈ content.messages.take maxMessages, m ∉ q'.dlq ∧ m.bodyText ∈ q'.dest := by
  let app := mainArgs dlqUrl destUrl maxMessages bodyFilter true
  have hstart : Moving content maxMessages (.start false) q :=
    ⟨rfl, Nat.zero_le _, hq, fun m hm => by cases hm⟩
  have hseen : ∀ {r : ReplayResult} {q : Queues}, Moving content maxMessages r q →
      r.matched < maxMessages → q.visible ≠ [] := by
    intro r q h hr hnil
    rw [h.visible, List.drop_eq_nil_iff] at hnil
    omega
  have happly : app.apply = true := rfl
  obtain ⟨fuel, hhalts⟩ := replay_halts_apply d.toDelivery happly (.start false) q
  obtain ⟨⟨ended, q'⟩, hrun⟩ := Option.isSome_iff_exists.mp hhalts
  have hpost := loop_result (fun s => Moving content maxMessages s.1 s.2)
    (fun res => ∃ r, res.1 = .ok r ∧ r.moved = maxMessages ∧
      ∀ m ∈ content.messages.take maxMessages, m ∉ res.2.dlq ∧ m.bodyText ∈ res.2.dest)
    (fun s s' h hstep => ?_) (fun s res h hstep => ?_) hstart hrun
  · obtain ⟨r, hok, hmoved, hgone⟩ := hpost
    obtain rfl : ended = .ok r := hok
    exact ⟨fuel, r, q', hrun, hmoved, hgone⟩
  · obtain ⟨r, q⟩ := s
    by_cases hr : r.matched < maxMessages
    · obtain ⟨r', q', hnext, h'⟩ := moving_step (d := d) hall h hr (hseen h hr)
      obtain rfl := Sum.inr.inj (hnext.symm.trans hstep)
      exact h'
    · rw [replayStep_done (show (maxMessages : Int) ≤ r.matched by omega)] at hstep
      cases hstep
  · obtain ⟨r, q⟩ := s
    by_cases hr : r.matched < maxMessages
    · obtain ⟨r', q', hnext, -⟩ := moving_step (d := d) hall h hr (hseen h hr)
      rw [hnext] at hstep
      cases hstep
    · rw [replayStep_done (show (maxMessages : Int) ≤ r.matched by omega)] at hstep
      obtain rfl := Sum.inl.inj hstep
      have hall' : r.matched = maxMessages := le_antisymm h.most (by omega)
      exact ⟨r, rfl, h.moved.trans hall', hall' ▸ h.gone⟩

/-- One receive of matches settles the preview, and the apply pass moves it. -/
theorem previewTells_of_batch (hpos : 0 < maxMessages)
    (hlen : (firstReceive d maxMessages content).length = maxMessages)
    (hall : ∀ m ∈ firstReceive d maxMessages content, bodyMatches m.bodyText bodyFilter = true) :
    PreviewTells d dlqUrl destUrl maxMessages bodyFilter content := by
  obtain ⟨p, q, hdry, hq, hmatched, hpreviews⟩ :=
    replay_dry_batch dlqUrl destUrl hpos hlen hall
  have htake := firstReceive_eq_take hlen
  rw [htake] at hall hpreviews hlen
  obtain ⟨fuel', r, q', happly, hmoved, hgone⟩ :=
    replay_apply d dlqUrl destUrl (by rw [List.length_take] at hlen; omega) hall hq
  refine ⟨2, p, q, fuel', r, q', hdry, happly, hmatched.trans hmoved.symm, ?_, fun v hv => ?_⟩
  · rw [hpreviews, List.map_map]
    exact content.ids_nodup.sublist ((List.take_sublist maxMessages content.messages).map _)
  · rw [hpreviews] at hv
    obtain ⟨m, hm, rfl⟩ := List.mem_map.mp hv
    exact ⟨m, List.mem_of_mem_take hm, rfl, hgone m hm⟩

/-- A preview that tells what the apply pass will do was settled by one receive. -/
theorem oneReceive_of_previewTells
    (h : PreviewTells d dlqUrl destUrl maxMessages bodyFilter content) :
    OneReceive d maxMessages bodyFilter content := by
  obtain ⟨fuel, p, q, fuel', r, q', hdry, -, -, hnodup, -⟩ := h
  by_cases hv : content.messages = []
  · exact Or.inl hv
  by_cases hzero : maxMessages = 0
  · exact Or.inr (Or.inl hzero)
  refine Or.inr (Or.inr ?_)
  have hwanted : ((0 : Nat) : Int) < maxMessages := by omega
  let dry := mainArgs dlqUrl destUrl maxMessages bodyFilter false
  let head := firstReceive d maxMessages content
  let first := preview dry head (.start true)
  obtain ⟨msg, messages, hcontent⟩ := List.exists_cons_of_ne_nil hv
  cases hm : dry.selects msg with
  | false =>
    -- the head does not pass, and the dry run has ended all the same
    exact absurd ⟨fuel, Option.isSome_iff_exists.mpr ⟨_, hdry⟩⟩
      (replay_stuck d dry rfl (r := .start true) (q := .start content.messages) hwanted hcontent hm)
  | true =>
    have hheadlen : head.length ≤ min 10 maxMessages := d.offer_length 0 _ _
    have hcountle : head.countP dry.selects ≤ head.length := List.countP_le_length
    obtain ⟨hmatched, hpreviews⟩ := preview_counts dry head (.start true)
      (by show ((0 : Nat) : Int) + _ ≤ maxMessages; omega) (by show 0 + _ ≤ 20; omega)
    have hmatched' : first.matched = head.countP dry.selects := hmatched.trans (Nat.zero_add _)
    by_cases hfull : head.countP dry.selects = maxMessages
    · -- the first receive brings all the matches wanted
      have hlen : head.length = maxMessages := by omega
      exact ⟨hlen, List.countP_eq_length.mp (hfull.trans hlen.symm)⟩
    · -- it does not, and the second receive starts at the head again
      have hround := replayStep_dry d.toDelivery dry rfl (r := .start true)
        (q := .start content.messages) hwanted hv
      obtain ⟨rest, hbatch⟩ := batch_head d dry
        (q := .start content.messages) hwanted hcontent
      have hfirst : batch d.toDelivery dry 0 (.start content.messages) = head := batch_first rfl rfl
      rw [show batch d.toDelivery dry (ReplayResult.start true).matched
        (.start content.messages) = head from hfirst] at hround
      obtain ⟨fuel₁, hrun⟩ := loop_after hround hdry
      refine absurd hnodup (replay_rescan d dry rfl ?_ ?_ hcontent hm ?_ hrun)
      · show (first.matched : Int) < maxMessages
        rw [hmatched']
        omega
      · rw [hpreviews]
        show (([] : List Preview) ++ _).length < 20
        rw [List.nil_append, List.length_map, ← List.countP_eq_length_filter]
        omega
      · rw [hpreviews]
        refine List.mem_append_right _ (List.mem_map_of_mem (List.mem_filter.mpr ⟨?_, hm⟩))
        rw [← hfirst, hbatch]
        exact List.mem_cons_self

/-- Against one queue, -/
theorem previewTells_iff :
    PreviewTells d dlqUrl destUrl maxMessages bodyFilter content ↔
      OneReceive d maxMessages bodyFilter content := by
  refine ⟨oneReceive_of_previewTells, ?_⟩
  intro hcase
  rcases hcase with hempty | rfl | ⟨hlen, hall⟩
  · exact previewTells_of_empty hempty
  · exact previewTells_of_zero
  · rcases Nat.eq_zero_or_pos maxMessages with rfl | hpos
    · exact previewTells_of_zero
    · exact previewTells_of_batch hpos hlen hall

end Passes

/-- and against all of them: a queue that brings one message at a time needs one message to settle
the preview, and that is enough for every queue. -/
theorem oneReceive_all_iff (maxMessages : Nat) (bodyFilter : Option PyStr) (content : DlqContent) :
    (∀ d, OneReceive d maxMessages bodyFilter content) ↔
      OneMessage maxMessages bodyFilter content := by
  constructor
  · intro h
    rcases h oneByOne with hempty | hzero | ⟨hlen, hall⟩
    · exact Or.inl hempty
    · exact Or.inr (Or.inl hzero)
    · have hle : (firstReceive oneByOne maxMessages content).length ≤ 1 :=
        (List.length_take_le ..).trans (Nat.min_le_left ..)
      by_cases hzero : maxMessages = 0
      · exact Or.inr (Or.inl hzero)
      · obtain rfl : maxMessages = 1 := by omega
        refine Or.inr (Or.inr ⟨rfl, fun m hm => hall m ?_⟩)
        cases hcontent : content.messages with
        | nil =>
          rw [hcontent] at hm
          cases hm
        | cons msg messages =>
          rw [hcontent] at hm
          obtain rfl := Option.some.inj hm
          simp [firstReceive, oneByOne, hcontent]
  · intro h d
    rcases h with hempty | hzero | ⟨rfl, hall⟩
    · exact Or.inl hempty
    · exact Or.inr (Or.inl hzero)
    · cases hcontent : content.messages with
      | nil => exact Or.inl hcontent
      | cons msg messages =>
        have hne : firstReceive d 1 content ≠ [] :=
          d.offer_ne_nil 0 1 _ (by rw [hcontent]; exact List.cons_ne_nil _ _) (Nat.le_refl 1)
        have hle : (firstReceive d 1 content).length ≤ 1 := d.offer_length 0 1 _
        have hlen : (firstReceive d 1 content).length = 1 :=
          le_antisymm hle (List.length_pos_iff.mpr hne)
        refine Or.inr (Or.inr ⟨hlen, fun m hm => hall m ?_⟩)
        rw [firstReceive_eq_take hlen, hcontent] at hm
        rw [hcontent]
        obtain rfl := List.mem_singleton.mp hm
        rfl

/-- **The preview and the move.** Against a queue that offers its messages in their order, the dry
run tells what the apply pass will do if and only if its first receive settles it; and it does
against every such queue if and only if one message settles it. -/
theorem preview_tells_iff (dlqUrl destUrl : PyStr) (maxMessages : Nat)
    (bodyFilter : Option PyStr) (content : DlqContent) :
    (∀ d, PreviewTells d dlqUrl destUrl maxMessages bodyFilter content ↔
      OneReceive d maxMessages bodyFilter content) ∧
    ((∀ d, PreviewTells d dlqUrl destUrl maxMessages bodyFilter content) ↔
      OneMessage maxMessages bodyFilter content) := by
  refine ⟨fun d => previewTells_iff, ?_⟩
  rw [← oneReceive_all_iff]
  exact forall_congr' fun d => previewTells_iff

/-- One message in the queue, everything else at its default: the dry run counts the
message a hundred times over, however the queue offers it. -/
theorem preview_tells_wrong :
    ¬ ∃ d, PreviewTells d (py "dlq") (py "dest") 100 none
      { messages := [⟨some (py "m1"), some (py "\x7b\x7d"), some (py "rh-m1")⟩]
        ids_nodup := List.nodup_singleton _
        handles := by simp
        handles_nodup := List.nodup_singleton _ } := by
  intro h
  obtain ⟨d, h⟩ := h
  rcases oneReceive_of_previewTells h with hempty | hzero | ⟨hlen, -⟩
  · cases hempty
  · cases hzero
  · have hle : 100 ≤ 10 := hlen ▸ d.offer_length 0 (min 10 100) _
    omega

end LingoAsync.Scripts
