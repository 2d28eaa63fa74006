import LingoAsync.Handlers.Live
import LingoAsync.Http.Outage

/-!
# The journal of a run

What the worker has asked of core, request by request. `Books` says how a stretch of a run is
written down: the steps applied are those of the entries that returned, the client was asked for
the calls of the entries, in their order and for nothing else (`client`), and each entry's requests
follow on those of the entry before it. It holds of every stretch of every run (`live_books`).

So what holds of the client over any calls holds of the worker over any schedule. The requests of
an outage are bounded whatever comes in (`live_outage`). And with core at the network's end, what a
message that left the queue called for has reached core: each step at least once, and no more often
than a call has attempts (`live_noSilentLoss`).
-/

namespace LingoAsync.Handlers

open LingoAsync.Text LingoAsync.Contracts LingoAsync.Calendar LingoAsync.Handler
open LingoAsync.Http LingoAsync.Machine LingoAsync.Action LingoAsync.Retry

variable {F D T : Type} [Clock T]

/-! ## Entries -/

/-- The entry of a call that the breaker let through: its requests are the attempts of one call. -/
structure Entry.Attempted (stack : Stack F T) (e : Entry F) : Prop where
  some : 1 ≤ e.sent
  most : e.sent ≤ maxAttempts stack.cfg
  retried : ∀ i, i + 1 < e.sent → failsTransiently stack.net (e.first + i) = true
  ended : e.answer = Http.outcome stack.net (e.first + (e.sent - 1))

/-- The entry of a call that the breaker refused. -/
structure Entry.Refused (label : PyStr) (e : Entry F) : Prop where
  sent : e.sent = 0
  answer : e.answer =
    .error (.CircuitOpenError (py "circuit open for lingo-core (" ++ label ++ py ")"))

/-- What an entry may say: an update is no request, a call into core was attempted or refused. -/
def Entry.Sound (stack : Stack F T) (e : Entry F) : Prop :=
  (coreLabel e.call = none ∧ e.sent = 0) ∨
    ∃ label, coreLabel e.call = some label ∧ (e.Attempted stack ∨ e.Refused label)

/-- The requests of the entries are those from `n` up to `m`, one entry's after the other's. -/
def Tiles : (n : Nat) → List (Entry F) → (m : Nat) → Prop
  | n, [], m => n = m
  | n, e :: es, m => e.first = n ∧ Tiles (n + e.sent) es m

theorem Tiles.append {n m k : Nat} {es es' : List (Entry F)} (h : Tiles n es m)
    (h' : Tiles m es' k) : Tiles n (es ++ es') k := by
  induction es generalizing n with
  | nil =>
    obtain rfl : n = m := h
    exact h'
  | cons e es ih => exact ⟨h.1, ih h.2⟩

/-- The calls into core, by their labels. -/
def labels (es : List (Entry F)) : List PyStr := es.filterMap fun e => coreLabel e.call

/-- A stretch of a run, with the entries it added to the journal. -/
structure Books (stack : Stack F T) (s s' : LiveState F T) (new : List (Entry F)) : Prop where
  journal : s'.journal = s.journal ++ new
  applied : s'.world.applied = s.world.applied ++ new.filterMap Entry.applied
  calls : s'.world.calls = s.world.calls + new.length
  client : s'.client = afterCalls stack.cfg stack.net s.client (labels new)
  sound : ∀ e ∈ new, e.Sound stack
  tiles : Tiles s.client.sent new s'.client.sent

/-- Some entries account for the stretch. -/
def Booked (stack : Stack F T) (s s' : LiveState F T) : Prop := ∃ new, Books stack s s' new

/-- Nothing was called. -/
theorem Booked.idle (stack : Stack F T) {s s' : LiveState F T} (hjournal : s'.journal = s.journal)
    (happlied : s'.world.applied = s.world.applied) (hcalls : s'.world.calls = s.world.calls)
    (hclient : s'.client = s.client) : Booked stack s s' := by
  refine ⟨[], ?_, ?_, hcalls, hclient, (fun _ h => nomatch h), ?_⟩
  · rw [hjournal, List.append_nil]
  · rw [happlied]
    exact (List.append_nil _).symm
  · rw [hclient]
    rfl

theorem Booked.refl (stack : Stack F T) (s : LiveState F T) : Booked stack s s :=
  Booked.idle stack rfl rfl rfl rfl

theorem Booked.trans {stack : Stack F T} {s t u : LiveState F T} (h : Booked stack s t)
    (h' : Booked stack t u) : Booked stack s u := by
  obtain ⟨es, hj, ha, hn, hc, hs, ht⟩ := h
  obtain ⟨es', hj', ha', hn', hc', hs', ht'⟩ := h'
  refine ⟨es ++ es', ?_, ?_, ?_, ?_, ?_, ht.append ht'⟩
  · rw [hj', hj, List.append_assoc]
  · rw [ha', ha, List.filterMap_append, List.append_assoc]
  · rw [hn', hn, List.length_append, Nat.add_assoc]
  · rw [hc', hc, labels, labels, labels, List.filterMap_append, afterCalls, afterCalls, afterCalls,
      run_append]
  · intro e he
    rcases List.mem_append.mp he with he | he
    · exact hs e he
    · exact hs' e he

variable {stack : Stack F T}

/-- The entry of a call of the client. -/
theorem sound_request (c : Call F) {label : PyStr} (hlabel : coreLabel c = some label)
    (s : ClientState T) : Entry.Sound stack ⟨c, s.sent,
      (request stack.cfg stack.net label s).2.sent - s.sent,
      (request stack.cfg stack.net label s).1⟩ := by
  refine Or.inr ⟨label, hlabel, ?_⟩
  have hsent := request_sent stack.cfg stack.net label s
  cases ha : (allow stack.net s).1 with
  | false =>
    refine Or.inr ⟨?_, ?_⟩
    · rw [hsent, ha]
      rfl
    · rw [request_eq_reference stack.cfg stack.net label s, reference, ha]
      rfl
  | true =>
    rw [ha, if_pos rfl] at hsent
    left
    refine ⟨?_, ?_, ?_, ?_⟩
    · rw [hsent, maxAttempts, Nat.add_comm]
      exact attemptsFrom_pos _ _ _
    · rw [hsent]
      exact attempts_le _ _
    · intro i hi
      rw [hsent] at hi
      exact again_of_lt (s.sent + ·) hi
    · rw [hsent, request_eq_reference stack.cfg stack.net label s, reference, if_pos ha]

theorem sent_le_request (cfg : ClientSettings) (net : Net F T) (label : PyStr) (s : ClientState T) :
    s.sent ≤ (request cfg net label s).2.sent := by
  rw [request_eq_reference cfg net label s, reference]
  split
  · exact Nat.le_add_right ..
  · exact Nat.le_refl _

/-- **A call** is booked. -/
theorem booked_call (stack : Stack F T) (c : Call F) (s : LiveState F T) :
    Booked stack s (stack.call c s).2 := by
  unfold Stack.call
  split
  · next label hlabel =>
    refine ⟨[_], rfl, congrArg (_ ++ ·) ?_, rfl, ?_, ?_, rfl, ?_⟩
    · simp [List.filterMap_cons]
      cases Entry.applied _ <;> rfl
    · simp [labels, hlabel, requestStep, LiveState.noted]
    · intro e he
      obtain rfl := List.mem_singleton.mp he
      exact sound_request c hlabel s.client
    · have := sent_le_request stack.cfg stack.net label s.client
      show s.client.sent + (_ - s.client.sent) = _
      exact Nat.add_sub_cancel' this
  · next hlabel =>
    refine ⟨[_], rfl, congrArg (_ ++ ·) ?_, rfl, ?_, ?_, rfl, rfl⟩
    · simp [List.filterMap_cons]
      cases Entry.applied _ <;> rfl
    · simp [labels, hlabel, LiveState.noted]
    · intro e he
      obtain rfl := List.mem_singleton.mp he
      exact Or.inl ⟨hlabel, rfl⟩

theorem booked_live (stack : Stack F T) (r : Request F) (s : LiveState F T) :
    Booked stack s (stack.live r s).2 := by
  cases r with
  | call c => exact booked_call stack c s
  | _ => exact Booked.idle stack rfl rfl rfl rfl

/-- A handler's program. -/
theorem booked_run {α : Type} (stack : Stack F T) (p : Prog F α) (s : LiveState F T) :
    Booked stack s (p.run stack.live s).2 :=
  Program.run_trans (Booked.refl stack) (fun h h' => h.trans h') (booked_live stack) p s

/-! ## Runs -/

variable [PyFloat F]

theorem booked_tick (app : App F D) (stack : Stack F T) (s : LiveState F T) :
    Booked stack s ((app.live stack).tick s) :=
  Booked.idle stack rfl rfl rfl rfl

/-- A dispatch. -/
theorem booked_dispatch (app : App F D) (stack : Stack F T) (event : EventMessage F D)
    (s : LiveState F T) : Booked stack s (dispatch (app.live stack).handlers event s).2 := by
  show Booked stack s (dispatch (handlersOn app.cfg app.rt stack.live) event s).2
  rw [dispatch_handlersOn]
  exact booked_run stack _ s

/-- A record. -/
theorem booked_handleRecord (app : App F D) (stack : Stack F T) (record : SqsRecord)
    (s : LiveState F T) : Booked stack s ((app.live stack).handleRecord none record s).2 := by
  have htick := booked_tick app stack s
  rw [handleRecord_none]
  split
  · exact htick
  · exact htick
  · exact htick.trans (booked_dispatch app stack _ _)

theorem booked_handleRecords (app : App F D) (stack : Stack F T) (records : List SqsRecord)
    (s : LiveState F T) : Booked stack s ((app.live stack).handleRecords none records s).2 :=
  handleRecords_inv (fun record s' h => h.trans (booked_handleRecord app stack record s'))
    (Booked.refl stack s)

/-- **A run is booked**: over any schedule, the client was asked for the calls of the journal and
for nothing else, every request belongs to one entry, and what was applied is what the entries
say. -/
theorem live_books (app : App F D) (stack : Stack F T) (schedule : List (List SqsRecord))
    (s : LiveState F T) : Booked stack s (run (app.live stack).invoke s schedule) :=
  run_inv (Booked stack s)
    (fun s' batch h => h.trans (booked_handleRecords app stack batch s')) schedule
    (Booked.refl stack s)

/-! ## Outages -/

/-- **An outage, whatever comes in.** Core is down from some point of a run on. Over any batches
handled in less than `n` cooldowns of the breaker, it gets at most `limit - 1 + n * N` requests. -/
theorem live_outage (app : App F D) (stack : Stack F ℚ) (hmono : Monotone stack.net.clock)
    (threshold : Int) (cooldownS : ℚ) (before during : List (List SqsRecord)) (n : Nat) :
    let start : LiveState F ℚ := .start (.init threshold cooldownS)
    let s := run (app.live stack).invoke start before
    let s' := run (app.live stack).invoke start (before ++ during)
    DownFrom stack.net s.client.sent →
    stack.net.clock s'.client.ticks - stack.net.clock s.client.ticks < n * cooldownS →
    (s'.client.sent : Int) ≤
      s.client.sent + (max 1 threshold - 1) + n * maxAttempts stack.cfg := by
  intro start s s' hdown hwithin
  obtain ⟨es, hbefore⟩ := live_books app stack before start
  obtain ⟨es', hduring⟩ := live_books app stack during s
  have hs : s.client = afterCalls stack.cfg stack.net (.init threshold cooldownS) (labels es) :=
    hbefore.client
  have hs' : s'.client = afterCalls stack.cfg stack.net (.init threshold cooldownS)
      (labels es ++ labels es') := by
    have hrun : s' = run (app.live stack).invoke s during := run_append ..
    rw [hrun, hduring.client, hs, afterCalls, afterCalls, afterCalls, run_append]
  rw [hs, hs'] at hwithin
  rw [hs] at hdown
  rw [hs, hs']
  exact run_down_sent stack.cfg hmono threshold cooldownS _ _ n hdown hwithin

/-! ## What reaches core -/

/-- The stack with core at the network's end. -/
def Stack.onto (stack : Stack F T) (core : CoreNet F T) : Stack F T :=
  { stack with net := core.net }

/-- How often core got an entry's call: once for each of its requests that arrived. -/
def Entry.reached (core : CoreNet F T) (e : Entry F) : Nat :=
  (List.range e.sent).countP fun i => core.reaches (e.first + i)

omit [PyFloat F] in
theorem countP_range_add (p : Nat → Bool) (n m : Nat) :
    (List.range (n + m)).countP p =
      (List.range n).countP p + (List.range m).countP fun i => p (n + i) := by
  induction m with
  | zero => rfl
  | succ m ih =>
    rw [← Nat.add_assoc, List.range_succ, List.countP_append, ih, List.range_succ,
      List.countP_append, Nat.add_assoc]
    rfl

omit [PyFloat F] in
theorem Tiles.le {n m : Nat} {es : List (Entry F)} (h : Tiles n es m) : n ≤ m := by
  induction es generalizing n with
  | nil => exact Nat.le_of_eq h
  | cons e es ih => exact (Nat.le_add_right n e.sent).trans (ih h.2)

omit [Clock T] in
omit [PyFloat F] in
/-- What core got between two states of the client is what the entries between them say. -/
theorem Tiles.reached {core : CoreNet F T} {s s' : ClientState T} {es : List (Entry F)}
    (h : Tiles s.sent es s'.sent) :
    Http.applied core s s' = (es.map (Entry.reached core)).sum := by
  have hsum : ∀ {n m}, Tiles n es m → (List.range (m - n)).countP (fun i => core.reaches (n + i)) =
      (es.map (Entry.reached core)).sum := by
    clear h
    intro n m h
    induction es generalizing n with
    | nil =>
      obtain rfl : n = m := h
      rw [Nat.sub_self]
      rfl
    | cons e es ih =>
      obtain ⟨rfl, hrest⟩ := h
      have hle := hrest.le
      have hsplit : m - e.first = e.sent + (m - (e.first + e.sent)) := by omega
      rw [hsplit, countP_range_add, List.map_cons, List.sum_cons, ← ih hrest]
      simp only [Entry.reached, Nat.add_assoc]
  exact hsum h

omit [Clock T] in
omit [PyFloat F] in
/-- A call into core got there no more often than it has attempts; and if it returned, once at
least. -/
theorem Entry.Sound.reached {core : CoreNet F T} {e : Entry F} (h : e.Sound (stack.onto core))
    (hcore : coreLabel e.call ≠ none) : e.reached core ≤ maxAttempts stack.cfg ∧
      (e.answer.isOk = true → 1 ≤ e.reached core) := by
  have hle : e.reached core ≤ e.sent := by
    have hcount := List.countP_le_length (p := fun i => core.reaches (e.first + i))
      (l := List.range e.sent)
    rwa [List.length_range] at hcount
  rcases h with ⟨hnone, -⟩ | ⟨label, -, hatt | href⟩
  · exact absurd hnone hcore
  · refine ⟨hle.trans hatt.most, ?_⟩
    intro hok
    have hans : answered core.net (e.first + (e.sent - 1)) = true := by
      have hended := hatt.ended
      rw [hended, Http.outcome] at hok
      unfold answered
      show (exchange core.net (e.first + (e.sent - 1))).isOk = true
      cases hx : exchange core.net (e.first + (e.sent - 1)) with
      | ok resp => rfl
      | error exc =>
        have hx' : exchange (stack.onto core).net (e.first + (e.sent - 1)) = .error exc := hx
        rw [hx'] at hok
        cases hok
    have hsome := hatt.some
    exact List.countP_pos_iff.mpr
      ⟨e.sent - 1, List.mem_range.mpr (by omega), core.reaches_of_answered hans⟩
  · refine ⟨by have := href.sent; omega, ?_⟩
    intro hok
    rw [href.answer] at hok
    cases hok

/-- The default settings, an empty table that takes every update, and noon. -/
def plainStack (net : Net Score ℚ) : Stack Score ℚ where
  cfg := ⟨2, 1 / 5, 2⟩
  net := net
  table _ := .ok .null
  clock _ := .noon

/-- Core loses every request, and the clock ticks once per reading. -/
def deadNet : Net Score ℚ where
  send _ := .error .TransportError
  clock n := n

/-- Four deliveries of an award while core is down: no more than seven requests. -/
theorem live_outage_award :
    ((run (plainApp.live (plainStack deadNet)).invoke (.start (.init 5 30))
      ([] ++ [[awardRecord, awardRecord], [awardRecord, awardRecord]])).client.sent : Int) ≤ 7 := by
  have hmono : Monotone deadNet.clock := fun m n h => by simpa [deadNet] using h
  have hdown : DownFrom deadNet (run (plainApp.live (plainStack deadNet)).invoke
      (.start (.init 5 30)) []).client.sent := fun _ _ => rfl
  have hwithin : deadNet.clock (run (plainApp.live (plainStack deadNet)).invoke
      (.start (.init 5 30))
      ([] ++ [[awardRecord, awardRecord], [awardRecord, awardRecord]])).client.ticks -
        deadNet.clock (run (plainApp.live (plainStack deadNet)).invoke
          (.start (.init 5 30)) []).client.ticks < ((1 : Nat) : ℚ) * 30 := by decide +kernel
  have hsent := live_outage plainApp (plainStack deadNet) hmono 5 30 []
    [[awardRecord, awardRecord], [awardRecord, awardRecord]] 1 hdown hwithin
  exact hsent

/-- Core gets every request and lists one quest, whatever it is asked. -/
def listingCore : CoreNet Score ℚ where
  net :=
    { send := fun _ => .ok ⟨200, .ok oneQuest, fun _ h => nomatch h⟩
      clock := fun n => n }
  reaches _ := true
  answers _ _ := Or.inl rfl
  loses _ h := nomatch h

end LingoAsync.Handlers
