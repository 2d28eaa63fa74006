import LingoAsync.Handlers.Shut

/-!
# Handling messages while the circuit is open

An open breaker is there to keep the worker off a core that is down. A batch handled within the
cooldown sends core nothing and leaves the breaker as it is; no callback returns; and no message is
lost for it: each whose event needs core is reported, and so comes again (`live_sheds`).
-/

namespace LingoAsync.Handlers

open LingoAsync.Text LingoAsync.Contracts LingoAsync.Calendar LingoAsync.Handler
open LingoAsync.Http LingoAsync.Machine LingoAsync.Action LingoAsync.Retry

variable {F D T : Type} [Clock T]

/-! ## The client -/

theorem ticks_le_afterCalls (cfg : ClientSettings) (net : Net F T) (s : ClientState T)
    (labels : List PyStr) : s.ticks ≤ (afterCalls cfg net s labels).ticks := by
  refine run_inv (fun s' : ClientState T => s.ticks ≤ s'.ticks) ?_ labels (Nat.le_refl _)
  intro s' label h
  refine h.trans ?_
  rw [requestStep, request_eq_reference cfg net label s', reference]
  split
  · exact (Nat.le_succ _).trans (Nat.le_add_right _ _)
  · exact Nat.le_succ _

/-- A call within the cooldown is refused. -/
theorem allow_cooling {net : Net F T} {s : ClientState T} (h : Cooling net s s.ticks) :
    (allow net s).1 = false := by
  rw [allow, CircuitBreaker.allow_open_cooling h.1 (not_le.mpr h.2)]

/-- Calls within the cooldown send nothing and leave the breaker alone. -/
theorem afterCalls_cooling (cfg : ClientSettings) {net : Net F T} (hmono : Monotone net.clock)
    {s : ClientState T} {labels : List PyStr}
    (h : Cooling net s (afterCalls cfg net s labels).ticks) :
    (afterCalls cfg net s labels).sent = s.sent ∧
      (afterCalls cfg net s labels).breaker = s.breaker := by
  induction labels generalizing s with
  | nil => exact ⟨rfl, rfl⟩
  | cons label labels ih =>
    have hfirst := h.earlier hmono (ticks_le_afterCalls cfg net s (label :: labels))
    have hstep : requestStep cfg net s label = { s with ticks := s.ticks + 1 } := by
      rw [request_refused cfg label (allow_cooling hfirst), allow_refused (allow_cooling hfirst)]
    have hrun : afterCalls cfg net s (label :: labels) =
        afterCalls cfg net { s with ticks := s.ticks + 1 } labels := by
      rw [afterCalls, run_cons, hstep]
    rw [hrun] at h ⊢
    exact ih h

/-! ## The entries -/

variable {stack : Stack F T}

/-- Where the requests of some entries come to none, each entry has none. -/
theorem Tiles.none_sent {n : Nat} {es : List (Entry F)} (h : Tiles n es n) :
    ∀ e ∈ es, e.sent = 0 := by
  induction es with
  | nil => exact fun e he => nomatch he
  | cons e es ih =>
    have hle := h.2.le
    have hzero : e.sent = 0 := by omega
    have hrest := h.2
    rw [hzero] at hrest
    intro e' he'
    rcases List.mem_cons.mp he' with rfl | he'
    · exact hzero
    · exact ih hrest e' he'

/-- Within the cooldown no callback is let through. -/
theorem Books.shed (hmono : Monotone stack.net.clock) {s s' : LiveState F T} {new : List (Entry F)}
    (h : Books stack s s' new) (hcool : Cooling stack.net s.client s'.client.ticks) :
    s'.client.sent = s.client.sent ∧ s'.client.breaker = s.client.breaker ∧
      ∀ e ∈ new, ∀ label, coreLabel e.call = some label → e.Refused label := by
  rw [h.client] at hcool
  obtain ⟨hsent, hbreaker⟩ := afterCalls_cooling stack.cfg hmono hcool
  rw [← h.client] at hsent hbreaker
  refine ⟨hsent, hbreaker, ?_⟩
  intro e he label hlabel
  have hnone := (hsent ▸ h.tiles).none_sent e he
  rcases h.sound e he with ⟨hno, -⟩ | ⟨label', hlabel', hatt | href⟩
  · rw [hlabel] at hno
    cases hno
  · have := hatt.some
    omega
  · obtain rfl := Option.some.inj (hlabel.symm.trans hlabel')
    exact href

/-! ## The handlers -/

theorem Booked.ticks_le {s t : LiveState F T} (h : Booked stack s t) :
    s.client.ticks ≤ t.client.ticks := by
  obtain ⟨new, hbooks⟩ := h
  rw [hbooks.client]
  exact ticks_le_afterCalls ..

/-- Within the cooldown of a state is within that of every later state. -/
theorem Booked.cooling (hmono : Monotone stack.net.clock) {s t u : LiveState F T}
    (h : Booked stack s t) (h' : Booked stack t u)
    (hcool : Cooling stack.net s.client u.client.ticks) :
    Cooling stack.net t.client u.client.ticks := by
  obtain ⟨new, hbooks⟩ := h
  obtain ⟨-, hbreaker, -⟩ := hbooks.shed hmono (hcool.earlier hmono h'.ticks_le)
  rw [Cooling, hbreaker]
  exact hcool

/-- Within the cooldown no call into core is let through. -/
theorem shut_cooling {s : LiveState F T} (hcool : Cooling stack.net s.client s.client.ticks) :
    Shut stack s := by
  intro c label hlabel
  refine ⟨.CircuitOpenError (py "circuit open for lingo-core (" ++ label ++ py ")"), ?_, by simp⟩
  unfold Stack.call
  rw [hlabel]
  show (request stack.cfg stack.net label s.client).1 = _
  rw [request_eq_reference stack.cfg stack.net label s.client, reference, allow_cooling hcool]
  rfl

variable [PyFloat F]

/-! ## A batch -/

/-- **A batch while the circuit is open.** The breaker is open, and its cooldown is not over when
the batch is done. Then the batch sends core nothing and leaves the breaker as it is, no callback
returns, and every message whose event needs core is among the failures: it comes again. -/
theorem live_sheds (app : App F D) (stack : Stack F T) (hmono : Monotone stack.net.clock)
    (s : LiveState F T) (batch : List SqsRecord) :
    let w := app.live stack
    let s' := w.invoke s batch
    Cooling stack.net s.client s'.client.ticks →
    s'.client.sent = s.client.sent ∧ s'.client.breaker = s.client.breaker ∧
    (∃ new, s'.journal = s.journal ++ new ∧
      ∀ e ∈ new, coreLabel e.call ≠ none → e.answer.isOk = false) ∧
    ∀ failures, (w.lambdaHandler batch s).1 = .ok failures →
      ∀ pre record post event, batch = pre ++ record :: post → w.parse record = .ok event →
        NeedsCore (w.handleRecords none pre s).2.world.unmounted event →
        record.id ∈ failures := by
  intro w s' hcool
  obtain ⟨new, hbooks⟩ : Booked stack s s' := booked_handleRecords app stack batch s
  obtain ⟨hsent, hbreaker, hrefused⟩ := hbooks.shed hmono hcool
  refine ⟨hsent, hbreaker, ⟨new, hbooks.journal, ?_⟩, ?_⟩
  · intro e he hcore
    obtain ⟨label, hlabel⟩ := Option.ne_none_iff_exists'.mp hcore
    rw [(hrefused e he label hlabel).answer]
    rfl
  · intro failures hfailures pre record post event hbatch hparse hneeds
    refine batch_shut app stack s batch (fun t ht ht' => ?_) hfailures hbatch hparse hneeds
    exact shut_cooling ((ht.cooling hmono ht' hcool).earlier hmono ht'.ticks_le)

/-- A client whose breaker has just opened. -/
def trippedClient : ClientState ℚ :=
  { ClientState.init 5 (30 : ℚ) with
    breaker := { CircuitBreaker.init 5 (30 : ℚ) with failures := 5, state := .OPEN } }

/-- An award that comes in a second after the breaker opened is reported. -/
theorem live_sheds_award : ∃ failures,
    ((plainApp.live (plainStack deadNet)).lambdaHandler [awardRecord] (.start trippedClient)).1 =
      .ok failures ∧ awardRecord.id ∈ failures := by
  have hmono : Monotone deadNet.clock := fun m n h => by simpa [deadNet] using h
  have hcool : Cooling deadNet trippedClient
      ((plainApp.live (plainStack deadNet)).invoke (.start trippedClient)
        [awardRecord]).client.ticks := ⟨rfl, by decide +kernel⟩
  have hparse : (plainApp.live (plainStack deadNet)).parse awardRecord = .ok award := by
    decide +kernel
  have hfailures : ((plainApp.live (plainStack deadNet)).lambdaHandler [awardRecord]
      (.start trippedClient)).1 = .ok [awardRecord.id] := by decide +kernel
  have hneeds : NeedsCore false award := Or.inl ⟨_, rfl, by decide, by decide⟩
  obtain ⟨-, -, -, hreported⟩ := live_sheds plainApp (plainStack deadNet) hmono
    (.start trippedClient) [awardRecord] hcool
  exact ⟨_, hfailures, hreported _ hfailures [] awardRecord [] award rfl hparse hneeds⟩

end LingoAsync.Handlers
