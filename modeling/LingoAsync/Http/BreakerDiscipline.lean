import LingoAsync.Http.CoreClient
import Mathlib.Tactic.NormNum

/-!
# What the breaker promises, call by call

The breaker is asked once per call, before the first attempt, and told about
every attempt after it. Two promises of the module's comments rest on the calls
heeding it, and each holds of a run exactly when all its calls meet a condition
on the state before them and the answers to come:

* no request is sent through an `OPEN` breaker, `run_sends_iff`. A call breaks it
  when a retry follows a failure that opened the breaker; `KeepsClear` says when
  none does.
* a call let through as the half-open probe decides the breaker,
  `run_singleProbe_iff`. A probe answered by a failure not worth retrying records
  nothing, and leaves the breaker `HALF_OPEN`; `Decisive` excludes it.

Both are `Machine.run_iff_along` over one lemma about the loop.
-/

namespace LingoAsync.Http

open LingoAsync.Machine LingoAsync.Text

variable {F T : Type}

/-! ## Requests and the open breaker -/

/-- No request of the trace was sent through an open breaker. -/
def Clear (trace : List ClientEvent) : Prop := ∀ b, .send b ∈ trace → b ≠ .OPEN

theorem clear_nil : Clear [] := fun _ h => by cases h

theorem clear_append {t u : List ClientEvent} : Clear (t ++ u) ↔ Clear t ∧ Clear u := by
  simp only [Clear, List.mem_append]
  exact ⟨fun h => ⟨fun b hb => h b (Or.inl hb), fun b hb => h b (Or.inr hb)⟩,
    fun h b hb => hb.elim (h.1 b) (h.2 b)⟩

/-- One attempt puts one request on the trace. -/
theorem clear_attempt {b : BreakerState} {rest : List ClientEvent}
    (hrest : ∀ b', ClientEvent.send b' ∉ rest) : Clear (.send b :: rest) ↔ b ≠ .OPEN := by
  refine ⟨fun h => h b (List.mem_cons_self ..), ?_⟩
  intro h b' hb'
  rcases List.mem_cons.mp hb' with he | hm
  · rw [ClientEvent.send.inj he]; exact h
  · exact absurd hm (hrest b')

/-- How many of the `k` requests from the `n`-th on fail transiently before the
first that does not. -/
def transientRun (net : Net F T) : (n k : Nat) → Nat
  | _, 0 => 0
  | n, k + 1 => if failsTransiently net n then transientRun net (n + 1) k + 1 else 0

theorem transientRun_of_not {net : Net F T} {n : Nat} (h : failsTransiently net n = false)
    (k : Nat) : transientRun net n k = 0 := by
  cases k with
  | zero => rfl
  | succ k =>
    rw [transientRun, h]
    rfl

/-- The loop with `k` retries in hand, from a breaker that lets its first attempt
through: its requests stay clear exactly when it sends no retry, or starts
`CLOSED` and the retries' failures stay below the threshold. -/
theorem attemptLoop_clear_iff (cfg : ClientSettings) (net : Net F T) (k : Nat) :
    ∀ (attempt : Nat) (lastExc : Option PyExc) (s : ClientState T),
      Clear (attemptLoop cfg net (k + 1) attempt lastExc s).2.trace ↔
        Clear s.trace ∧ s.breaker.state ≠ .OPEN ∧
          (transientRun net s.sent k = 0 ∨
            (s.breaker.state = .CLOSED ∧
              s.breaker.failures + transientRun net s.sent k < s.breaker.threshold)) := by
  induction k with
  | zero =>
    intro attempt lastExc s
    have hclear : ∀ e : List ClientEvent, (∀ b', ClientEvent.send b' ∉ e) →
        (Clear (s.trace ++ .send s.breaker.state :: e) ↔
          Clear s.trace ∧ s.breaker.state ≠ .OPEN) := by
      intro e he
      rw [clear_append, clear_attempt he]
    have hrun : transientRun net s.sent 0 = 0 := rfl
    simp only [hrun, true_or, and_true]
    rcases exchange_cases net s.sent with ht | ha | ⟨ha, ht⟩
    · obtain ⟨e, -, he⟩ := attemptLoop_transient cfg 0 attempt lastExc ht
      rw [he, attemptLoop]
      exact hclear _ (by simp)
    · obtain ⟨resp, -, he⟩ := attemptLoop_answered cfg 0 attempt lastExc ha
      rw [he]
      exact hclear _ (by simp)
    · obtain ⟨e, -, he⟩ := attemptLoop_refused cfg 0 attempt lastExc ha ht
      rw [he]
      exact hclear _ (by simp)
  | succ k ih =>
    intro attempt lastExc s
    have hends : failsTransiently net s.sent = false →
        (Clear (s.trace ++ [.send s.breaker.state, .close]) ↔ Clear s.trace ∧
          s.breaker.state ≠ .OPEN ∧ (transientRun net s.sent (k + 1) = 0 ∨
            (s.breaker.state = .CLOSED ∧ s.breaker.failures +
              transientRun net s.sent (k + 1) < s.breaker.threshold))) := by
      intro ht
      rw [transientRun_of_not ht, clear_append, clear_attempt (by simp)]
      simp only [true_or, and_true]
    rcases exchange_cases net s.sent with ht | ha | ⟨ha, ht⟩
    · obtain ⟨e, -, he⟩ := attemptLoop_transient cfg (k + 1) attempt lastExc ht
      have hrun : transientRun net s.sent (k + 1) = transientRun net (s.sent + 1) k + 1 := by
        rw [transientRun, ht]; rfl
      rw [he, ih, hrun]
      simp only [clear_append]
      rw [clear_attempt (by simp), CircuitBreaker.recordFailure_failures,
        CircuitBreaker.recordFailure_threshold, and_assoc]
      refine and_congr_right fun _ => and_congr_right ?_
      intro hopen
      by_cases htrip : s.breaker.state = .HALF_OPEN ∨ s.breaker.failures + 1 ≥ s.breaker.threshold
      · -- this failure opens the breaker, and the retry goes out all the same
        rw [CircuitBreaker.recordFailure_trips htrip]
        refine ⟨fun h => absurd rfl h.1, ?_⟩
        intro hcase
        rcases hcase with h0 | ⟨hc, hlt⟩
        · omega
        · rcases htrip with hh | hge
          · rw [hc] at hh; cases hh
          · push_cast at hlt; omega
      · -- the failure is only counted, and the retry goes out through a closed breaker
        rw [CircuitBreaker.recordFailure_counts htrip]
        obtain ⟨hhalf, hbelow⟩ := not_or.mp htrip
        have hc : s.breaker.state = .CLOSED := by
          cases hs : s.breaker.state
          · rfl
          · exact absurd hs hopen
          · exact absurd hs hhalf
        constructor
        · intro hyp
          obtain ⟨-, h⟩ := hyp
          refine Or.inr ⟨hc, ?_⟩
          rcases h with h0 | ⟨-, hlt⟩ <;> push_cast <;> omega
        · intro hcase
          rcases hcase with h0 | ⟨-, hlt⟩
          · omega
          · push_cast at hlt
            exact ⟨hopen, Or.inr ⟨hc, by omega⟩⟩
    · obtain ⟨resp, hx, he⟩ := attemptLoop_answered cfg (k + 1) attempt lastExc ha
      rw [he]
      refine hends ?_
      rw [failsTransiently, hx]
    · obtain ⟨e, -, he⟩ := attemptLoop_refused cfg (k + 1) attempt lastExc ha ht
      rw [he]
      exact hends ht

variable [Clock T]

/-- The retries a call sends: the transient failures among its attempts but the
last. -/
def retriesSent (cfg : ClientSettings) (net : Net F T) (s : ClientState T) : Nat :=
  transientRun net s.sent cfg.CORE_CLIENT_MAX_RETRIES.toNat

/-- The call sends nothing through an open breaker: it is refused, or sends no
retry, or starts `CLOSED` with its retries' failures staying below the threshold. -/
def KeepsClear (cfg : ClientSettings) (net : Net F T) (s : ClientState T) (_ : PyStr) : Prop :=
  (allow net s).1 = false ∨ retriesSent cfg net s = 0 ∨
    (s.breaker.state = .CLOSED ∧
      s.breaker.failures + retriesSent cfg net s < s.breaker.threshold)

theorem request_refused (cfg : ClientSettings) {net : Net F T} {s : ClientState T} (label : PyStr)
    (h : (allow net s).1 = false) : requestStep cfg net s label = (allow net s).2 := by
  unfold requestStep request
  rw [show allow net s = (false, (allow net s).2) from Prod.ext h rfl]

theorem request_admitted (cfg : ClientSettings) {net : Net F T} {s : ClientState T} (label : PyStr)
    (h : (allow net s).1 = true) :
    requestStep cfg net s label =
      (attemptLoop cfg net (cfg.CORE_CLIENT_MAX_RETRIES.toNat + 1) 0 none (allow net s).2).2 := by
  unfold requestStep request
  rw [show allow net s = (true, (allow net s).2) from Prod.ext h rfl, Nat.add_comm]

/-- What `allow` leaves alone. -/
theorem allow_frame (net : Net F T) (s : ClientState T) :
    (allow net s).2.sent = s.sent ∧ (allow net s).2.trace = s.trace ∧
      (allow net s).2.breaker.failures = s.breaker.failures ∧
      (allow net s).2.breaker.threshold = s.breaker.threshold ∧
      ((allow net s).2.breaker.state = .CLOSED ↔ s.breaker.state = .CLOSED) := by
  refine ⟨rfl, rfl, ?_⟩
  rcases CircuitBreaker.allow_cases s.breaker (net.clock s.ticks) with
    ⟨_, he⟩ | ⟨ho, _, he⟩ | ⟨_, _, he⟩
  · simp [allow, he]
  · simp [allow, he, ho]
  · simp [allow, he]

theorem requestStep_clear_iff (cfg : ClientSettings) (net : Net F T) (s : ClientState T)
    (label : PyStr) :
    Clear (requestStep cfg net s label).trace ↔ Clear s.trace ∧ KeepsClear cfg net s label := by
  obtain ⟨hsent, htrace, hfail, hthr, hclosed⟩ := allow_frame net s
  cases ha : (allow net s).1 with
  | false =>
    rw [request_refused cfg label ha, htrace]
    constructor
    · intro h
      exact ⟨h, Or.inl ha⟩
    · intro h
      exact h.1
  | true =>
    have hopen : (allow net s).2.breaker.state ≠ .OPEN := CircuitBreaker.allow_true_state ha
    rw [request_admitted cfg label ha, attemptLoop_clear_iff, hsent, htrace, hfail, hthr, hclosed]
    unfold KeepsClear retriesSent
    rw [ha]
    simp only [Bool.true_eq_false, false_or]
    exact and_congr_right fun _ => ⟨fun h => h.2, fun h => ⟨hopen, h⟩⟩

/-- **Requests and the open breaker.** Over any calls that share a breaker, any
network and any clock: no request is ever sent while the breaker is `OPEN` if and
only if every call keeps clear. -/
theorem run_sends_iff (cfg : ClientSettings) (net : Net F T) (threshold : Int) (cooldownS : T)
    (labels : List PyStr) :
    (∀ b, .send b ∈ (run (requestStep cfg net) (.init threshold cooldownS) labels).trace →
        b ≠ .OPEN) ↔
      Along (requestStep cfg net) (KeepsClear cfg net) (.init threshold cooldownS) labels := by
  have h := run_iff_along (fun s : ClientState T => Clear s.trace)
    (requestStep_clear_iff cfg net) labels (.init threshold cooldownS)
  exact h.trans (and_iff_right clear_nil)

/-- A network that is down, under a clock that ticks once per reading. -/
def downNet : Net Unit ℚ where
  send _ := .error .TransportError
  clock n := n

/-- With the default settings (two retries, threshold five, a cooldown of thirty
seconds) and core down, the second call's second failure is the fifth in a row
and opens the breaker; its third attempt goes out all the same. -/
theorem run_sends_open :
    (0 : ℚ) < 30 ∧ Monotone downNet.clock ∧
    ¬ ∀ b, .send b ∈ (run (requestStep ⟨2, 1 / 5, 2⟩ downNet) (.init 5 30)
        [py "add_xp", py "list_quests"]).trace → b ≠ .OPEN := by
  refine ⟨by norm_num, fun m n h => by simpa [downNet] using h, ?_⟩
  intro h
  exact h .OPEN (by decide) rfl

/-! ## The half-open probe -/

/-- The call is let through as the probe: `allow` moves the breaker from `OPEN` to
`HALF_OPEN`. -/
def IsProbe (net : Net F T) (s : ClientState T) : Prop :=
  s.breaker.state = .OPEN ∧ (allow net s).1 = true

/-- A call that is a probe does not meet, at its first attempt, a failure not worth
retrying. -/
def Decisive (net : Net F T) (s : ClientState T) (_ : PyStr) : Prop :=
  IsProbe net s → answered net s.sent = true ∨ failsTransiently net s.sent = true

omit [Clock T] in
/-- The loop never makes the breaker `HALF_OPEN`. -/
theorem attemptLoop_not_halfOpen (cfg : ClientSettings) (net : Net F T) (left attempt : Nat)
    (lastExc : Option PyExc) (s : ClientState T) (h : s.breaker.state ≠ .HALF_OPEN) :
    (attemptLoop cfg net left attempt lastExc s).2.breaker.state ≠ .HALF_OPEN := by
  induction left generalizing attempt lastExc s with
  | zero =>
    rw [attemptLoop]
    exact h
  | succ left ih =>
    rcases exchange_cases net s.sent with ht | ha | ⟨ha, ht⟩
    · obtain ⟨e, -, he⟩ := attemptLoop_transient cfg left attempt lastExc ht
      rw [he]
      exact ih _ _ _ (CircuitBreaker.recordFailure_not_halfOpen _ _)
    · -- an answer closes the breaker
      obtain ⟨resp, -, he⟩ := attemptLoop_answered cfg left attempt lastExc ha
      rw [he]
      simp
    · -- a failure not worth retrying is not recorded
      obtain ⟨e, -, he⟩ := attemptLoop_refused cfg left attempt lastExc ha ht
      rw [he]
      exact h

omit [Clock T] in
/-- The loop of a probe leaves `HALF_OPEN` exactly when its first attempt is
answered or fails transiently. -/
theorem attemptLoop_probe_iff (cfg : ClientSettings) (net : Net F T) (left attempt : Nat)
    (lastExc : Option PyExc) {s : ClientState T} (hs : s.breaker.state = .HALF_OPEN) :
    (attemptLoop cfg net (left + 1) attempt lastExc s).2.breaker.state ≠ .HALF_OPEN ↔
      answered net s.sent = true ∨ failsTransiently net s.sent = true := by
  rcases exchange_cases net s.sent with ht | ha | ⟨ha, ht⟩
  · obtain ⟨e, -, he⟩ := attemptLoop_transient cfg left attempt lastExc ht
    rw [he]
    refine ⟨fun _ => Or.inr ht, ?_⟩
    intro _
    exact attemptLoop_not_halfOpen cfg net left _ _ _
      (CircuitBreaker.recordFailure_not_halfOpen _ _)
  · obtain ⟨resp, -, he⟩ := attemptLoop_answered cfg left attempt lastExc ha
    rw [he]
    constructor
    · intro _
      exact Or.inl ha
    · intro _
      simp
  · obtain ⟨e, -, he⟩ := attemptLoop_refused cfg left attempt lastExc ha ht
    rw [he, ha, ht]
    simp [hs]

/-- Between calls that find the breaker decided, a call leaves it decided exactly
when it is decisive. -/
theorem requestStep_decided_iff (cfg : ClientSettings) (net : Net F T) (s : ClientState T)
    (label : PyStr) (hs : s.breaker.state ≠ .HALF_OPEN) :
    (requestStep cfg net s label).breaker.state ≠ .HALF_OPEN ↔ Decisive net s label := by
  unfold Decisive IsProbe
  rcases CircuitBreaker.allow_cases s.breaker (net.clock s.ticks) with
    ⟨ho, he⟩ | ⟨ho, _, he⟩ | ⟨ho, _, he⟩
  · have ha : allow net s = (true, { s with ticks := s.ticks + 1 }) := by simp [allow, he]
    rw [request_admitted cfg label (by rw [ha]), ha]
    refine ⟨fun _ h => absurd h.1 ho, ?_⟩
    intro _
    exact attemptLoop_not_halfOpen cfg net _ _ _ _ hs
  · have ha : allow net s =
        (true, { s with
          breaker := { s.breaker with state := .HALF_OPEN }, ticks := s.ticks + 1 }) := by
      simp [allow, he]
    rw [request_admitted cfg label (by rw [ha]), ha, attemptLoop_probe_iff cfg net _ _ _ rfl]
    constructor
    · intro h _
      exact h
    · intro h
      exact h ⟨ho, rfl⟩
  · have ha : allow net s = (false, { s with ticks := s.ticks + 1 }) := by simp [allow, he]
    rw [request_refused cfg label (by rw [ha]), ha]
    constructor
    · intro _ h
      exact absurd h.2 (by simp)
    · intro _
      exact hs

/-- What the breaker promises of probes over a run: a call let through as the
probe leaves the breaker `CLOSED` or `OPEN`; between calls it is never
`HALF_OPEN`; and a call let through half-open is the one that moved it there. -/
structure SingleProbe (cfg : ClientSettings) (net : Net F T) (s : ClientState T)
    (labels : List PyStr) : Prop where
  decides : ∀ js l, js ++ [l] <+: labels → IsProbe net (run (requestStep cfg net) s js) →
    (run (requestStep cfg net) s (js ++ [l])).breaker.state = .CLOSED ∨
    (run (requestStep cfg net) s (js ++ [l])).breaker.state = .OPEN
  settled : ∀ js, js <+: labels →
    (run (requestStep cfg net) s js).breaker.state ≠ .HALF_OPEN
  alone : ∀ js l, js ++ [l] <+: labels →
    (allow net (run (requestStep cfg net) s js)).1 = true →
    (allow net (run (requestStep cfg net) s js)).2.breaker.state = .HALF_OPEN →
    IsProbe net (run (requestStep cfg net) s js)

/-- The other two promises follow from the breaker being decided between calls. -/
theorem singleProbe_iff_settled (cfg : ClientSettings) (net : Net F T) (s : ClientState T)
    (labels : List PyStr) :
    SingleProbe cfg net s labels ↔
      ∀ js, js <+: labels → (run (requestStep cfg net) s js).breaker.state ≠ .HALF_OPEN := by
  refine ⟨fun h => h.settled, fun h => ⟨fun js l hjs _ => ?_, h, fun js l hjs ha hh => ⟨?_, ha⟩⟩⟩
  · -- decided after the probe means `CLOSED` or `OPEN`
    cases hst : (run (requestStep cfg net) s (js ++ [l])).breaker.state
    · exact Or.inl rfl
    · exact Or.inr rfl
    · exact absurd hst (h _ hjs)
  · -- `allow` reports `HALF_OPEN` only of a breaker it found `OPEN`, or found `HALF_OPEN` already
    have hne := h js ((List.prefix_append js [l]).trans hjs)
    rcases CircuitBreaker.allow_cases (run (requestStep cfg net) s js).breaker
        (net.clock (run (requestStep cfg net) s js).ticks) with ⟨_, he⟩ | ⟨ho, _, _⟩ | ⟨ho, _, _⟩
    · simp only [allow, he] at hh
      exact absurd hh hne
    · exact ho
    · exact ho

/-- **Single-probe resolution.** Over any calls that share a breaker, any network
and any clock: probes resolve as promised if and only if every call is decisive. -/
theorem run_singleProbe_iff (cfg : ClientSettings) (net : Net F T) (threshold : Int)
    (cooldownS : T) (labels : List PyStr) :
    SingleProbe cfg net (.init threshold cooldownS) labels ↔
      Along (requestStep cfg net) (Decisive net) (.init threshold cooldownS) labels := by
  rw [singleProbe_iff_settled]
  have hinit : (ClientState.init threshold cooldownS).breaker.state ≠ .HALF_OPEN :=
    show BreakerState.CLOSED ≠ .HALF_OPEN by decide
  exact run_inv_iff (requestStep_decided_iff cfg net) labels hinit

/-- Core is unreachable at the first request and answers 401 from then on; a
minute passes between readings of the clock. -/
def lockedOutNet : Net Unit ℚ where
  send n := if n = 0 then .error .TransportError else .error (.HTTPStatusError 401)
  clock n := 60 * n

/-- A threshold of one, no retries: the first call opens the breaker; a minute
later the second is the probe, is answered 401, and leaves the breaker `HALF_OPEN`. -/
theorem run_probe_undecided :
    ¬ SingleProbe ⟨0, 1 / 5, 2⟩ lockedOutNet (.init 1 30) [py "add_xp", py "list_quests"] := by
  intro h
  let s := run (requestStep ⟨0, 1 / 5, 2⟩ lockedOutNet) (.init 1 30) [py "add_xp"]
  have hopen : s.breaker.state = .OPEN := by decide
  have helapsed : s.breaker.cooldownS ≤ lockedOutNet.clock s.ticks - s.breaker.openedAt := by
    show (30 : ℚ) ≤ 60 * ((2 : ℕ) : ℚ) - 60 * ((1 : ℕ) : ℚ)
    norm_num
  have hprobe : IsProbe lockedOutNet s := by
    refine ⟨hopen, ?_⟩
    rw [allow, CircuitBreaker.allow_open_elapsed hopen helapsed]
  have hdecided : s.breaker.state ≠ .HALF_OPEN := by rw [hopen]; decide
  -- decided before the probe, so decided after it only if the probe was decisive, and 401 is not
  rcases (requestStep_decided_iff _ _ s (py "list_quests") hdecided).mp
    (h.settled _ (List.prefix_refl _)) hprobe with hans | hfail
  · exact absurd hans (by decide)
  · exact absurd hfail (by decide)

end LingoAsync.Http
