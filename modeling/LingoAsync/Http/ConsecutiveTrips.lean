import LingoAsync.Http.RetryLoop

/-!
# Failures in a row

The breaker is to open "once core has tripped us this many times in a row". Its counter is
reset by an answer, and by nothing else: an attempt that is refused, a 404 say, shows that core
is up, but ends its call without a word to the breaker. So failures that such answers stand
between add up.

`TripsInARow` is the promise, for one call: where the breaker goes from `CLOSED` to `OPEN`, the
last attempts, as many as the threshold, all failed transiently. A run keeps it exactly if no
call trips the breaker on an interrupted count (`run_tripsInARow_iff`): a call that brings the
counter to the threshold finds that the attempts it counts were the latest ones.
-/

namespace LingoAsync.Http

open LingoAsync.Machine LingoAsync.Text LingoAsync.Retry

variable {F T : Type} [Clock T]

/-- The breaker goes from `CLOSED` to `OPEN` when the call's attempt `i`, counted from zero, is
recorded. Nothing but a recorded failure opens a breaker, and `failing` is the call's own breaker
while its attempts fail (`request_eq_reference`). -/
structure OpensAt (cfg : ClientSettings) (net : Net F T) (s : ClientState T) (i : Nat) : Prop where
  admitted : (allow net s).1 = true
  made : i < attemptsFrom net s.sent (maxAttempts cfg)
  fails : failsTransiently net (s.sent + i) = true
  closed : (failing net (allow net s).2.breaker (s.ticks + 1) i).state = .CLOSED
  opened : (failing net (allow net s).2.breaker (s.ticks + 1) (i + 1)).state = .OPEN

/-- When the call opens the breaker, the last attempts, as many as the threshold, all failed
transiently. -/
def TripsInARow (cfg : ClientSettings) (net : Net F T) (s : ClientState T) (_ : PyStr) : Prop :=
  ∀ i, OpensAt cfg net s i → ∀ k : Nat, (k : Int) < s.breaker.threshold →
    k ≤ s.sent + i ∧ failsTransiently net (s.sent + i - k) = true

/-- The failures on the counter are those of the latest attempts. -/
def Uninterrupted (net : Net F T) (s : ClientState T) : Prop :=
  ∀ k : Nat, (k : Int) < s.breaker.failures →
    k < s.sent ∧ failsTransiently net (s.sent - 1 - k) = true

/-- If the call finds the breaker `CLOSED` and its failures bring the counter to the threshold,
the count was not interrupted. -/
def CountsInARow (cfg : ClientSettings) (net : Net F T) (s : ClientState T) (_ : PyStr) : Prop :=
  s.breaker.state = .CLOSED →
    s.breaker.threshold ≤ s.breaker.failures + transientRun net s.sent (maxAttempts cfg) →
    Uninterrupted net s

/-! ## The counter -/

theorem counted_request (cfg : ClientSettings) (net : Net F T) (s : ClientState T) (label : PyStr)
    (h : Counted s.breaker) : Counted (requestStep cfg net s label).breaker := by
  have hallow : Counted (allow net s).2.breaker := counted_step h ⟨.allow, net.clock s.ticks⟩
  rw [requestStep, request_eq_reference cfg net label s, reference]
  cases (allow net s).1 with
  | true => exact run_inv Counted (fun _ c hb => counted_step hb c) _ hallow
  | false => exact h

/-- Each failure adds one to the counter, and the threshold stays. -/
theorem failing_counter (net : Net F T) (b : CircuitBreaker T) (ticks i : Nat) :
    (failing net b ticks i).failures = b.failures + i ∧
      (failing net b ticks i).threshold = b.threshold := by
  induction i generalizing b ticks with
  | zero => exact ⟨(add_zero _).symm, rfl⟩
  | succ i ih =>
    obtain ⟨hfailures, hthreshold⟩ := ih (b.recordFailure (net.clock ticks)) (ticks + 1)
    rw [failing_succ, hfailures, hthreshold, CircuitBreaker.recordFailure_failures,
      CircuitBreaker.recordFailure_threshold]
    exact ⟨by push_cast; ring, rfl⟩

theorem failing_closed_iff {net : Net F T} {b : CircuitBreaker T} (h : Counted b) (ticks i : Nat) :
    (failing net b ticks i).state = .CLOSED ↔ b.failures + i < b.threshold := by
  have hcounted : Counted (failing net b ticks i) :=
    run_inv Counted (fun _ c hb => counted_step hb c) _ h
  obtain ⟨hfailures, hthreshold⟩ := failing_counter net b ticks i
  rw [← hfailures, ← hthreshold]
  exact hcounted

/-- After a failure the breaker is `CLOSED` or `OPEN`. -/
theorem failing_not_halfOpen (net : Net F T) {b : CircuitBreaker T} (h : b.state ≠ .HALF_OPEN)
    (ticks i : Nat) : (failing net b ticks i).state ≠ .HALF_OPEN := by
  induction i generalizing b ticks with
  | zero => exact h
  | succ i ih =>
    rw [failing_succ]
    exact ih (CircuitBreaker.recordFailure_not_halfOpen b _) _

theorem failing_open_iff {net : Net F T} {b : CircuitBreaker T} (h : Counted b) (ticks i : Nat) :
    (failing net b ticks (i + 1)).state = .OPEN ↔ b.threshold ≤ b.failures + i + 1 := by
  have hclosed : (failing net b ticks (i + 1)).state = .CLOSED ↔
      b.failures + ((i + 1 : Nat) : Int) < b.threshold := failing_closed_iff h ticks (i + 1)
  have hhalf : (failing net b ticks (i + 1)).state ≠ .HALF_OPEN := by
    rw [failing_succ]
    exact failing_not_halfOpen net (CircuitBreaker.recordFailure_not_halfOpen b _) _ _
  push_cast at hclosed
  cases hs : (failing net b ticks (i + 1)).state with
  | CLOSED =>
    rw [hs] at hclosed
    have := hclosed.mp rfl
    exact iff_of_false nofun (by omega)
  | OPEN =>
    rw [hs] at hclosed
    refine iff_of_true rfl (not_lt.mp fun hlt => ?_)
    exact absurd (hclosed.mpr (by omega)) nofun
  | HALF_OPEN => exact absurd hs hhalf

/-! ## The attempt that trips the breaker -/

omit [Clock T] in
/-- The transient failures a call starts with are its attempts that fail transiently. -/
theorem lt_transientRun_iff (net : Net F T) (n N i : Nat) :
    i < transientRun net n N ↔
      i < attemptsFrom net n N ∧ failsTransiently net (n + i) = true := by
  induction N generalizing n i with
  | zero => exact iff_of_false (Nat.not_lt_zero i) fun h => Nat.not_lt_zero i h.1
  | succ N ih =>
    rw [transientRun, attemptsFrom_succ]
    cases hn : failsTransiently net n with
    | false =>
      refine iff_of_false (Nat.not_lt_zero i) ?_
      intro h
      obtain rfl : i = 0 := Nat.lt_one_iff.mp h.1
      exact absurd (hn.symm.trans h.2) Bool.false_ne_true
    | true =>
      rw [if_pos rfl, if_pos rfl]
      cases i with
      | zero => exact iff_of_true (Nat.succ_pos _) ⟨Nat.succ_pos _, hn⟩
      | succ i =>
        rw [Nat.succ_lt_succ_iff, Nat.succ_lt_succ_iff, ih, Nat.add_right_comm, Nat.add_assoc]

/-- The breaker opens at the attempt that brings the counter to the threshold. -/
theorem opensAt_iff (cfg : ClientSettings) {net : Net F T} {s : ClientState T}
    (h : Counted s.breaker) (i : Nat) :
    OpensAt cfg net s i ↔ s.breaker.state = .CLOSED ∧
      i < transientRun net s.sent (maxAttempts cfg) ∧
      s.breaker.failures + i + 1 = s.breaker.threshold := by
  obtain ⟨-, -, hfailures, hthreshold, -⟩ := allow_frame net s
  have hallow : Counted (allow net s).2.breaker := counted_step h ⟨.allow, net.clock s.ticks⟩
  have hclosed : (failing net (allow net s).2.breaker (s.ticks + 1) i).state = .CLOSED ↔
      s.breaker.failures + i < s.breaker.threshold := by
    rw [failing_closed_iff hallow, hfailures, hthreshold]
  have hopened : (failing net (allow net s).2.breaker (s.ticks + 1) (i + 1)).state = .OPEN ↔
      s.breaker.threshold ≤ s.breaker.failures + i + 1 := by
    rw [failing_open_iff hallow, hfailures, hthreshold]
  rw [lt_transientRun_iff]
  constructor
  · intro ho
    have hlt := hclosed.mp ho.closed
    have hge := hopened.mp ho.opened
    exact ⟨h.mpr (by omega), ⟨ho.made, ho.fails⟩, by omega⟩
  · intro ho
    obtain ⟨hs, ⟨hmade, hfails⟩, hsum⟩ := ho
    refine ⟨?_, hmade, hfails, hclosed.mpr (by omega), hopened.mpr (by omega)⟩
    rw [allow, CircuitBreaker.allow_closed hs]

/-- A call keeps the promise exactly if it does not trip the breaker on an interrupted count. -/
theorem tripsInARow_iff (cfg : ClientSettings) (net : Net F T) (s : ClientState T) (label : PyStr)
    (h : Counted s.breaker) : TripsInARow cfg net s label ↔ CountsInARow cfg net s label := by
  constructor
  · intro htrips hclosed hge k hk
    have hlt := h.mp hclosed
    -- the attempt that makes up the threshold
    obtain ⟨i, hi⟩ : ∃ i : Nat, s.breaker.failures + i + 1 = s.breaker.threshold :=
      ⟨(s.breaker.threshold - s.breaker.failures - 1).toNat, by omega⟩
    have hopens : OpensAt cfg net s i := (opensAt_iff cfg h i).mpr ⟨hclosed, by omega, hi⟩
    obtain ⟨hle, hfails⟩ := htrips i hopens (i + 1 + k) (by omega)
    refine ⟨by omega, ?_⟩
    rwa [show s.sent + i - (i + 1 + k) = s.sent - 1 - k by omega] at hfails
  · intro hcounts i hopens k hk
    obtain ⟨hclosed, hrun, hsum⟩ := (opensAt_iff cfg h i).mp hopens
    by_cases hki : k ≤ i
    · -- an attempt of this call
      have hfails := ((lt_transientRun_iff net s.sent (maxAttempts cfg) (i - k)).mp (by omega)).2
      refine ⟨by omega, ?_⟩
      rwa [Nat.add_sub_assoc hki]
    · -- one of the attempts counted before it
      obtain ⟨k', rfl⟩ : ∃ k', k = i + 1 + k' := Nat.exists_eq_add_of_le (not_le.mp hki)
      obtain ⟨hlt, hfails⟩ := hcounts hclosed (by omega) k' (by omega)
      refine ⟨by omega, ?_⟩
      rwa [show s.sent + i - (i + 1 + k') = s.sent - 1 - k' by omega]

/-- **Failures in a row.** Over any calls that share a breaker, any network and any clock: the
breaker trips only on failures in a row if and only if no call trips it on an interrupted
count. -/
theorem run_tripsInARow_iff (cfg : ClientSettings) (net : Net F T) (threshold : Int)
    (cooldownS : T) (labels : List PyStr) :
    Along (requestStep cfg net) (TripsInARow cfg net) (.init threshold cooldownS) labels ↔
      Along (requestStep cfg net) (CountsInARow cfg net) (.init threshold cooldownS) labels := by
  have hinit : Counted (ClientState.init threshold cooldownS).breaker :=
    counted_init threshold cooldownS
  exact along_congr (fun s : ClientState T => Counted s.breaker)
    (fun s label hs _ => counted_request cfg net s label hs)
    (tripsInARow_iff cfg net) labels hinit

/-! ## Two failures with a 404 between them -/

/-- Core is down, answers 404, and is down again. -/
def interruptedNet : Net Unit ℚ where
  send n := if n = 1 then .error (.HTTPStatusError 404) else .error .TransportError
  clock n := n

/-- A threshold of two, no retries: the third call opens the breaker, and the second had been
answered. -/
theorem interrupted_trips : ¬ Along (requestStep ⟨0, 1 / 5, 2⟩ interruptedNet)
    (TripsInARow ⟨0, 1 / 5, 2⟩ interruptedNet) (.init 2 30)
    [py "add_xp", py "bump_progress", py "add_xp"] := by
  intro h
  let s := run (requestStep ⟨0, 1 / 5, 2⟩ interruptedNet) (.init 2 30)
    [py "add_xp", py "bump_progress"]
  have htrips : TripsInARow ⟨0, 1 / 5, 2⟩ interruptedNet s (py "add_xp") := h.2.2.1
  have hopens : OpensAt ⟨0, 1 / 5, 2⟩ interruptedNet s 0 := by
    refine ⟨?_, ?_, ?_, ?_, ?_⟩ <;> decide
  obtain ⟨-, hfails⟩ := htrips 0 hopens 1 (by decide)
  exact absurd hfails (by decide)

end LingoAsync.Http
