import LingoAsync.Http.BreakerDiscipline
import LingoAsync.Retry

/-!
# The retry loop and its reference

What one call of `_request` comes to, without the loop. If the breaker refuses, nothing
is sent. Otherwise the call makes `j` attempts, where the `j`-th is the first that is no
transient failure, or the last there may be; it sends, sleeps and closes its clients in
the order `callEvents` lists, tells the breaker of each transient failure and then of the
success, if there was one (`recorded`), and ends as its last attempt ended (`outcome`).

`request_reference` says that the loop does just this. The rest of the development looks
at the loop through it.
-/

namespace LingoAsync.Http

open LingoAsync.Machine LingoAsync.Text LingoAsync.Retry

variable {F T : Type}

/-- `1 + max(0, settings.CORE_CLIENT_MAX_RETRIES)`. -/
def maxAttempts (cfg : ClientSettings) : Nat := 1 + cfg.CORE_CLIENT_MAX_RETRIES.toNat

/-- The attempts made from the `n`-th request on, of at most `N`: up to the first that does not
fail transiently. -/
def attemptsFrom (net : Net F T) (n N : Nat) : Nat := attempts (failsTransiently net) (n + ·) N

/-- How an attempt ends a call: the JSON of its response, or its exception. -/
def outcome (net : Net F T) (n : Nat) : Except PyExc (Json F) :=
  match exchange net n with
  | .ok resp => resp.json
  | .error e => .error e

/-- The transient failures among the `j` attempts from the `n`-th request on. -/
def failures (net : Net F T) (n j : Nat) : List Nat :=
  (List.range j).filter fun i => failsTransiently net (n + i)

theorem attemptsFrom_succ (net : Net F T) (n N : Nat) :
    attemptsFrom net n (N + 1) =
      if failsTransiently net n then attemptsFrom net (n + 1) N + 1 else 1 := by
  have hshift : (fun i => n + (i + 1)) = (n + 1 + ·) := by
    funext i
    omega
  rw [attemptsFrom, attempts_succ, hshift]
  rfl

theorem attemptsFrom_pos (net : Net F T) (n N : Nat) : 0 < attemptsFrom net n (N + 1) :=
  attempts_pos _ _

theorem failures_succ (net : Net F T) {n : Nat} (h : failsTransiently net n = true) (j : Nat) :
    failures net n (j + 1) = 0 :: (failures net (n + 1) j).map (· + 1) := by
  rw [failures, List.range_succ_eq_map, List.filter_cons_of_pos (by exact h), List.filter_map]
  refine congrArg (0 :: List.map Nat.succ ·) (List.filter_congr ?_)
  intro k _
  show failsTransiently net (n + (k + 1)) = _
  rw [← Nat.add_assoc, Nat.add_right_comm]

theorem failures_one (net : Net F T) {n : Nat} (h : failsTransiently net n = false) :
    failures net n 1 = [] := by
  simp [failures, h]

/-- What the breaker is told of them: every transient failure, and the success of the last. The
`i`-th failure reads the clock as it stands `i` readings later. -/
def recorded (net : Net F T) (n ticks j : Nat) : List (BreakerCall T) :=
  (failures net n j).map (fun i => ⟨.recordFailure, net.clock (ticks + i)⟩) ++
    if answered net (n + (j - 1)) then [⟨.recordSuccess, net.clock (ticks + j)⟩] else []

theorem recorded_succ (net : Net F T) {n : Nat} (h : failsTransiently net n = true)
    (ticks : Nat) {j : Nat} (hj : 0 < j) :
    recorded net n ticks (j + 1) =
      ⟨.recordFailure, net.clock ticks⟩ :: recorded net (n + 1) (ticks + 1) j := by
  have hlast : n + (j + 1 - 1) = n + 1 + (j - 1) := by omega
  have hend : ticks + (j + 1) = ticks + 1 + j := by omega
  rw [recorded, failures_succ net h, hlast, hend, List.map_cons, List.map_map, List.cons_append]
  refine congrArg (fun calls => _ :: (calls ++ _)) (List.map_congr_left ?_)
  intro k _
  show (⟨.recordFailure, net.clock (ticks + (k + 1))⟩ : BreakerCall T) = _
  rw [← Nat.add_assoc, Nat.add_right_comm]

variable [Clock T]

/-- The breaker after the first `i` attempts, all of them transient failures. -/
def failing (net : Net F T) (b : CircuitBreaker T) (ticks i : Nat) : CircuitBreaker T :=
  run CircuitBreaker.step b ((List.range i).map fun k => ⟨.recordFailure, net.clock (ticks + k)⟩)

/-- What an onlooker sees of `j` attempts: each is one request on a client that is closed before
the next, and there is a sleep between each two. -/
def callEvents (cfg : ClientSettings) (net : Net F T) (b : CircuitBreaker T)
    (ticks attempt j : Nat) : List ClientEvent :=
  (List.range j).flatMap fun i =>
    .send (failing net b ticks i).state ::
      ((if i + 1 < j then [.sleep (backoffDelay cfg (attempt + i))] else []) ++ [.close])

/-- The state after `j` attempts, counted from `attempt`. -/
def afterAttempts (cfg : ClientSettings) (net : Net F T) (attempt : Nat) (s : ClientState T)
    (j : Nat) : ClientState T where
  breaker := run CircuitBreaker.step s.breaker (recorded net s.sent s.ticks j)
  sent := s.sent + j
  ticks := s.ticks + (failures net s.sent j).length
  trace := s.trace ++ callEvents cfg net s.breaker s.ticks attempt j

/-- **The reference**: what one call returns or raises, and the state it leaves. -/
def reference (cfg : ClientSettings) (net : Net F T) (label : PyStr) (s : ClientState T) :
    Except PyExc (Json F) × ClientState T :=
  if (allow net s).1 then
    let j := attemptsFrom net s.sent (maxAttempts cfg)
    (outcome net (s.sent + (j - 1)), afterAttempts cfg net 0 (allow net s).2 j)
  else
    (.error (.CircuitOpenError (py "circuit open for lingo-core (" ++ label ++ py ")")),
      { s with ticks := s.ticks + 1 })

/-- The requests of a trace, its closings and its sleeps. -/
def sends (events : List ClientEvent) : Nat :=
  events.countP fun e => e matches .send _

def closes (events : List ClientEvent) : Nat := events.count .close

def sleeps (events : List ClientEvent) : List ℚ :=
  events.filterMap fun e =>
    match e with
    | .sleep delay => some delay
    | _ => none

/-! ## The reference, one attempt at a time -/

theorem failing_succ (net : Net F T) (b : CircuitBreaker T) (ticks i : Nat) :
    failing net b ticks (i + 1) =
      failing net (b.recordFailure (net.clock ticks)) (ticks + 1) i := by
  rw [failing, List.range_succ_eq_map, List.map_cons, List.map_map, run_cons]
  refine congrArg (run _ _) (List.map_congr_left ?_)
  intro k _
  show (⟨.recordFailure, net.clock (ticks + (k + 1))⟩ : BreakerCall T) = _
  rw [← Nat.add_assoc, Nat.add_right_comm]

theorem callEvents_succ (cfg : ClientSettings) (net : Net F T) (b : CircuitBreaker T)
    (ticks attempt : Nat) {j : Nat} (hj : 0 < j) :
    callEvents cfg net b ticks attempt (j + 1) =
      .send b.state :: .sleep (backoffDelay cfg attempt) :: .close ::
        callEvents cfg net (b.recordFailure (net.clock ticks)) (ticks + 1) (attempt + 1) j := by
  have hfirst : 0 + 1 < j + 1 := by omega
  rw [callEvents, List.range_succ_eq_map, List.flatMap_cons, List.flatMap_map, if_pos hfirst]
  refine congrArg (ClientEvent.send b.state :: .sleep _ :: .close :: ·) ?_
  refine List.flatMap_congr ?_
  intro k _
  rw [failing_succ, Nat.succ_eq_add_one, ← Nat.add_assoc, Nat.add_right_comm attempt]
  simp only [Nat.add_lt_add_iff_right]

/-- A first attempt that fails transiently, and then the others. -/
theorem afterAttempts_succ (cfg : ClientSettings) (net : Net F T) (attempt : Nat)
    (s : ClientState T) (h : failsTransiently net s.sent = true) {j : Nat} (hj : 0 < j) :
    afterAttempts cfg net attempt s (j + 1) = afterAttempts cfg net (attempt + 1)
      { breaker := s.breaker.recordFailure (net.clock s.ticks)
        sent := s.sent + 1
        ticks := s.ticks + 1
        trace := s.trace ++
          [.send s.breaker.state, .sleep (backoffDelay cfg attempt), .close] } j := by
  unfold afterAttempts
  rw [recorded_succ net h s.ticks hj, failures_succ net h, callEvents_succ cfg net _ _ _ hj,
    run_cons, List.length_cons, List.length_map]
  simp only [ClientState.mk.injEq, List.append_assoc, List.cons_append, List.nil_append]
  exact ⟨rfl, by omega, by omega, trivial⟩

/-- A single attempt that does not fail transiently. -/
theorem afterAttempts_one (cfg : ClientSettings) (net : Net F T) (attempt : Nat) (s : ClientState T)
    (h : failsTransiently net s.sent = false) :
    afterAttempts cfg net attempt s 1 =
      { breaker := if answered net s.sent then s.breaker.recordSuccess else s.breaker
        sent := s.sent + 1
        ticks := s.ticks
        trace := s.trace ++ [.send s.breaker.state, .close] } := by
  unfold afterAttempts recorded
  rw [failures_one net h, List.map_nil, List.nil_append]
  cases answered net (s.sent + (1 - 1)) <;> rfl

/-- A last attempt that fails transiently: nothing is slept. -/
theorem afterAttempts_exhausted (cfg : ClientSettings) (net : Net F T) (attempt : Nat)
    (s : ClientState T) (h : failsTransiently net s.sent = true) :
    afterAttempts cfg net attempt s 1 =
      { breaker := s.breaker.recordFailure (net.clock s.ticks)
        sent := s.sent + 1
        ticks := s.ticks + 1
        trace := s.trace ++ [.send s.breaker.state, .close] } := by
  have hans : answered net (s.sent + (1 - 1)) = false := answered_of_failsTransiently h
  unfold afterAttempts recorded
  rw [failures_succ net h, hans]
  rfl

/-- A breaker that refuses stays as it is. -/
theorem allow_refused {net : Net F T} {s : ClientState T} (h : (allow net s).1 = false) :
    allow net s = (false, { s with ticks := s.ticks + 1 }) := by
  unfold allow at h ⊢
  rcases CircuitBreaker.allow_cases s.breaker (net.clock s.ticks) with
    ⟨-, he⟩ | ⟨-, -, he⟩ | ⟨-, -, he⟩
  · rw [he] at h
    cases h
  · rw [he] at h
    cases h
  · rw [he]

/-! ## The loop -/

/-- An attempt that does not fail transiently is the last. -/
theorem attemptLoop_settled (cfg : ClientSettings) {net : Net F T} {s : ClientState T}
    (left attempt : Nat) (lastExc : Option PyExc) (h : failsTransiently net s.sent = false) :
    attemptLoop cfg net (left + 1) attempt lastExc s =
      (outcome net s.sent, afterAttempts cfg net attempt s 1) := by
  rw [afterAttempts_one cfg net attempt s h, outcome]
  rcases exchange_cases net s.sent with ht | ha | ⟨ha, ht⟩
  · rw [h] at ht
    cases ht
  · obtain ⟨resp, hx, he⟩ := attemptLoop_answered cfg left attempt lastExc ha
    rw [he, hx, if_pos ha]
  · obtain ⟨e, hx, he⟩ := attemptLoop_refused cfg left attempt lastExc ha ht
    rw [he, hx, if_neg (by rw [ha]; exact Bool.false_ne_true)]

/-- The loop with `left + 1` attempts to go does what the reference says. -/
theorem attemptLoop_reference (cfg : ClientSettings) (net : Net F T) (left attempt : Nat)
    (lastExc : Option PyExc) (s : ClientState T) :
    attemptLoop cfg net (left + 1) attempt lastExc s =
      (outcome net (s.sent + (attemptsFrom net s.sent (left + 1) - 1)),
        afterAttempts cfg net attempt s (attemptsFrom net s.sent (left + 1))) := by
  induction left generalizing attempt lastExc s with
  | zero =>
    have hone : attemptsFrom net s.sent 1 = 1 := by
      rw [attemptsFrom_succ]
      split <;> rfl
    rw [hone]
    cases ht : failsTransiently net s.sent with
    | false => exact attemptLoop_settled cfg 0 attempt lastExc ht
    | true =>
      -- the attempts are used up: the last exception is raised
      obtain ⟨e, hx, he⟩ := attemptLoop_transient cfg 0 attempt lastExc ht
      have hout : outcome net (s.sent + (1 - 1)) = .error e := by
        show outcome net s.sent = .error e
        rw [outcome, hx]
      rw [he, afterAttempts_exhausted cfg net attempt s ht, hout]
      rfl
  | succ left ih =>
    rw [attemptsFrom_succ]
    cases ht : failsTransiently net s.sent with
    | false => exact attemptLoop_settled cfg (left + 1) attempt lastExc ht
    | true =>
      obtain ⟨e, -, he⟩ := attemptLoop_transient cfg (left + 1) attempt lastExc ht
      have hpos := attemptsFrom_pos net (s.sent + 1) left
      have hlast : s.sent + 1 + (attemptsFrom net (s.sent + 1) (left + 1) - 1) =
          s.sent + (attemptsFrom net (s.sent + 1) (left + 1) + 1 - 1) := by omega
      rw [he, ih, if_pos rfl, afterAttempts_succ cfg net attempt s ht hpos, ← hlast]
      rfl

theorem sleeps_block (b : BreakerState) (delay : ℚ) (rest : List ClientEvent) :
    sleeps (.send b :: .sleep delay :: .close :: rest) = delay :: sleeps rest := rfl

/-- What is seen of `j` attempts: `j` requests, `j` closings, and the sleeps between. -/
theorem callEvents_counts (cfg : ClientSettings) (net : Net F T) (b : CircuitBreaker T)
    (ticks attempt j : Nat) :
    sends (callEvents cfg net b ticks attempt j) = j ∧
      closes (callEvents cfg net b ticks attempt j) = j ∧
      sleeps (callEvents cfg net b ticks attempt j) =
        (List.range (j - 1)).map fun i => backoffDelay cfg (attempt + i) := by
  induction j generalizing b ticks attempt with
  | zero => exact ⟨rfl, rfl, rfl⟩
  | succ j ih =>
    cases j with
    | zero => exact ⟨rfl, rfl, rfl⟩
    | succ j =>
      obtain ⟨hsends, hcloses, hsleeps⟩ :=
        ih (b.recordFailure (net.clock ticks)) (ticks + 1) (attempt + 1)
      have hshift : ∀ i, attempt + 1 + i = attempt + (i + 1) := fun i => by omega
      rw [callEvents_succ cfg net b ticks attempt (Nat.succ_pos j)]
      refine ⟨?_, ?_, ?_⟩
      · rw [sends, List.countP_cons, List.countP_cons, List.countP_cons]
        exact congrArg (· + 1) hsends
      · rw [closes, List.count_cons, List.count_cons, List.count_cons]
        exact congrArg (· + 1) hcloses
      · rw [sleeps_block, hsleeps, Nat.add_sub_cancel, Nat.add_sub_cancel,
          List.range_succ_eq_map, List.map_cons, List.map_map]
        refine congrArg (_ :: ·) (List.map_congr_left ?_)
        intro i _
        rw [hshift]
        rfl

/-- A call returns or raises what the reference does, and leaves the same state behind. -/
theorem request_eq_reference (cfg : ClientSettings) (net : Net F T) (label : PyStr)
    (s : ClientState T) : request cfg net label s = reference cfg net label s := by
  unfold request reference
  cases ha : (allow net s).1 with
  | true =>
    have hN : 1 + cfg.CORE_CLIENT_MAX_RETRIES.toNat = cfg.CORE_CLIENT_MAX_RETRIES.toNat + 1 :=
      Nat.add_comm _ _
    rw [show allow net s = (true, (allow net s).2) from Prod.ext ha rfl, if_pos rfl,
      maxAttempts, hN]
    exact attemptLoop_reference cfg net _ 0 none (allow net s).2
  | false =>
    rw [allow_refused ha]
    rfl

/-- **The retry loop is its reference**: from any state, the call returns or raises what the
reference does and leaves the same state behind. Its `j` attempts are `j` requests on `j` clients,
each closed once, and `j - 1` sleeps of `min (base * 2 ^ i) max`. -/
theorem request_reference (cfg : ClientSettings) (net : Net F T) (label : PyStr)
    (s : ClientState T) :
    request cfg net label s = reference cfg net label s ∧
    ∀ b ticks j, sends (callEvents cfg net b ticks 0 j) = j ∧
      closes (callEvents cfg net b ticks 0 j) = j ∧
      sleeps (callEvents cfg net b ticks 0 j) = (List.range (j - 1)).map fun i =>
        min (cfg.CORE_CLIENT_BACKOFF_BASE_S * 2 ^ i) cfg.CORE_CLIENT_BACKOFF_MAX_S := by
  refine ⟨request_eq_reference cfg net label s, ?_⟩
  intro b ticks j
  obtain ⟨hsends, hcloses, hsleeps⟩ := callEvents_counts cfg net b ticks 0 j
  refine ⟨hsends, hcloses, hsleeps.trans (List.map_congr_left ?_)⟩
  intro i _
  rw [backoffDelay, Nat.zero_add]

end LingoAsync.Http
