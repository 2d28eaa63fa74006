import LingoAsync.Http.ConsecutiveTrips

/-!
# An outage, and its end

What the breaker is for. While core is down, each call let through spends all its attempts, and
each of them counts; so a call either leaves the breaker `CLOSED`, below its threshold, or opens
it, stamped with the call's last reading of the clock (`requestStep_down`). From then on there is
one call let through for each cooldown that passes. `Throttled` is the invariant: how many calls
were let through an open breaker so far, and that the stamp lies as many cooldowns, but one, behind
the outage's beginning. Over a time shorter than `n` cooldowns, and however many callbacks are
asked for, core gets no more than `limit - 1 + n * N` requests (`run_down_sent`). That counts
cooldowns, so the times are exact there; nothing else asks more of them than `Clock` does.

Once core answers again, the breaker stands in nobody's way for longer than its cooldown: a call
is refused exactly while the breaker that the outage left is still cooling, and any other gets its
answer from a single request (`run_up`).
-/

namespace LingoAsync.Http

open LingoAsync.Machine LingoAsync.Text LingoAsync.Retry

variable {F T : Type}

/-! ## A call while core is down -/

/-- Every request from the `n`-th on fails in a way worth retrying. -/
def DownFrom (net : Net F T) (n : Nat) : Prop := ∀ m, n ≤ m → failsTransiently net m = true

theorem DownFrom.mono {net : Net F T} {n m : Nat} (h : DownFrom net n) (hle : n ≤ m) :
    DownFrom net m := fun _ hm => h _ (hle.trans hm)

/-- All attempts are made. -/
theorem attemptsFrom_down {net : Net F T} {n : Nat} (h : DownFrom net n) (N : Nat) :
    attemptsFrom net n (N + 1) = N + 1 := by
  induction N generalizing n with
  | zero =>
    rw [attemptsFrom_succ, h n (Nat.le_refl n)]
    rfl
  | succ N ih =>
    rw [attemptsFrom_succ, h n (Nat.le_refl n), if_pos rfl, ih (h.mono (Nat.le_succ n))]

theorem failures_down {net : Net F T} {n : Nat} (h : DownFrom net n) (j : Nat) :
    failures net n j = List.range j := by
  refine List.filter_eq_self.mpr ?_
  intro i _
  exact h _ (Nat.le_add_right n i)

/-- Every attempt is a failure on the breaker's record, and there is no success. -/
theorem recorded_down {net : Net F T} {n : Nat} (h : DownFrom net n) (ticks j : Nat) :
    recorded net n ticks j =
      (List.range j).map fun k => ⟨.recordFailure, net.clock (ticks + k)⟩ := by
  have hlast : answered net (n + (j - 1)) = false :=
    answered_of_failsTransiently (h _ (Nat.le_add_right ..))
  rw [recorded, failures_down h, hlast, if_neg Bool.false_ne_true, List.append_nil]

variable [Clock T]

/-- The state after some calls. -/
abbrev afterCalls (cfg : ClientSettings) (net : Net F T) (s : ClientState T) (labels : List PyStr) :
    ClientState T := run (requestStep cfg net) s labels

/-- The last failure of a call that leaves the breaker open stamps it. -/
theorem failing_openedAt {net : Net F T} {b : CircuitBreaker T} (hb : Counted b) {ticks i : Nat}
    (h : (failing net b ticks (i + 1)).state = .OPEN) :
    (failing net b ticks (i + 1)).openedAt = net.clock (ticks + i) := by
  have hge := (failing_open_iff hb ticks i).mp h
  obtain ⟨hfailures, hthreshold⟩ := failing_counter net b ticks i
  have hlast : failing net b ticks (i + 1) =
      (failing net b ticks i).recordFailure (net.clock (ticks + i)) := by
    rw [failing, List.range_succ, List.map_append, run_append]
    rfl
  rw [hlast, CircuitBreaker.recordFailure_trips (Or.inr (by rw [hfailures, hthreshold]; omega))]

theorem failing_settings (net : Net F T) (b : CircuitBreaker T) (ticks i : Nat) :
    (failing net b ticks i).cooldownS = b.cooldownS := by
  induction i generalizing b ticks with
  | zero => rfl
  | succ i ih =>
    rw [failing_succ, ih]
    exact (step_settings b ⟨.recordFailure, net.clock ticks⟩).2

/-- **A call while core is down**, if it is let through: `N` requests, and the breaker has heard of
`N` failures. -/
theorem requestStep_down (cfg : ClientSettings) {net : Net F T} {s : ClientState T}
    (hdown : DownFrom net s.sent) (label : PyStr) (ha : (allow net s).1 = true) :
    (requestStep cfg net s label).sent = s.sent + maxAttempts cfg ∧
    (requestStep cfg net s label).ticks = s.ticks + 1 + maxAttempts cfg ∧
    (requestStep cfg net s label).breaker =
      failing net (allow net s).2.breaker (s.ticks + 1) (maxAttempts cfg) := by
  have hN : attemptsFrom net s.sent (maxAttempts cfg) = maxAttempts cfg := by
    rw [maxAttempts, Nat.add_comm]
    exact attemptsFrom_down hdown _
  rw [requestStep, request_eq_reference cfg net label s, reference, if_pos ha, hN]
  refine ⟨rfl, ?_, ?_⟩
  · show s.ticks + 1 + (failures net s.sent (maxAttempts cfg)).length = _
    rw [failures_down hdown, List.length_range]
  · show run CircuitBreaker.step (allow net s).2.breaker
      (recorded net s.sent (s.ticks + 1) (maxAttempts cfg)) = _
    rw [recorded_down hdown]
    rfl

/-- What holds of every breaker there can be. -/
structure Reached (threshold : Int) (cooldownS : T) (b : CircuitBreaker T) : Prop where
  counted : Counted b
  failures : 0 ≤ b.failures
  threshold : b.threshold = max 1 threshold
  cooldownS : b.cooldownS = cooldownS

theorem Reached.step {threshold : Int} {cooldownS : T} {b : CircuitBreaker T}
    (h : Reached threshold cooldownS b) (c : BreakerCall T) :
    Reached threshold cooldownS (b.step c) := by
  obtain ⟨hthreshold, hcooldown⟩ := step_settings b c
  refine ⟨counted_step h.counted c, ?_, hthreshold.trans h.threshold, hcooldown.trans h.cooldownS⟩
  obtain ⟨op, now⟩ := c
  cases op with
  | allow =>
    show 0 ≤ (b.allow now).2.failures
    rcases CircuitBreaker.allow_cases b now with ⟨_, he⟩ | ⟨_, _, he⟩ | ⟨_, _, he⟩ <;> rw [he] <;>
      exact h.failures
  | recordSuccess => exact le_refl 0
  | recordFailure =>
    show 0 ≤ (b.recordFailure now).failures
    have := h.failures
    rw [CircuitBreaker.recordFailure_failures]
    omega

theorem reached_afterCalls (cfg : ClientSettings) (net : Net F T) (threshold : Int) (cooldownS : T)
    (labels : List PyStr) : Reached threshold cooldownS
      (afterCalls cfg net (.init threshold cooldownS) labels).breaker := by
  refine run_inv (fun s : ClientState T => Reached threshold cooldownS s.breaker) ?_ labels
    ⟨counted_init threshold cooldownS, le_refl 0, rfl, rfl⟩
  intro s label hs
  have hallow : Reached threshold cooldownS (allow net s).2.breaker :=
    hs.step ⟨.allow, net.clock s.ticks⟩
  rw [requestStep, request_eq_reference cfg net label s, reference]
  cases (allow net s).1 with
  | true => exact run_inv (Reached threshold cooldownS) (fun _ c hb => hb.step c) _ hallow
  | false => exact hs

/-! ## The requests of an outage -/

/-- `k` calls were let through an open breaker since `start`, or made it one: each cost `N`
requests, and they were a cooldown apart. -/
structure Spaced (cfg : ClientSettings) (net : Net F ℚ) (start s : ClientState ℚ) (k : Nat) :
    Prop where
  sent : (s.sent : Int) ≤ start.sent + (s.breaker.threshold - 1) + k * maxAttempts cfg
  stamp : k = 0 ∨
    net.clock start.ticks + (k - 1) * s.breaker.cooldownS ≤ s.breaker.openedAt ∧
      s.breaker.openedAt ≤ net.clock s.ticks

/-- How the requests since `start` are held back: by the counter while the breaker is `CLOSED`,
and by the cooldown while it is not. -/
structure Throttled (cfg : ClientSettings) (net : Net F ℚ) (start s : ClientState ℚ) : Prop where
  counted : Counted s.breaker
  sent : start.sent ≤ s.sent
  ticks : start.ticks ≤ s.ticks
  closed : s.breaker.state = .CLOSED → (s.sent : Int) ≤ start.sent + s.breaker.failures
  spaced : s.breaker.state ≠ .CLOSED → ∃ k, Spaced cfg net start s k
  fresh : s.breaker.state = .HALF_OPEN → s.sent = start.sent

theorem throttled_start (cfg : ClientSettings) (net : Net F ℚ) {s : ClientState ℚ}
    (hcounted : Counted s.breaker) (hfailures : 0 ≤ s.breaker.failures) :
    Throttled cfg net s s where
  counted := hcounted
  sent := Nat.le_refl _
  ticks := Nat.le_refl _
  closed _ := by omega
  spaced _ := by
    have := s.breaker.threshold_pos
    exact ⟨0, by omega, Or.inl rfl⟩
  fresh _ := rfl

/-- A call that is let through from a state with `k` such calls behind it, and leaves the breaker
open, is one more. -/
theorem Spaced.next {cfg : ClientSettings} {net : Net F ℚ} (hmono : Monotone net.clock)
    {start s s' : ClientState ℚ} {k : Nat}
    (hsent : (s.sent : Int) ≤ start.sent + (s.breaker.threshold - 1) + k * maxAttempts cfg)
    (hsent' : s'.sent = s.sent + maxAttempts cfg)
    (hthreshold : s'.breaker.threshold = s.breaker.threshold)
    {t : Nat} (hstamp : s'.breaker.openedAt = net.clock t) (ht : t ≤ s'.ticks)
    (hlate : net.clock start.ticks + k * s'.breaker.cooldownS ≤ net.clock t) :
    Spaced cfg net start s' (k + 1) where
  sent := by
    rw [hsent', hthreshold]
    push_cast
    linarith
  stamp := by
    refine Or.inr ⟨?_, hstamp ▸ hmono ht⟩
    rw [hstamp]
    push_cast
    linarith

/-- A call that is refused only reads the clock. -/
theorem Throttled.refused {cfg : ClientSettings} {net : Net F ℚ} (hmono : Monotone net.clock)
    {start s : ClientState ℚ} (h : Throttled cfg net start s) :
    Throttled cfg net start { s with ticks := s.ticks + 1 } where
  counted := h.counted
  sent := h.sent
  ticks := h.ticks.trans (Nat.le_succ _)
  closed := h.closed
  spaced hs := by
    obtain ⟨k, hsent, hstamp⟩ := h.spaced hs
    refine ⟨k, hsent, ?_⟩
    rcases hstamp with h0 | ⟨hlate, hpast⟩
    · exact Or.inl h0
    · exact Or.inr ⟨hlate, hpast.trans (hmono (Nat.le_succ _))⟩
  fresh := h.fresh

/-- **One call of an outage** keeps the requests throttled. -/
theorem throttled_step (cfg : ClientSettings) {net : Net F ℚ} (hmono : Monotone net.clock)
    {start s : ClientState ℚ} (hdown : DownFrom net start.sent) (label : PyStr)
    (h : Throttled cfg net start s) : Throttled cfg net start (requestStep cfg net s label) := by
  cases ha : (allow net s).1 with
  | false =>
    rw [request_refused cfg label ha, allow_refused ha]
    exact h.refused hmono
  | true =>
    obtain ⟨hsent, hticks, hbreaker⟩ := requestStep_down cfg (hdown.mono h.sent) label ha
    obtain ⟨-, -, hfailures, hthreshold, hclosed⟩ := allow_frame net s
    have hallow : Counted (allow net s).2.breaker := counted_step h.counted ⟨.allow, _⟩
    have hcooldown : (requestStep cfg net s label).breaker.cooldownS = s.breaker.cooldownS := by
      rw [hbreaker, failing_settings]
      exact (step_settings s.breaker ⟨.allow, net.clock s.ticks⟩).2
    obtain ⟨m, hm⟩ : ∃ m, maxAttempts cfg = m + 1 := ⟨_, Nat.add_comm _ _⟩
    rw [hm] at hbreaker
    obtain ⟨hcount, hlimit⟩ := failing_counter net (allow net s).2.breaker (s.ticks + 1) (m + 1)
    rw [← hbreaker, hfailures] at hcount
    rw [← hbreaker, hthreshold] at hlimit
    have hhalf : (requestStep cfg net s label).breaker.state ≠ .HALF_OPEN := by
      rw [hbreaker, failing_succ]
      exact failing_not_halfOpen net (CircuitBreaker.recordFailure_not_halfOpen _ _) _ _
    refine ⟨counted_request cfg net s label h.counted, by have := h.sent; omega,
      by have := h.ticks; omega, ?_, ?_, fun hs => absurd hs hhalf⟩
    · -- a breaker still closed was closed before, with as many fewer failures
      intro hs
      have hlt := (counted_request cfg net s label h.counted).mp hs
      have := h.closed (h.counted.mpr (by omega))
      rw [hsent, hm, hcount]
      push_cast
      omega
    · -- one that is not was opened by the last attempt
      intro hs
      have hopen : (failing net (allow net s).2.breaker (s.ticks + 1) (m + 1)).state = .OPEN := by
        rw [← hbreaker]
        cases hst : (requestStep cfg net s label).breaker.state with
        | CLOSED => exact absurd hst hs
        | OPEN => rfl
        | HALF_OPEN => exact absurd hst hhalf
      have hstamp := failing_openedAt hallow hopen
      rw [← hbreaker] at hstamp
      have hpast : s.ticks + 1 + m ≤ (requestStep cfg net s label).ticks := by omega
      have hsince : net.clock start.ticks ≤ net.clock (s.ticks + 1 + m) :=
        hmono (by have := h.ticks; omega)
      have hnext : ∀ k : Nat, (s.sent : Int) ≤ start.sent + (s.breaker.threshold - 1) +
          k * maxAttempts cfg →
          net.clock start.ticks + k * s.breaker.cooldownS ≤ net.clock (s.ticks + 1 + m) →
          Spaced cfg net start (requestStep cfg net s label) (k + 1) := by
        intro k hk hlate
        exact Spaced.next hmono hk hsent hlimit hstamp hpast (hcooldown ▸ hlate)
      cases hst : s.breaker.state with
      | CLOSED =>
        have hlt := h.counted.mp hst
        have := h.closed hst
        exact ⟨1, hnext 0 (by omega) (by simpa using hsince)⟩
      | HALF_OPEN =>
        have := h.fresh hst
        have := s.breaker.threshold_pos
        exact ⟨1, hnext 0 (by omega) (by simpa using hsince)⟩
      | OPEN =>
        -- the probe: a cooldown has passed since the stamp
        obtain ⟨k, hk, hstamps⟩ := h.spaced (by rw [hst]; decide)
        refine ⟨k + 1, hnext k hk ?_⟩
        have hnow : net.clock s.ticks ≤ net.clock (s.ticks + 1 + m) := hmono (by omega)
        have helapsed : s.breaker.cooldownS ≤ net.clock s.ticks - s.breaker.openedAt := by
          rcases CircuitBreaker.allow_cases s.breaker (net.clock s.ticks) with
            ⟨hne, -⟩ | ⟨-, hc, -⟩ | ⟨-, -, he⟩
          · exact absurd hst hne
          · exact hc
          · rw [allow, he] at ha
            cases ha
        rcases hstamps with rfl | ⟨hlate, -⟩
        · simpa using hsince
        · linarith

/-- **An outage costs core little.** Core is down from some request on. Then over any calls made in
less than `n` cooldowns, however many, it gets at most `limit - 1 + n * N` requests, where `limit`
is the breaker's threshold and `N` the number of attempts of a call. -/
theorem run_down_sent (cfg : ClientSettings) {net : Net F ℚ} (hmono : Monotone net.clock)
    (threshold : Int) (cooldownS : ℚ) (before during : List PyStr) (n : Nat)
    (hdown : DownFrom net (afterCalls cfg net (.init threshold cooldownS) before).sent)
    (hwithin : net.clock (afterCalls cfg net (.init threshold cooldownS) (before ++ during)).ticks -
      net.clock (afterCalls cfg net (.init threshold cooldownS) before).ticks < n * cooldownS) :
    ((afterCalls cfg net (.init threshold cooldownS) (before ++ during)).sent : Int) ≤
      (afterCalls cfg net (.init threshold cooldownS) before).sent +
        (max 1 threshold - 1) + n * maxAttempts cfg := by
  generalize hstart : afterCalls cfg net (.init threshold cooldownS) before = start
  have hstart' : Reached threshold cooldownS start.breaker :=
    hstart ▸ reached_afterCalls cfg net threshold cooldownS before
  obtain ⟨-, -, hthreshold, hcooldown⟩ :=
    reached_afterCalls cfg net threshold cooldownS (before ++ during)
  have hthrottled : Throttled cfg net start
      (afterCalls cfg net (.init threshold cooldownS) (before ++ during)) := by
    rw [afterCalls, run_append]
    exact hstart ▸ run_inv (Throttled cfg net start)
      (fun s label => throttled_step cfg hmono (hstart ▸ hdown) label) during
      (throttled_start cfg net hstart'.counted hstart'.failures)
  rw [hstart] at hwithin
  generalize afterCalls cfg net (.init threshold cooldownS) (before ++ during) = s at *
  have hN : 0 ≤ (n : Int) * maxAttempts cfg := by positivity
  by_cases hs : s.breaker.state = .CLOSED
  · have := hthrottled.closed hs
    have := hthrottled.counted.mp hs
    omega
  · obtain ⟨k, hsent, hstamp⟩ := hthrottled.spaced hs
    -- the stamps are a cooldown apart, so no more than `n` of them fit in
    have hk : k ≤ n := by
      rcases hstamp with h0 | ⟨hlate, hpast⟩
      · omega
      · rw [hcooldown] at hlate
        have hroom : ((k : ℚ) - 1) * cooldownS < n * cooldownS := by linarith
        have hpos : 0 < cooldownS := by
          have hsince := hmono hthrottled.ticks
          have hwindow : (0 : ℚ) < n * cooldownS := by linarith
          exact pos_of_mul_pos_right hwindow (Nat.cast_nonneg n)
        have hlt := lt_of_mul_lt_mul_right hroom hpos.le
        have hcast : (k : ℚ) < n + 1 := by linarith
        exact_mod_cast Nat.lt_succ_iff.mp (by exact_mod_cast hcast)
    have hle : (k : Int) * maxAttempts cfg ≤ n * maxAttempts cfg :=
      mul_le_mul_of_nonneg_right (by exact_mod_cast hk) (by positivity)
    rw [hthreshold] at hsent
    linarith

/-- With the default settings, core down from the start and a clock that ticks once per reading,
twenty callbacks send six requests: the second call opens the breaker. -/
example : (afterCalls ⟨2, 1 / 5, 2⟩ downNet (.init 5 30)
    (List.replicate 20 (py "add_xp"))).sent = 6 := by decide +kernel

/-! ## The end of an outage -/

/-- Every request from the `n`-th on is answered. -/
def UpFrom (net : Net F T) (n : Nat) : Prop := ∀ m, n ≤ m → answered net m = true

/-- A call that is let through and answered: one request, and the breaker is closed. -/
theorem request_up (cfg : ClientSettings) {net : Net F T} {s : ClientState T} (label : PyStr)
    (ha : (allow net s).1 = true) (hup : answered net s.sent = true) :
    (request cfg net label s).1 = outcome net s.sent ∧
    (requestStep cfg net s label).sent = s.sent + 1 ∧
    (requestStep cfg net s label).ticks = s.ticks + 1 ∧
    (requestStep cfg net s label).breaker = (allow net s).2.breaker.recordSuccess := by
  have hno := failsTransiently_of_answered hup
  have hone : attemptsFrom net s.sent (maxAttempts cfg) = 1 := by
    rw [maxAttempts, Nat.add_comm, attemptsFrom_succ, hno, if_neg Bool.false_ne_true]
  have hafter : afterAttempts cfg net 0 (allow net s).2 1 = _ :=
    afterAttempts_one cfg net 0 (allow net s).2 hno
  have hrequest : request cfg net label s =
      (outcome net s.sent, afterAttempts cfg net 0 (allow net s).2 1) := by
    rw [request_eq_reference cfg net label s, reference, if_pos ha, hone]
    rfl
  have hans : answered net (allow net s).2.sent = true := hup
  rw [requestStep, hrequest, hafter, if_pos hans]
  exact ⟨rfl, rfl, rfl, rfl⟩

/-- The breaker of `start` is still cooling at its `ticks`-th reading of the clock. -/
def Cooling (net : Net F T) (start : ClientState T) (ticks : Nat) : Prop :=
  start.breaker.state = .OPEN ∧ net.clock ticks - start.breaker.openedAt < start.breaker.cooldownS

/-- Where the calls after an outage that ended at `start` are: the breaker is as it was, or it was
closed, once it was done cooling. -/
structure Recovering (net : Net F T) (start s : ClientState T) : Prop where
  sent : start.sent ≤ s.sent
  breaker : s.breaker = start.breaker ∨
    s.breaker.state = .CLOSED ∧ ¬ Cooling net start s.ticks

theorem Cooling.earlier {net : Net F T} (hmono : Monotone net.clock) {start : ClientState T}
    {t t' : Nat} (h : Cooling net start t') (hle : t ≤ t') : Cooling net start t :=
  ⟨h.1, lt_of_le_of_lt (Clock.sub_mono (hmono hle) _) h.2⟩

/-- A call is refused exactly while the breaker that was left is cooling. -/
theorem Recovering.refused_iff {net : Net F T} {start s : ClientState T}
    (h : Recovering net start s) : (allow net s).1 = false ↔ Cooling net start s.ticks := by
  rcases h.breaker with hb | ⟨hclosed, hcool⟩
  · rw [allow, hb]
    rcases CircuitBreaker.allow_cases start.breaker (net.clock s.ticks) with
      ⟨hs, he⟩ | ⟨-, hc, he⟩ | ⟨hs, hc, he⟩
    · rw [he]
      exact iff_of_false (by simp) fun hcool => hs hcool.1
    · rw [he]
      exact iff_of_false (by simp) fun hcool => absurd hcool.2 (not_lt.mpr hc)
    · rw [he]
      exact iff_of_true rfl ⟨hs, not_le.mp hc⟩
  · rw [allow, CircuitBreaker.allow_closed hclosed]
    exact iff_of_false (by simp) hcool

/-- One call after the outage. -/
theorem Recovering.step (cfg : ClientSettings) {net : Net F T} (hmono : Monotone net.clock)
    {start s : ClientState T} (hup : UpFrom net start.sent) (h : Recovering net start s)
    (label : PyStr) : Recovering net start (requestStep cfg net s label) := by
  cases ha : (allow net s).1 with
  | false =>
    have hcooling := h.refused_iff.mp ha
    rw [request_refused cfg label ha, allow_refused ha]
    refine ⟨h.sent, Or.inl ?_⟩
    rcases h.breaker with hb | ⟨-, hcool⟩
    · exact hb
    · exact absurd hcooling hcool
  | true =>
    obtain ⟨-, hsent, hticks, hbreaker⟩ := request_up cfg label ha (hup _ h.sent)
    refine ⟨by rw [hsent]; exact h.sent.trans (Nat.le_succ _), Or.inr ⟨by rw [hbreaker]; rfl, ?_⟩⟩
    intro hcool
    rw [hticks] at hcool
    rw [h.refused_iff.mpr (hcool.earlier hmono (Nat.le_succ _))] at ha
    cases ha

/-- **The end of an outage.** From any state on, let core answer. Then of any calls, each is refused
exactly if it is made while the breaker that the outage left is still cooling; every other is a
single request, ends as that request ends, and leaves the breaker closed with nothing counted. -/
theorem run_up (cfg : ClientSettings) {net : Net F T} (hmono : Monotone net.clock)
    (start : ClientState T) (hup : UpFrom net start.sent) (calls : List PyStr) (label : PyStr) :
    let s := afterCalls cfg net start calls
    (Cooling net start s.ticks →
      (request cfg net label s).1 =
          .error (.CircuitOpenError (py "circuit open for lingo-core (" ++ label ++ py ")")) ∧
        (request cfg net label s).2.sent = s.sent) ∧
    (¬ Cooling net start s.ticks →
      (request cfg net label s).1 = outcome net s.sent ∧
        (request cfg net label s).2.sent = s.sent + 1 ∧
        (request cfg net label s).2.breaker.state = .CLOSED ∧
        (request cfg net label s).2.breaker.failures = 0) := by
  intro s
  have h : Recovering net start s :=
    run_inv (Recovering net start) (fun _ label hs => hs.step cfg hmono hup label) calls
      ⟨Nat.le_refl _, Or.inl rfl⟩
  constructor
  · intro hcool
    have ha := h.refused_iff.mpr hcool
    rw [request_eq_reference cfg net label s, reference, ha]
    exact ⟨rfl, rfl⟩
  · intro hcool
    have ha : (allow net s).1 = true := by
      rw [← Bool.not_eq_false, h.refused_iff]
      exact hcool
    obtain ⟨hresult, hsent, -, hbreaker⟩ := request_up cfg label ha (hup _ h.sent)
    refine ⟨hresult, hsent, ?_, ?_⟩
    · show (requestStep cfg net s label).breaker.state = .CLOSED
      rw [hbreaker]
      rfl
    · show (requestStep cfg net s label).breaker.failures = 0
      rw [hbreaker]
      rfl

theorem null_decodes (e : PyExc) (h : (.ok .null : Except PyExc (Json F)) = .error e) :
    isTransient e = false := by
  cases h

/-- Core loses six requests and answers from then on. -/
def mendedNet : Net Unit ℚ where
  send n := if n < 6 then .error .TransportError else .ok ⟨200, .ok .null, null_decodes⟩
  clock n := n

/-- Two calls of three attempts each open the breaker; twenty-nine refusals later the cooldown has
passed, and the next call is answered. -/
theorem run_up_mended :
    (request ⟨2, 1 / 5, 2⟩ mendedNet (py "add_xp") (afterCalls ⟨2, 1 / 5, 2⟩ mendedNet
      (afterCalls ⟨2, 1 / 5, 2⟩ mendedNet (.init 5 30) [py "add_xp", py "add_xp"])
      (List.replicate 29 (py "list_quests")))).1 = .ok .null := by
  have hmono : Monotone mendedNet.clock := fun m n h => by simpa [mendedNet] using h
  have hup : UpFrom mendedNet (afterCalls ⟨2, 1 / 5, 2⟩ mendedNet (.init 5 30)
      [py "add_xp", py "add_xp"]).sent := by
    have hsent : (afterCalls ⟨2, 1 / 5, 2⟩ mendedNet (.init 5 30)
        [py "add_xp", py "add_xp"]).sent = 6 := by decide +kernel
    intro m hm
    rw [hsent] at hm
    simp [answered, exchange, mendedNet, Nat.not_lt.mpr hm, Response.raiseForStatus, Except.isOk,
      Except.toBool]
  have hcool : ¬ mendedNet.clock (afterCalls ⟨2, 1 / 5, 2⟩ mendedNet (afterCalls ⟨2, 1 / 5, 2⟩
        mendedNet (.init 5 30) [py "add_xp", py "add_xp"])
        (List.replicate 29 (py "list_quests"))).ticks -
      (afterCalls ⟨2, 1 / 5, 2⟩ mendedNet (.init 5 30)
        [py "add_xp", py "add_xp"]).breaker.openedAt < 30 := by decide +kernel
  have hanswered := ((run_up ⟨2, 1 / 5, 2⟩ hmono _ hup (List.replicate 29 (py "list_quests"))
    (py "add_xp")).2 fun h => hcool h.2).1
  have hsent : (afterCalls ⟨2, 1 / 5, 2⟩ mendedNet (afterCalls ⟨2, 1 / 5, 2⟩ mendedNet (.init 5 30)
      [py "add_xp", py "add_xp"]) (List.replicate 29 (py "list_quests"))).sent = 6 := by
    decide +kernel
  rw [hanswered, hsent]
  rfl

end LingoAsync.Http
