import Mathlib.Algebra.Order.Ring.Rat
import Mathlib.Data.List.Induction
import Mathlib.Data.Rat.Defs
import Mathlib.Tactic.Linarith
import LingoAsync.Machine

/-!
# The circuit breaker

`app/http/circuit_breaker.py`: a three-state machine (`CLOSED`, `OPEN`,
`HALF_OPEN`) over a failure counter and the time of the last trip. `allow` is
asked before a call, `recordSuccess` / `recordFailure` report how an attempt
ended, in any order the caller likes.

The machine hides a simple law, and the second half of this file proves it. Let
`k` be the number of failures recorded since the last success
(`failuresSince`), and `limit = max 1 threshold`. Then, whatever was called before:

> the breaker is `CLOSED` exactly when `k < limit`, and `allow` at time `t` lets a
> call through exactly when `k < limit` or the cooldown has passed since the last
> failure (`run_closed_iff_and_allow_iff`).

The state is thus a cache of the history. `Tracks` is the invariant that says
how: the counter is `k`, and outside `CLOSED` the stamp `openedAt` is the time
of the last failure. `HALF_OPEN` needs one more fact, that the cooldown had
already passed at some call of the history; the clock never goes back, so it
has passed at every later call too.

The source reads `time.monotonic` through `_now`; here the reading is the argument
`now`. It reads floats, and the difference of two floats is rounded: so a `Clock` is
any ordered type with a subtraction, and the law asks of it only that a difference does
not fall as the later time grows.
-/

namespace LingoAsync.Http

open LingoAsync.Machine

/-- What a clock reads, and how long is between two readings. Of the subtraction, which may
round, it is only known that it is monotone. -/
class Clock (T : Type) where
  [order : LinearOrder T]
  [difference : Sub T]
  [zero : Zero T]
  sub_mono : ∀ {a b : T}, a ≤ b → ∀ c, a - c ≤ b - c

instance (priority := 50) {T : Type} [Clock T] : LinearOrder T := Clock.order

instance (priority := 50) {T : Type} [Clock T] : Sub T := Clock.difference

instance (priority := 50) {T : Type} [Clock T] : Zero T := Clock.zero

/-- Exact times. -/
instance : Clock ℚ where
  sub_mono h c := sub_le_sub_right h c

inductive BreakerState where
  | CLOSED
  | OPEN
  | HALF_OPEN
  deriving DecidableEq, Repr

/-- `CircuitBreaker`. The constructor clamps the threshold with `max(1, …)`, and
nothing ever assigns it again: the bound travels with the value. -/
structure CircuitBreaker (T : Type) where
  threshold : Int
  cooldownS : T
  failures : Int
  state : BreakerState
  openedAt : T
  threshold_pos : 1 ≤ threshold

variable {T : Type}

namespace CircuitBreaker

/-- `CircuitBreaker.__init__`. -/
def init [Clock T] (threshold : Int) (cooldownS : T) : CircuitBreaker T where
  threshold := max 1 threshold
  cooldownS := cooldownS
  failures := 0
  state := .CLOSED
  openedAt := 0
  threshold_pos := le_max_left 1 threshold

/-- `allow`: may a call proceed? Asked in `OPEN` once the cooldown has elapsed,
it also moves the breaker to `HALF_OPEN`. -/
def allow [Clock T] (b : CircuitBreaker T) (now : T) : Bool × CircuitBreaker T :=
  if b.state = .OPEN then
    if now - b.openedAt ≥ b.cooldownS then
      (true, { b with state := .HALF_OPEN })
    else (false, b)
  -- `CLOSED` and `HALF_OPEN` both let the call through
  else (true, b)

/-- `record_success`. -/
def recordSuccess (b : CircuitBreaker T) : CircuitBreaker T :=
  { b with failures := 0, state := .CLOSED }

/-- `record_failure`: a failed probe re-opens at once; otherwise the breaker
opens when the count reaches the threshold. -/
def recordFailure (b : CircuitBreaker T) (now : T) : CircuitBreaker T :=
  if b.state = .HALF_OPEN ∨ b.failures + 1 ≥ b.threshold then
    { b with failures := b.failures + 1, state := .OPEN, openedAt := now }
  else { b with failures := b.failures + 1 }

/-! ## What each operation does -/

theorem recordFailure_trips {b : CircuitBreaker T} {now : T}
    (h : b.state = .HALF_OPEN ∨ b.failures + 1 ≥ b.threshold) :
    b.recordFailure now =
      { b with failures := b.failures + 1, state := .OPEN, openedAt := now } :=
  if_pos h

theorem recordFailure_counts {b : CircuitBreaker T} {now : T}
    (h : ¬ (b.state = .HALF_OPEN ∨ b.failures + 1 ≥ b.threshold)) :
    b.recordFailure now = { b with failures := b.failures + 1 } :=
  if_neg h

@[simp] theorem recordFailure_failures (b : CircuitBreaker T) (now : T) :
    (b.recordFailure now).failures = b.failures + 1 := by
  unfold recordFailure; split <;> rfl

@[simp] theorem recordFailure_threshold (b : CircuitBreaker T) (now : T) :
    (b.recordFailure now).threshold = b.threshold := by
  unfold recordFailure; split <;> rfl

/-- A recorded failure never leaves the breaker `HALF_OPEN`. -/
theorem recordFailure_not_halfOpen (b : CircuitBreaker T) (now : T) :
    (b.recordFailure now).state ≠ .HALF_OPEN := by
  by_cases h : b.state = .HALF_OPEN ∨ b.failures + 1 ≥ b.threshold
  · rw [recordFailure_trips h]; simp
  · rw [recordFailure_counts h]
    intro hs
    exact h (Or.inl hs)

@[simp] theorem recordSuccess_state (b : CircuitBreaker T) : b.recordSuccess.state = .CLOSED := rfl

variable [Clock T]

theorem allow_closed {b : CircuitBreaker T} (h : b.state = .CLOSED) (now : T) :
    b.allow now = (true, b) := by
  simp [allow, h]

theorem allow_halfOpen {b : CircuitBreaker T} (h : b.state = .HALF_OPEN) (now : T) :
    b.allow now = (true, b) := by
  simp [allow, h]

theorem allow_open_elapsed {b : CircuitBreaker T} {now : T} (h : b.state = .OPEN)
    (hc : b.cooldownS ≤ now - b.openedAt) :
    b.allow now = (true, { b with state := .HALF_OPEN }) := by
  unfold allow
  rw [if_pos h, if_pos hc]

theorem allow_open_cooling {b : CircuitBreaker T} {now : T} (h : b.state = .OPEN)
    (hc : ¬ b.cooldownS ≤ now - b.openedAt) : b.allow now = (false, b) := by
  unfold allow
  rw [if_pos h, if_neg hc]

/-- What `allow` can have done: nothing, or the step from `OPEN` to `HALF_OPEN`. -/
theorem allow_cases (b : CircuitBreaker T) (now : T) :
    (b.state ≠ .OPEN ∧ b.allow now = (true, b)) ∨
    (b.state = .OPEN ∧ b.cooldownS ≤ now - b.openedAt ∧
      b.allow now = (true, { b with state := .HALF_OPEN })) ∨
    (b.state = .OPEN ∧ ¬ b.cooldownS ≤ now - b.openedAt ∧ b.allow now = (false, b)) := by
  by_cases h : b.state = .OPEN
  · by_cases hc : b.cooldownS ≤ now - b.openedAt
    · exact Or.inr (Or.inl ⟨h, hc, allow_open_elapsed h hc⟩)
    · exact Or.inr (Or.inr ⟨h, hc, allow_open_cooling h hc⟩)
  · exact Or.inl ⟨h, by simp [allow, h]⟩

/-- An admitted call finds the breaker in a state other than `OPEN`. -/
theorem allow_true_state {b : CircuitBreaker T} {now : T} (h : (b.allow now).1 = true) :
    (b.allow now).2.state ≠ .OPEN := by
  rcases allow_cases b now with ⟨hs, he⟩ | ⟨_, _, he⟩ | ⟨_, _, he⟩
  · rw [he]; exact hs
  · rw [he]; simp
  · rw [he] at h; simp at h

end CircuitBreaker

/-! ## Histories and the closed form -/

inductive BreakerOp where
  | allow
  | recordSuccess
  | recordFailure
  deriving DecidableEq, Repr

/-- One call on the breaker, with the clock reading it was made at. -/
structure BreakerCall (T : Type) where
  op : BreakerOp
  now : T

/-- The number of `record_failure` calls since the last `record_success`, or
since the breaker was made. -/
def failuresSince (h : List (BreakerCall T)) : Nat :=
  ((h.reverse.takeWhile (·.op ≠ .recordSuccess)).filter (·.op = .recordFailure)).length

/-- The time of the last `record_failure` call, if there was one. -/
def lastFailure (h : List (BreakerCall T)) : Option T :=
  (h.reverse.find? (·.op = .recordFailure)).map (·.now)

theorem failuresSince_concat (h : List (BreakerCall T)) (c : BreakerCall T) :
    failuresSince (h ++ [c]) =
      match c.op with
      | .allow => failuresSince h
      | .recordSuccess => 0
      | .recordFailure => failuresSince h + 1 := by
  obtain ⟨op, now⟩ := c
  cases op <;> simp [failuresSince]

theorem lastFailure_concat (h : List (BreakerCall T)) (c : BreakerCall T) :
    lastFailure (h ++ [c]) =
      match c.op with
      | .recordFailure => some c.now
      | _ => lastFailure h := by
  obtain ⟨op, now⟩ := c
  cases op <;> simp [lastFailure]

variable [Clock T]

namespace CircuitBreaker

/-- The breaker after one call. -/
def step (b : CircuitBreaker T) (c : BreakerCall T) : CircuitBreaker T :=
  match c.op with
  | .allow => (b.allow c.now).2
  | .recordSuccess => b.recordSuccess
  | .recordFailure => b.recordFailure c.now

end CircuitBreaker

/-- `CLOSED` means that the counter is below the threshold. -/
def Counted (b : CircuitBreaker T) : Prop := b.state = .CLOSED ↔ b.failures < b.threshold

theorem counted_init (threshold : Int) (cooldownS : T) : Counted (.init threshold cooldownS) := by
  refine iff_of_true rfl ?_
  have := le_max_left 1 threshold
  show 0 < max 1 threshold
  omega

theorem counted_step {b : CircuitBreaker T} (h : Counted b) (c : BreakerCall T) :
    Counted (b.step c) := by
  obtain ⟨op, now⟩ := c
  cases op with
  | allow =>
    show Counted (b.allow now).2
    rcases CircuitBreaker.allow_cases b now with ⟨-, he⟩ | ⟨hs, -, he⟩ | ⟨-, -, he⟩
    · rw [he]; exact h
    · rw [he]
      refine iff_of_false nofun ?_
      intro hlt
      rw [h.mpr hlt] at hs
      cases hs
    · rw [he]; exact h
  | recordSuccess =>
    have := b.threshold_pos
    refine iff_of_true rfl ?_
    show 0 < b.threshold
    omega
  | recordFailure =>
    show Counted (b.recordFailure now)
    by_cases ht : b.state = .HALF_OPEN ∨ b.failures + 1 ≥ b.threshold
    · rw [CircuitBreaker.recordFailure_trips ht]
      refine iff_of_false nofun (show ¬ b.failures + 1 < b.threshold from ?_)
      intro hlt
      -- below the threshold a breaker is closed, and this one is half-open
      rcases ht with hs | hge
      · rw [h.mpr (by omega)] at hs
        cases hs
      · omega
    · rw [CircuitBreaker.recordFailure_counts ht]
      obtain ⟨-, hbelow⟩ := not_or.mp ht
      exact iff_of_true (h.mpr (by omega)) (not_le.mp hbelow)

/-- The clock never goes back over the history. -/
def ClockMonotone (h : List (BreakerCall T)) : Prop := (h.map (·.now)).Pairwise (· ≤ ·)

theorem clockMonotone_concat {h : List (BreakerCall T)} {c : BreakerCall T} :
    ClockMonotone (h ++ [c]) ↔ ClockMonotone h ∧ ∀ d ∈ h, d.now ≤ c.now := by
  simp only [ClockMonotone, List.map_append, List.map_cons, List.map_nil,
    List.pairwise_append, List.pairwise_singleton, true_and, List.mem_map,
    forall_exists_index, and_imp, forall_apply_eq_imp_iff₂, List.mem_singleton, forall_eq]

/-- How the breaker remembers its history: the counter is the number of failures
since the last success, `CLOSED` is that number below the threshold, and outside
`CLOSED` the stamp is the last failure. `HALF_OPEN` was entered at a call of the
history, when the cooldown had elapsed. -/
structure Tracks (h : List (BreakerCall T)) (b : CircuitBreaker T) : Prop where
  count : b.failures = failuresSince h
  closed : b.state = .CLOSED ↔ b.failures < b.threshold
  stamp : b.state ≠ .CLOSED → lastFailure h = some b.openedAt
  elapsed : b.state = .HALF_OPEN → ∃ c ∈ h, b.cooldownS ≤ c.now - b.openedAt

theorem tracks_init (threshold : Int) (cooldownS : T) :
    Tracks [] (CircuitBreaker.init threshold cooldownS) where
  count := rfl
  closed := counted_init threshold cooldownS
  stamp h := absurd rfl h
  elapsed h := by cases h

theorem tracks_allow {h : List (BreakerCall T)} {b : CircuitBreaker T} {now : T}
    (hb : Tracks h b) : Tracks (h ++ [⟨.allow, now⟩]) (b.allow now).2 := by
  have hmem : ∀ {c}, c ∈ h → c ∈ h ++ [⟨.allow, now⟩] := fun hc => List.mem_append_left _ hc
  have hsame : Tracks (h ++ [⟨.allow, now⟩]) b := by
    refine ⟨?_, hb.closed, ?_, ?_⟩
    · rw [failuresSince_concat]; exact hb.count
    · rw [lastFailure_concat]; exact hb.stamp
    · intro hs
      obtain ⟨c, hc, hle⟩ := hb.elapsed hs
      exact ⟨c, hmem hc, hle⟩
  rcases CircuitBreaker.allow_cases b now with ⟨_, he⟩ | ⟨hs, hc, he⟩ | ⟨_, _, he⟩
  · rw [he]; exact hsame
  · -- the probe is admitted: the cooldown has elapsed at this very call
    rw [he]
    have hne : b.state ≠ .CLOSED := by rw [hs]; simp
    have hcounted : Counted (b.allow now).2 := counted_step hb.closed ⟨.allow, now⟩
    rw [he] at hcounted
    exact ⟨hsame.count, hcounted, fun _ => hsame.stamp hne, fun _ => ⟨⟨.allow, now⟩, by simp, hc⟩⟩
  · rw [he]; exact hsame

theorem tracks_recordSuccess {h : List (BreakerCall T)} {b : CircuitBreaker T} {now : T}
    (hb : Tracks h b) : Tracks (h ++ [⟨.recordSuccess, now⟩]) b.recordSuccess where
  count := by rw [failuresSince_concat]; rfl
  closed := counted_step hb.closed ⟨.recordSuccess, now⟩
  stamp hs := absurd rfl hs
  elapsed hs := by cases hs

theorem tracks_recordFailure {h : List (BreakerCall T)} {b : CircuitBreaker T} {now : T}
    (hb : Tracks h b) :
    Tracks (h ++ [⟨.recordFailure, now⟩]) (b.recordFailure now) := by
  have hcount : b.failures + 1 = (failuresSince (h ++ [⟨.recordFailure, now⟩]) : Int) := by
    rw [failuresSince_concat, hb.count]; simp
  have hlast : lastFailure (h ++ [⟨.recordFailure, now⟩]) = some now := by
    rw [lastFailure_concat]
  have hcounted : Counted (b.recordFailure now) := counted_step hb.closed ⟨.recordFailure, now⟩
  by_cases ht : b.state = .HALF_OPEN ∨ b.failures + 1 ≥ b.threshold
  · rw [CircuitBreaker.recordFailure_trips ht] at hcounted ⊢
    exact ⟨hcount, hcounted, fun _ => hlast, fun hs => by cases hs⟩
  · rw [CircuitBreaker.recordFailure_counts ht] at hcounted ⊢
    rw [not_or] at ht
    have hclosed : b.state = .CLOSED := hb.closed.mpr (by omega)
    exact ⟨hcount, hcounted, fun hs => absurd hclosed hs, fun hs => absurd hs ht.1⟩

theorem tracks_step {h : List (BreakerCall T)} {b : CircuitBreaker T} (c : BreakerCall T)
    (hb : Tracks h b) : Tracks (h ++ [c]) (b.step c) := by
  obtain ⟨op, now⟩ := c
  cases op with
  | allow => exact tracks_allow hb
  | recordSuccess => exact tracks_recordSuccess hb
  | recordFailure => exact tracks_recordFailure hb

/-- Every history is tracked. -/
theorem tracks_run (threshold : Int) (cooldownS : T) (h : List (BreakerCall T)) :
    Tracks h (run CircuitBreaker.step (.init threshold cooldownS) h) := by
  induction h using List.reverseRecOn with
  | nil => exact tracks_init threshold cooldownS
  | append_singleton h c ih =>
    rw [run_concat]
    exact tracks_step c ih

theorem step_settings (b : CircuitBreaker T) (c : BreakerCall T) :
    (b.step c).threshold = b.threshold ∧ (b.step c).cooldownS = b.cooldownS := by
  obtain ⟨op, now⟩ := c
  cases op with
  | allow =>
    rcases CircuitBreaker.allow_cases b now with ⟨_, he⟩ | ⟨_, _, he⟩ | ⟨_, _, he⟩ <;>
      simp [CircuitBreaker.step, he]
  | recordSuccess => exact ⟨rfl, rfl⟩
  | recordFailure =>
    simp only [CircuitBreaker.step, CircuitBreaker.recordFailure]
    split <;> exact ⟨rfl, rfl⟩

theorem run_settings (threshold : Int) (cooldownS : T) (h : List (BreakerCall T)) :
    (run CircuitBreaker.step (.init threshold cooldownS) h).threshold = max 1 threshold ∧
    (run CircuitBreaker.step (.init threshold cooldownS) h).cooldownS = cooldownS :=
  run_inv (fun b : CircuitBreaker T => b.threshold = max 1 threshold ∧ b.cooldownS = cooldownS)
    (fun b c hb => by
      obtain ⟨h1, h2⟩ := step_settings b c
      exact ⟨h1.trans hb.1, h2.trans hb.2⟩) h ⟨rfl, rfl⟩

/-- A tracked breaker answers `allow` from its history alone, at any time the
clock can still read. -/
theorem tracks_allow_iff {h : List (BreakerCall T)} {b : CircuitBreaker T} (hb : Tracks h b)
    {t : T} (ht : ∀ c ∈ h, c.now ≤ t) :
    (b.allow t).1 = true ↔
      b.failures < b.threshold ∨ ∃ tf, lastFailure h = some tf ∧ t - tf ≥ b.cooldownS := by
  cases hs : b.state with
  | CLOSED =>
    rw [CircuitBreaker.allow_closed hs]
    simp only [true_iff]
    exact Or.inl (hb.closed.mp hs)
  | OPEN =>
    have hlast := hb.stamp (by rw [hs]; simp)
    have hge : ¬ b.failures < b.threshold := by
      intro hlt
      rw [hb.closed.mpr hlt] at hs; cases hs
    by_cases hc : b.cooldownS ≤ t - b.openedAt
    · rw [CircuitBreaker.allow_open_elapsed hs hc]
      simp only [true_iff]
      exact Or.inr ⟨b.openedAt, hlast, hc⟩
    · rw [CircuitBreaker.allow_open_cooling hs hc]
      simp only [Bool.false_eq_true, false_iff, not_or, not_exists, not_and]
      refine ⟨hge, ?_⟩
      intro tf htf
      obtain rfl : b.openedAt = tf := Option.some.inj (hlast.symm.trans htf)
      exact hc
  | HALF_OPEN =>
    -- entered at a call of the history that found the cooldown elapsed, and `t` is later still
    rw [CircuitBreaker.allow_halfOpen hs]
    simp only [true_iff]
    obtain ⟨c, hc, hle⟩ := hb.elapsed hs
    refine Or.inr ⟨b.openedAt, hb.stamp (by rw [hs]; simp), ?_⟩
    exact hle.trans (Clock.sub_mono (ht c hc) b.openedAt)

/-- **The breaker is a function of its history.** After any calls, the breaker is
`CLOSED` exactly while fewer than `max 1 threshold` failures were recorded since
the last success; and, on a clock that never goes back, `allow` at a later time
lets a call through exactly then or when the cooldown has passed since the last
failure. -/
theorem run_closed_iff_and_allow_iff (threshold : Int) (cooldownS : T) (h : List (BreakerCall T)) :
    let b := run CircuitBreaker.step (.init threshold cooldownS) h
    (b.state = .CLOSED ↔ (failuresSince h : Int) < max 1 threshold) ∧
    ∀ t, ClockMonotone (h ++ [⟨.allow, t⟩]) →
      ((b.allow t).1 = true ↔ (failuresSince h : Int) < max 1 threshold ∨
        ∃ tf, lastFailure h = some tf ∧ t - tf ≥ cooldownS) := by
  intro b
  have hb : Tracks h b := tracks_run threshold cooldownS h
  obtain ⟨hT, hcool⟩ := run_settings threshold cooldownS h
  have hcount : (failuresSince h : Int) < max 1 threshold ↔ b.failures < b.threshold := by
    rw [hb.count, hT]
  refine ⟨hb.closed.trans hcount.symm, ?_⟩
  intro t ht
  rw [hcount, ← hcool]
  exact tracks_allow_iff hb (clockMonotone_concat.mp ht).2

/-- Two failures against a threshold of two, at seconds 0 and 1: under a cooldown
of 30 the breaker refuses at second 30, for only 29 seconds have passed. -/
theorem run_closed_iff_and_allow_iff_cooling :
    ((run CircuitBreaker.step (.init 2 (30 : ℚ))
      [⟨.recordFailure, 0⟩, ⟨.recordFailure, 1⟩]).allow 30).1 = false := by
  let h : List (BreakerCall ℚ) := [⟨.recordFailure, 0⟩, ⟨.recordFailure, 1⟩]
  have hmono : ClockMonotone (h ++ [⟨.allow, 30⟩]) := by
    unfold ClockMonotone
    decide
  have hiff := (run_closed_iff_and_allow_iff 2 30 h).2 30 hmono
  have hk : failuresSince h = 2 := rfl
  have hl : lastFailure h = some 1 := rfl
  rw [← Bool.not_eq_true, hiff, hk, hl]
  intro hyp
  rcases hyp with hlt | ⟨tf, htf, hlate⟩
  · exact absurd hlt (by decide)
  · obtain rfl : (1 : ℚ) = tf := Option.some.inj htf
    norm_num at hlate

end LingoAsync.Http
