import LingoAsync.Http.RetryLoop

/-!
# Callbacks that change something

`add_xp` and `bump_progress` are calls that core applies: a credit, a bump. A request that
fails transiently is tried again, and the client cannot tell one that never arrived from one
that was applied and whose answer was lost, or was a 5xx. Nothing in the request lets core
tell either.

So core applies a callback once for every attempt that reaches it. That comes to at most
once, and to exactly once when the call returns, if and only if no attempt that reached core
is followed by another of the call that does (`appliedOnce_iff`). The first of two such has its
answer lost, or is answered with a 5xx or a 429 (`reachesOnce_iff_lost`).
-/

namespace LingoAsync.Http

open LingoAsync.Text LingoAsync.Retry

variable {F T : Type} [Clock T]

/-- A network with core at its end. A request that reaches core is applied, and its answer is
a success, a 5xx or a 429, or is lost; one that does not reach core is lost. -/
structure CoreNet (F T : Type) where
  net : Net F T
  reaches : Nat → Bool
  answers : ∀ n, reaches n = true → answered net n = true ∨ failsTransiently net n = true
  loses : ∀ n, reaches n = false → net.send n = .error .TransportError

/-- The callbacks by which core changes something. -/
inductive Callback where
  | add_xp
  | bump_progress
  deriving DecidableEq, Repr

def Callback.label : Callback → PyStr
  | .add_xp => py "add_xp"
  | .bump_progress => py "bump_progress"

/-- `LingoCoreClient.add_xp`, `LingoCoreClient.bump_progress`. -/
def Callback.call (c : Callback) (cfg : ClientSettings) (core : CoreNet F T) (s : ClientState T) :
    Except PyExc (Json F) × ClientState T :=
  request cfg core.net c.label s

/-- How often core applied something between two states of the client: once for each request
that reached it. -/
def applied (core : CoreNet F T) (s s' : ClientState T) : Nat :=
  (List.range (s'.sent - s.sent)).countP fun i => core.reaches (s.sent + i)

/-- Core applies the callback at most once, and exactly once if the call returns. -/
def AppliedOnce (cfg : ClientSettings) (core : CoreNet F T) (c : Callback) (s : ClientState T) :
    Prop :=
  applied core s (c.call cfg core s).2 ≤ 1 ∧
    ((c.call cfg core s).1.isOk = true → applied core s (c.call cfg core s).2 = 1)

/-- The breaker refuses the call, or of its attempts at most one reaches core. -/
def ReachesOnce (cfg : ClientSettings) (core : CoreNet F T) (s : ClientState T) : Prop :=
  (allow core.net s).1 = false ∨
    ∀ i k, i < k → k < attemptsFrom core.net s.sent (maxAttempts cfg) →
      core.reaches (s.sent + i) = true → core.reaches (s.sent + k) = false

/-- At most one number below `n` is counted. -/
theorem countP_range_le_one_iff (p : Nat → Bool) (n : Nat) :
    (List.range n).countP p ≤ 1 ↔ ∀ i k, i < k → k < n → p i = true → p k = false := by
  induction n with
  | zero => exact iff_of_true (Nat.zero_le 1) fun i k _ hk => absurd hk (Nat.not_lt_zero k)
  | succ n ih =>
    rw [List.range_succ, List.countP_append, List.countP_singleton]
    cases hp : p n with
    | false =>
      rw [if_neg Bool.false_ne_true, Nat.add_zero, ih]
      constructor
      · intro h i k hik hk hi
        rcases Nat.lt_succ_iff_lt_or_eq.mp hk with hlt | rfl
        · exact h i k hik hlt hi
        · exact hp
      · intro h i k hik hk
        exact h i k hik (Nat.lt_succ_of_lt hk)
    | true =>
      -- the last is counted, so no other may be
      have hzero : (List.range n).countP p + 1 ≤ 1 ↔ (List.range n).countP p = 0 := by omega
      rw [if_pos rfl, hzero, List.countP_eq_zero]
      constructor
      · intro h i k hik hk hi
        exact absurd hi (h i (List.mem_range.mpr (by omega)))
      · intro h i hi hpi
        rw [h i n (List.mem_range.mp hi) (Nat.lt_succ_self n) hpi] at hp
        cases hp

/-- The requests of a call are those of its attempts. -/
theorem request_sent (cfg : ClientSettings) (net : Net F T) (label : PyStr) (s : ClientState T) :
    (request cfg net label s).2.sent - s.sent =
      if (allow net s).1 then attemptsFrom net s.sent (maxAttempts cfg) else 0 := by
  rw [request_eq_reference cfg net label s, reference]
  cases (allow net s).1 with
  | true => exact Nat.add_sub_cancel_left ..
  | false => exact Nat.sub_self s.sent

/-- A call that returns was let through, and its last attempt was answered. -/
theorem request_returned {cfg : ClientSettings} {net : Net F T} {label : PyStr} {s : ClientState T}
    (h : (request cfg net label s).1.isOk = true) : (allow net s).1 = true ∧
      answered net (s.sent + (attemptsFrom net s.sent (maxAttempts cfg) - 1)) = true := by
  rw [request_eq_reference cfg net label s, reference] at h
  cases ha : (allow net s).1 with
  | false =>
    rw [ha] at h
    cases h
  | true =>
    rw [ha, if_pos rfl] at h
    refine ⟨rfl, ?_⟩
    dsimp only [outcome] at h
    unfold answered
    cases hx : exchange net (s.sent + (attemptsFrom net s.sent (maxAttempts cfg) - 1)) with
    | ok resp => rfl
    | error e =>
      rw [hx] at h
      cases h

omit [Clock T] in
/-- Only a request that reached core is answered. -/
theorem CoreNet.reaches_of_answered (core : CoreNet F T) {n : Nat}
    (h : answered core.net n = true) : core.reaches n = true := by
  cases hr : core.reaches n with
  | true => rfl
  | false =>
    rw [answered, exchange, core.loses n hr] at h
    cases h

/-- **Once, if the others never arrived**: core applies a callback at most once, and exactly once
when the call returns, if and only if of the call's attempts at most one reaches core. -/
theorem appliedOnce_iff (cfg : ClientSettings) (core : CoreNet F T) (c : Callback)
    (s : ClientState T) : AppliedOnce cfg core c s ↔ ReachesOnce cfg core s := by
  have hreturned : (c.call cfg core s).1.isOk = true →
      1 ≤ applied core s (c.call cfg core s).2 := by
    intro h
    obtain ⟨ha, hans⟩ := request_returned h
    have hpos : 0 < attemptsFrom core.net s.sent (maxAttempts cfg) := by
      rw [maxAttempts, Nat.add_comm]
      exact attemptsFrom_pos ..
    -- the attempt that was answered is one of those counted
    refine List.countP_pos_iff.mpr
      ⟨attemptsFrom core.net s.sent (maxAttempts cfg) - 1, ?_, core.reaches_of_answered hans⟩
    rw [Callback.call, request_sent, if_pos ha, List.mem_range]
    omega
  have honce : AppliedOnce cfg core c s ↔ applied core s (c.call cfg core s).2 ≤ 1 := by
    refine ⟨And.left, ?_⟩
    intro h
    exact ⟨h, fun hret => Nat.le_antisymm h (hreturned hret)⟩
  rw [honce, applied, countP_range_le_one_iff, Callback.call, request_sent, ReachesOnce]
  cases (allow core.net s).1 with
  | true => exact (or_iff_right Bool.true_eq_false.mp).symm
  | false => exact iff_of_true (fun i k _ hk => absurd hk (Nat.not_lt_zero k)) (.inl rfl)

/-- What it takes for a callback to be applied twice: a request that was applied, and whose answer
was lost or was a 5xx or a 429, and a later attempt of the call that reaches core as well. -/
theorem reachesOnce_iff_lost (cfg : ClientSettings) (core : CoreNet F T) (s : ClientState T) :
    ReachesOnce cfg core s ↔ (allow core.net s).1 = false ∨
      ∀ i k, i < k → k < attemptsFrom core.net s.sent (maxAttempts cfg) →
        core.reaches (s.sent + i) = true → failsTransiently core.net (s.sent + i) = true →
          core.reaches (s.sent + k) = false := by
  refine or_congr_right ⟨fun h i k hik hk hi _ => h i k hik hk hi, ?_⟩
  intro h i k hik hk hi
  -- an attempt that another follows failed transiently
  have hfails : failsTransiently core.net (s.sent + i) = true :=
    again_of_lt (s.sent + ·) (lt_of_le_of_lt hik hk)
  exact h i k hik hk hi hfails

/-! ## An answer that was lost -/

/-- The answer to the first request is lost on the way back, and the second is answered. -/
def lostAnswerNet : CoreNet Unit ℚ where
  net :=
    { send := fun n =>
        if n = 0 then .error .TransportError else .ok ⟨200, .ok .null, fun _ h => nomatch h⟩
      clock := fun n => n }
  reaches _ := true
  answers n _ := by
    cases n with
    | zero => exact .inr rfl
    | succ n => exact .inl rfl
  loses _ h := nomatch h

/-- With the default settings `add_xp` returns, and core has credited the XP twice. -/
theorem lostAnswer_twice : ¬ AppliedOnce ⟨2, 1 / 5, 2⟩ lostAnswerNet .add_xp (.init 5 30) := by
  intro h
  have htwice : applied lostAnswerNet (.init 5 30)
      (Callback.add_xp.call ⟨2, 1 / 5, 2⟩ lostAnswerNet (.init 5 30)).2 = 2 := by decide
  rw [AppliedOnce, htwice] at h
  exact absurd h.1 (by decide)

end LingoAsync.Http
