import Mathlib.Data.Int.Basic
import Mathlib.Tactic.IntervalCases
import LingoAsync.Text.Str

/-!
# The calendar and the clock

Days of the proleptic Gregorian calendar by their ordinal (day 1 is 1 January of
year 1), ISO 8601 weeks on top of them, and readings of the UTC clock.

An `Instant` is what `datetime.now(UTC)` returns. Its bounds are fields, the year
among them: it stops at 9998, so that adding the few weeks the leaderboard adds
never leaves the range of `datetime`.

`isoformat` spells an instant with fields of fixed width; hence two instants with
the same text are the same (`isoformat_injective`), and the text never holds a
`#`, the separator of the event log's keys (`isoformat_no_hash`).
-/

namespace LingoAsync.Calendar

open LingoAsync.Text

/-! ## Days -/

def isLeap (y : Int) : Bool := y % 4 = 0 && (y % 100 != 0 || y % 400 = 0)

def daysInMonth (y : Int) (m : Nat) : Nat :=
  if m = 2 then (if isLeap y then 29 else 28)
  else if m = 4 ∨ m = 6 ∨ m = 9 ∨ m = 11 then 30
  else 31

/-- Days before 1 January of year `y`. -/
def daysBeforeYear (y : Int) : Int :=
  let y := y - 1
  y * 365 + y / 4 - y / 100 + y / 400

/-- Days of year `y` before the first of month `m`. -/
def daysBeforeMonth (y : Int) (m : Nat) : Nat :=
  ((List.range (m - 1)).map fun k => daysInMonth y (k + 1)).sum

/-- The ordinal of a date. -/
def ymd2ord (y : Int) (m d : Nat) : Int :=
  daysBeforeYear y + daysBeforeMonth y m + d

/-- The ordinal of the Monday that starts ISO year `y`: the week with its first
Thursday. -/
def isoWeek1Monday (y : Int) : Int :=
  let firstday := ymd2ord y 1 1
  let firstweekday := (firstday + 6) % 7
  let week1monday := firstday - firstweekday
  if firstweekday > 3 then week1monday + 7 else week1monday

/-- `date.isocalendar()`: ISO year and week of a date of year `y`, by its ordinal. -/
def isocalendar (y today : Int) : Int × Int :=
  let week := (today - isoWeek1Monday y) / 7
  if week < 0 then (y - 1, (today - isoWeek1Monday (y - 1)) / 7 + 1)
  else if week ≥ 52 ∧ today ≥ isoWeek1Monday (y + 1) then (y + 1, 1)
  else (y, week + 1)

/-- The ordinal of the Monday `datetime.fromisocalendar(year, week, 1)`. -/
def mondayOfIsoWeek (year week : Int) : Int := isoWeek1Monday year + (week - 1) * 7

/-- 1 January 1970. -/
def epochOrdinal : Int := 719163

/-- `timestamp()` of midnight UTC on a day. -/
def midnightTimestamp (ordinal : Int) : Int := (ordinal - epochOrdinal) * 86400

/-! ## Instants -/

structure Instant where
  year : Nat
  month : Nat
  day : Nat
  hour : Nat
  minute : Nat
  second : Nat
  microsecond : Nat
  year_range : 1 ≤ year ∧ year ≤ 9998
  month_range : 1 ≤ month ∧ month ≤ 12
  day_range : 1 ≤ day ∧ day ≤ daysInMonth year month
  time_range : hour < 24 ∧ minute < 60 ∧ second < 60 ∧ microsecond < 1000000
  deriving DecidableEq

namespace Instant

def ordinal (t : Instant) : Int := ymd2ord t.year t.month t.day

/-- Microseconds since the epoch: `timestamp()`, exactly. -/
def micros (t : Instant) : Int :=
  (midnightTimestamp t.ordinal + t.hour * 3600 + t.minute * 60 + t.second) * 1000000 + t.microsecond

/-- The whole second the instant falls in, counted from the epoch. -/
def wholeSecond (t : Instant) : Int :=
  midnightTimestamp t.ordinal + t.hour * 3600 + t.minute * 60 + t.second

/-- `t < u`, as the clock runs. -/
def Before (t u : Instant) : Prop := t.micros < u.micros

instance (t u : Instant) : Decidable (t.Before u) := inferInstanceAs (Decidable (_ < _))

theorem Before.ne {t u : Instant} (h : t.Before u) : t ≠ u := by
  intro heq
  subst heq
  exact lt_irrefl _ h

/-- Noon on 13 June 2026. -/
def noon : Instant := ⟨2026, 6, 13, 12, 0, 0, 0, by decide, by decide, by decide, by decide⟩

/-- `int(t.timestamp() + seconds)`. -/
def timestampPlus (t : Instant) (seconds : Int) : Int :=
  (t.micros + seconds * 1000000).tdiv 1000000

end Instant

/-! ## Text -/

/-- `f"{n:0wd}"`, for an `n` of at most `w` digits. -/
def pad : (w n : Nat) → PyStr
  | 0, _ => []
  | w + 1, n => pad w (n / 10) ++ [48 + n % 10]

@[simp] theorem pad_length (w n : Nat) : (pad w n).length = w := by
  induction w generalizing n with
  | zero => rfl
  | succ w ih =>
    rw [pad, List.length_append, ih]
    rfl

theorem pad_digit {w n c : Nat} (h : c ∈ pad w n) : 48 ≤ c ∧ c ≤ 57 := by
  induction w generalizing n with
  | zero => cases h
  | succ w ih =>
    rcases List.mem_append.mp h with h' | h'
    · exact ih h'
    · rw [List.mem_singleton.mp h']
      omega

theorem pad_injective {w m n : Nat} (hm : m < 10 ^ w) (hn : n < 10 ^ w)
    (h : pad w m = pad w n) : m = n := by
  induction w generalizing m n with
  | zero =>
    rw [pow_zero] at hm hn
    omega
  | succ w ih =>
    rw [pow_succ] at hm hn
    -- the head is the number without its last digit
    obtain ⟨hhead, hlast⟩ := List.append_inj h (by rw [pad_length, pad_length])
    have hdiv := ih (Nat.div_lt_of_lt_mul (by omega)) (Nat.div_lt_of_lt_mul (by omega)) hhead
    have hmod : 48 + m % 10 = 48 + n % 10 := (List.cons.inj hlast).1
    omega

/-- `t.isoformat()`, of an instant in UTC. -/
def Instant.isoformat (t : Instant) : PyStr :=
  pad 4 t.year ++ (45 :: (pad 2 t.month ++ (45 :: (pad 2 t.day ++ (84 :: (pad 2 t.hour ++
    (58 :: (pad 2 t.minute ++ (58 :: (pad 2 t.second ++
      ((if t.microsecond = 0 then [] else 46 :: pad 6 t.microsecond) ++ py "+00:00")))))))))))

/-- A field of fixed width and what follows it can be told apart. -/
theorem pad_append_inj {w m n : Nat} {s t : PyStr} (hm : m < 10 ^ w) (hn : n < 10 ^ w)
    (h : pad w m ++ s = pad w n ++ t) : m = n ∧ s = t := by
  obtain ⟨h1, h2⟩ := List.append_inj h (by rw [pad_length, pad_length])
  exact ⟨pad_injective hm hn h1, h2⟩

theorem daysInMonth_le (y : Int) (m : Nat) : daysInMonth y m ≤ 31 := by
  unfold daysInMonth
  split_ifs <;> omega

theorem isoformat_injective {t u : Instant} (h : t.isoformat = u.isoformat) : t = u := by
  obtain ⟨ty, tmo, td, th, tmi, ts, tus, hy, hmo, hd, htime⟩ := t
  obtain ⟨uy, umo, ud, uh, umi, us, uus, hy', hmo', hd', htime'⟩ := u
  have hd31 := daysInMonth_le ty tmo
  have hd31' := daysInMonth_le uy umo
  simp only [Instant.isoformat] at h
  obtain ⟨rfl, h1⟩ := pad_append_inj (w := 4) (by omega) (by omega) h
  obtain ⟨rfl, h2⟩ := pad_append_inj (w := 2) (by omega) (by omega) (List.cons.inj h1).2
  obtain ⟨rfl, h3⟩ := pad_append_inj (w := 2) (by omega) (by omega) (List.cons.inj h2).2
  obtain ⟨rfl, h4⟩ := pad_append_inj (w := 2) (by omega) (by omega) (List.cons.inj h3).2
  obtain ⟨rfl, h5⟩ := pad_append_inj (w := 2) (by omega) (by omega) (List.cons.inj h4).2
  obtain ⟨rfl, h6⟩ := pad_append_inj (w := 2) (by omega) (by omega) (List.cons.inj h5).2
  -- the microseconds are left out when they are zero
  have hus := List.append_cancel_right h6
  have : tus = uus := by
    by_cases h0 : tus = 0
    · by_cases h0' : uus = 0
      · rw [h0, h0']
      · rw [if_pos h0, if_neg h0'] at hus; cases hus
    · by_cases h0' : uus = 0
      · rw [if_neg h0, if_pos h0'] at hus; cases hus
      · rw [if_neg h0, if_neg h0'] at hus
        exact pad_injective (w := 6) (by omega) (by omega) (List.cons.inj hus).2
  subst this
  rfl

/-- The text of an instant holds no `#`. -/
theorem isoformat_no_hash (t : Instant) : 35 ∉ t.isoformat := by
  have hpad : ∀ w n, 35 ∉ pad w n := by
    intro w n h
    have := pad_digit h
    omega
  have hfrac : 35 ∉ (if t.microsecond = 0 then [] else 46 :: pad 6 t.microsecond) := by
    split
    · exact List.not_mem_nil
    · simp [hpad]
  have hzone : 35 ∉ py "+00:00" := by decide
  simp only [Instant.isoformat, List.mem_append, List.mem_cons, hpad, hfrac, hzone, or_false]
  decide

end LingoAsync.Calendar
