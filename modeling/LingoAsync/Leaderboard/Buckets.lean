import LingoAsync.Calendar.Weeks
import LingoAsync.Leaderboard.Updater

/-!
# Buckets and periods

What a bucket is for: the XP of one language over one week or one month. A
`Period` is either; `bucket_eq_iff` says that the label of a bucket tells its
language and its period, whatever the language is called, and `bucket_ttl` that
its time to live is a matter of the period alone. The first is not clear from
the labels, since a language may hold a `#` and more: it is that the last eight or
seven characters are of fixed shape, and the third from the end tells which.

`buckets_partition` says both of the calendar itself: weeks from Monday to Sunday and
calendar months, and how long a bucket is kept after an instant it is for.
-/

namespace LingoAsync.Leaderboard

open LingoAsync.Text LingoAsync.Calendar

/-- The two buckets an event is added to. -/
inductive Scope where
  | weekly
  | monthly
  deriving DecidableEq

def bucket : Scope → (lang : PyStr) → (now : Instant) → PyStr × Int
  | .weekly => weeklyBucket
  | .monthly => monthlyBucket

/-- A week, by its Monday, or a month. -/
inductive Period where
  | week (monday : Int)
  | month (year month : Nat)
  deriving DecidableEq

namespace Period

/-- The instant falls in the period. -/
def Contains : Period → Instant → Prop
  | .week monday, t => monday ≤ t.ordinal ∧ t.ordinal < monday + 7
  | .month y m, t => t.year = y ∧ t.month = m

/-- The timestamp of its last second. -/
def lastSecond : Period → Int
  | .week monday => midnightTimestamp (monday + 7) - 1
  | .month y m => midnightTimestamp (ymd2ord y m 1 + daysInMonth y m) - 1

end Period

/-- The week or the month of an instant. -/
def periodOf : Scope → Instant → Period
  | .weekly, t => .week (mondayOf t.ordinal)
  | .monthly, t => .month t.year t.month

/-- An instant falls in the periods that are its own, and in no others. -/
theorem contains_periodOf (scope : Scope) (t u : Instant) :
    (periodOf scope t).Contains u ↔ periodOf scope u = periodOf scope t := by
  cases scope with
  | weekly =>
    rw [periodOf, periodOf, Period.Contains, Period.week.injEq, mondayOf, mondayOf]
    omega
  | monthly => rw [periodOf, periodOf, Period.Contains, Period.month.injEq]

theorem scope_of_periodOf {scope scope' : Scope} {t u : Instant}
    (h : periodOf scope t = periodOf scope' u) : scope = scope' := by
  cases scope <;> cases scope' <;> first | rfl | cases h

/-! ## The time to live -/

/-- The first of the month after is the day after the last. -/
theorem firstOfNext (t : Instant) :
    (if t.month = 12 then midnightTimestamp (ymd2ord (t.year + 1) 1 1)
      else midnightTimestamp (ymd2ord t.year (t.month + 1) 1)) =
      midnightTimestamp (ymd2ord t.year t.month 1 + daysInMonth t.year t.month) := by
  split
  · rename_i h
    have hyear := daysBeforeYear_succ t.year
    have htotal := daysBeforeMonth_thirteen t.year
    have hmonth : daysBeforeMonth t.year 13 = daysBeforeMonth t.year 12 + daysInMonth t.year 12 :=
      daysBeforeMonth_succ t.year (by omega)
    rw [ymd2ord_first, h, ymd2ord]
    congr 1
    omega
  · have hmonth := daysBeforeMonth_succ t.year t.month_range.1
    rw [ymd2ord, ymd2ord]
    congr 1
    omega

/-- **A bucket's time to live** is its period's last second and 30 days. -/
theorem bucket_ttl (scope : Scope) (lang : PyStr) (t : Instant) :
    (bucket scope lang t).2 = (periodOf scope t).lastSecond + 30 * 86400 := by
  cases scope with
  | weekly =>
    have hmonday := t.mondayOfIsoWeek_iso
    unfold Instant.iso at hmonday
    show midnightTimestamp (mondayOfIsoWeek _ _) + 7 * 86400 - 1 + TTL_GRACE = _
    rw [hmonday, periodOf, Period.lastSecond, TTL_GRACE, midnightTimestamp, midnightTimestamp]
    omega
  | monthly =>
    show (if t.month = 12 then _ else _) - 1 + TTL_GRACE = _
    rw [firstOfNext, periodOf, Period.lastSecond, TTL_GRACE]

/-! ## The label -/

/-- What stands behind the language in a week's label, split before its last three
characters, -/
theorem weeklyBucket_label (lang : PyStr) (t : Instant) :
    (weeklyBucket lang t).1 =
      (lang ++ 35 :: (pad 4 t.iso.1.toNat ++ [45])) ++ 87 :: pad 2 t.iso.2.toNat := by
  simp [weeklyBucket, Instant.iso, py]

/-- and in a month's. -/
theorem monthlyBucket_label (lang : PyStr) (t : Instant) :
    (monthlyBucket lang t).1 = (lang ++ 35 :: pad 4 t.year) ++ 45 :: pad 2 t.month := by
  simp [monthlyBucket, py]

theorem weeklyBucket_ne_monthlyBucket (lang lang' : PyStr) (t u : Instant) :
    (weeklyBucket lang t).1 ≠ (monthlyBucket lang' u).1 := by
  rw [weeklyBucket_label, monthlyBucket_label]
  intro h
  obtain ⟨_, htail⟩ := List.append_inj' h (by simp)
  cases (List.cons.inj htail).1

theorem weeklyBucket_inj {lang lang' : PyStr} {t u : Instant}
    (h : (weeklyBucket lang t).1 = (weeklyBucket lang' u).1) : lang = lang' ∧ t.iso = u.iso := by
  rw [weeklyBucket_label, weeklyBucket_label] at h
  obtain ⟨hhead, htail⟩ := List.append_inj' h (by simp)
  obtain ⟨hlang, hyear⟩ := List.append_inj' hhead (by simp)
  have ht := t.iso_range
  have hu := u.iso_range
  have hy := pad_injective (by omega) (by omega)
    (List.append_cancel_right (List.cons.inj hyear).2)
  have hw := pad_injective (by omega) (by omega) (List.cons.inj htail).2
  exact ⟨hlang, Prod.ext (by omega) (by omega)⟩

theorem monthlyBucket_inj {lang lang' : PyStr} {t u : Instant}
    (h : (monthlyBucket lang t).1 = (monthlyBucket lang' u).1) :
    lang = lang' ∧ t.year = u.year ∧ t.month = u.month := by
  rw [monthlyBucket_label, monthlyBucket_label] at h
  obtain ⟨hhead, htail⟩ := List.append_inj' h (by simp)
  obtain ⟨hlang, hyear⟩ := List.append_inj' hhead (by simp)
  have ht := t.year_range
  have hu := u.year_range
  have htm := t.month_range
  have hum := u.month_range
  have hy := pad_injective (w := 4) (by omega) (by omega) (List.cons.inj hyear).2
  have hm := pad_injective (w := 2) (by omega) (by omega) (List.cons.inj htail).2
  exact ⟨hlang, hy, hm⟩

/-- **A label tells the language and the period**, and says nothing else. -/
theorem bucket_eq_iff (scope scope' : Scope) (lang lang' : PyStr) (t u : Instant) :
    (bucket scope lang t).1 = (bucket scope' lang' u).1 ↔
      lang = lang' ∧ periodOf scope t = periodOf scope' u := by
  cases scope with
  | weekly =>
    cases scope' with
    | weekly =>
      rw [periodOf, periodOf, Period.week.injEq, ← Instant.iso_eq_iff]
      constructor
      · exact weeklyBucket_inj
      · intro h
        show (weeklyBucket lang t).1 = (weeklyBucket lang' u).1
        rw [weeklyBucket_label, weeklyBucket_label, h.1, h.2]
    | monthly =>
      refine iff_of_false (weeklyBucket_ne_monthlyBucket lang lang' t u) ?_
      intro h
      cases h.2
  | monthly =>
    cases scope' with
    | weekly =>
      refine iff_of_false (weeklyBucket_ne_monthlyBucket lang' lang u t).symm ?_
      intro h
      cases h.2
    | monthly =>
      rw [periodOf, periodOf, Period.month.injEq]
      constructor
      · exact monthlyBucket_inj
      · intro h
        show (monthlyBucket lang t).1 = (monthlyBucket lang' u).1
        rw [monthlyBucket_label, monthlyBucket_label, h.1, h.2.1, h.2.2]

/-! ## Buckets and the calendar -/

namespace Period

/-- The timestamp of its first second. -/
def firstSecond : Period → Int
  | .week monday => midnightTimestamp monday
  | .month y m => midnightTimestamp (ymd2ord y m 1)

/-- The seconds of its instants lie between its first and its last. -/
theorem Contains.wholeSecond {p : Period} {t : Instant} (h : p.Contains t) :
    p.firstSecond ≤ t.wholeSecond ∧ t.wholeSecond ≤ p.lastSecond := by
  have htime := t.time_range
  have hday := t.day_range
  cases p with
  | week monday =>
    obtain ⟨hstart, hend⟩ := h
    rw [firstSecond, lastSecond, Instant.wholeSecond, midnightTimestamp, midnightTimestamp,
      midnightTimestamp]
    omega
  | month y m =>
    obtain ⟨rfl, rfl⟩ := h
    rw [firstSecond, lastSecond, Instant.wholeSecond, Instant.ordinal, midnightTimestamp,
      midnightTimestamp, midnightTimestamp, ymd2ord, ymd2ord]
    omega

end Period

/-- At most how many days a period of the scope has. -/
def Scope.maxDays : Scope → Int
  | .weekly => 7
  | .monthly => 31

/-- A period is over when its days are. -/
theorem lastSecond_le (scope : Scope) (t : Instant) : (periodOf scope t).lastSecond <
    (periodOf scope t).firstSecond + scope.maxDays * 86400 := by
  cases scope with
  | weekly =>
    rw [periodOf, Period.lastSecond, Period.firstSecond, Scope.maxDays, midnightTimestamp,
      midnightTimestamp]
    omega
  | monthly =>
    have hdays := daysInMonth_le t.year t.month
    rw [periodOf, Period.lastSecond, Period.firstSecond, Scope.maxDays, midnightTimestamp,
      midnightTimestamp]
    omega

/-- **A bucket outlives its period**: it is kept for 30 days after any instant of the period, and
not much longer. -/
theorem bucket_ttl_bounds (scope : Scope) (lang : PyStr) (t : Instant) :
    t.wholeSecond + 30 * 86400 ≤ (bucket scope lang t).2 ∧
      (bucket scope lang t).2 < t.wholeSecond + (scope.maxDays + 30) * 86400 := by
  have hcontains : (periodOf scope t).Contains t := (contains_periodOf scope t t).mpr rfl
  obtain ⟨hfirst, hlast⟩ := hcontains.wholeSecond
  have hlength := lastSecond_le scope t
  rw [bucket_ttl]
  constructor <;> omega

/-- The day is a Monday. Day 1 is one. -/
def IsMonday (day : Int) : Prop := (day + 6) % 7 = 0

/-- The instants lie in one week, from a Monday to a Sunday. -/
def SameWeek (t u : Instant) : Prop :=
  ∃ monday, IsMonday monday ∧ (Period.week monday).Contains t ∧ (Period.week monday).Contains u

/-- The instants lie in one calendar month. -/
def SameMonth (t u : Instant) : Prop := t.year = u.year ∧ t.month = u.month

theorem sameWeek_iff (t u : Instant) : SameWeek t u ↔ periodOf .weekly t = periodOf .weekly u := by
  rw [periodOf, periodOf, Period.week.injEq]
  constructor
  · intro h
    obtain ⟨monday, hmonday, ⟨ht, ht'⟩, hu, hu'⟩ := h
    unfold IsMonday at hmonday
    rw [mondayOf, mondayOf]
    omega
  · intro h
    refine ⟨mondayOf t.ordinal, ?_, ?_, ?_⟩
    · rw [IsMonday, mondayOf]
      omega
    · exact (contains_periodOf .weekly t t).mpr rfl
    · exact (contains_periodOf .weekly t u).mpr (congrArg Period.week h.symm)

/-- **Buckets partition time.** A language has one weekly label for the instants of a week and one
monthly label for those of a month, and no two share one; a label has one time to live, which ends
30 days after the last second of the week or the month. -/
theorem buckets_partition (lang lang' : PyStr) (t u : Instant) :
    ((weeklyBucket lang t).1 = (weeklyBucket lang u).1 ↔ SameWeek t u) ∧
    ((monthlyBucket lang t).1 = (monthlyBucket lang u).1 ↔ SameMonth t u) ∧
    ((weeklyBucket lang t).1 = (weeklyBucket lang' u).1 →
      (weeklyBucket lang t).2 = (weeklyBucket lang' u).2) ∧
    ((monthlyBucket lang t).1 = (monthlyBucket lang' u).1 →
      (monthlyBucket lang t).2 = (monthlyBucket lang' u).2) ∧
    (weeklyBucket lang t).1 ≠ (monthlyBucket lang' u).1 ∧
    (t.wholeSecond + 30 * 86400 ≤ (weeklyBucket lang t).2 ∧
      (weeklyBucket lang t).2 < t.wholeSecond + 37 * 86400) ∧
    (t.wholeSecond + 30 * 86400 ≤ (monthlyBucket lang t).2 ∧
      (monthlyBucket lang t).2 < t.wholeSecond + 61 * 86400) := by
  have hlabel : ∀ scope, (bucket scope lang t).1 = (bucket scope lang u).1 ↔
      periodOf scope t = periodOf scope u := by
    intro scope
    rw [bucket_eq_iff]
    exact and_iff_right rfl
  have httl : ∀ scope, (bucket scope lang t).1 = (bucket scope lang' u).1 →
      (bucket scope lang t).2 = (bucket scope lang' u).2 := by
    intro scope h
    rw [bucket_ttl, bucket_ttl, ((bucket_eq_iff ..).mp h).2]
  refine ⟨?_, ?_, httl .weekly, httl .monthly, weeklyBucket_ne_monthlyBucket lang lang' t u,
    bucket_ttl_bounds .weekly lang t, bucket_ttl_bounds .monthly lang t⟩
  · exact (hlabel .weekly).trans (sameWeek_iff t u).symm
  · refine (hlabel .monthly).trans ?_
    rw [periodOf, periodOf, Period.month.injEq]
    exact Iff.rfl

end LingoAsync.Leaderboard
