import LingoAsync.Calendar

/-!
# Weeks and months as stretches of days

A week is seven days from a Monday (`mondayOf`), a month as many as
`daysInMonth` says from its first. `isocalendar` names weeks by ISO year and week,
and the year it names is not always the year of the day. Here is that its names
are good ones: `fromisocalendar` leads back from the name to the Monday
(`Instant.mondayOfIsoWeek_iso`), and two instants have the same name exactly
when they lie in the same week (`Instant.iso_eq_iff`).

All of it rests on where a year's first ISO Monday can be (`isoWeek1Monday_spec`):
within three days of 1 January.
-/

namespace LingoAsync.Calendar

/-! ## Years and months -/

/-- Days of a year. -/
def daysInYear (y : Int) : Int := if isLeap y then 366 else 365

theorem daysBeforeYear_succ (y : Int) :
    daysBeforeYear (y + 1) = daysBeforeYear y + daysInYear y := by
  unfold daysBeforeYear daysInYear isLeap
  simp only [Bool.and_eq_true, Bool.or_eq_true, decide_eq_true_eq, bne_iff_ne, ne_eq]
  split <;> omega

/-- The month after starts when the month is over. -/
theorem daysBeforeMonth_succ (y : Int) {m : Nat} (h : 1 ≤ m) :
    daysBeforeMonth y (m + 1) = daysBeforeMonth y m + daysInMonth y m := by
  obtain ⟨k, rfl⟩ := Nat.exists_eq_add_of_le' h
  simp [daysBeforeMonth, List.range_succ]

theorem daysBeforeMonth_one (y : Int) : daysBeforeMonth y 1 = 0 := rfl

/-- Twelve months make a year. -/
theorem daysBeforeMonth_thirteen (y : Int) : (daysBeforeMonth y 13 : Int) = daysInYear y := by
  unfold daysInYear
  cases h : isLeap y <;> simp [daysBeforeMonth, daysInMonth, List.range_succ, h]

theorem daysBeforeMonth_le (y : Int) {m n : Nat} (h : m ≤ n) :
    daysBeforeMonth y m ≤ daysBeforeMonth y n := by
  induction h with
  | refl => exact Nat.le_refl _
  | step _ ih =>
    rename_i n _
    refine ih.trans ?_
    rcases Nat.eq_zero_or_pos n with rfl | hn
    · exact Nat.le_refl _
    · rw [daysBeforeMonth_succ y hn]
      omega

theorem ymd2ord_first (y : Int) : ymd2ord y 1 1 = daysBeforeYear y + 1 := by
  rw [ymd2ord, daysBeforeMonth_one]
  push_cast
  omega

/-- A day lies in its year. -/
theorem Instant.ordinal_range (t : Instant) :
    daysBeforeYear t.year + 1 ≤ t.ordinal ∧ t.ordinal ≤ daysBeforeYear (t.year + 1) := by
  have hmonth := daysBeforeMonth_succ t.year t.month_range.1
  have hyear := daysBeforeMonth_le t.year (show t.month + 1 ≤ 13 by have := t.month_range; omega)
  have htotal := daysBeforeMonth_thirteen t.year
  have hday := t.day_range
  have hnext := daysBeforeYear_succ t.year
  rw [Instant.ordinal, ymd2ord]
  omega

/-! ## Weeks -/

/-- The Monday of a day's week. Day 1 is a Monday. -/
def mondayOf (day : Int) : Int := day - (day + 6) % 7

/-- The first ISO Monday of a year is a Monday within three days of 1 January. -/
theorem isoWeek1Monday_spec (y : Int) : (isoWeek1Monday y + 6) % 7 = 0 ∧
    daysBeforeYear y - 2 ≤ isoWeek1Monday y ∧ isoWeek1Monday y ≤ daysBeforeYear y + 4 := by
  simp only [isoWeek1Monday, ymd2ord_first]
  split <;> omega

theorem isoWeek1Monday_one : isoWeek1Monday 1 = 1 := by decide

/-- What `isocalendar` says of a day `d` of the year `y`: an ISO year next to `y` and
a week of it, and the week's Monday is the day's. -/
theorem isocalendar_spec {y d : Int} (hd : daysBeforeYear y + 1 ≤ d ∧ d ≤ daysBeforeYear (y + 1)) :
    let iso := isocalendar y d
    mondayOfIsoWeek iso.1 iso.2 = mondayOf d ∧ 1 ≤ iso.2 ∧
      mondayOf d < isoWeek1Monday (iso.1 + 1) ∧ iso.1 ≤ y + 1 := by
  have hlast := isoWeek1Monday_spec (y - 1)
  have hthis := isoWeek1Monday_spec y
  have hnext := isoWeek1Monday_spec (y + 1)
  have hafter := isoWeek1Monday_spec (y + 1 + 1)
  have hlen : daysInYear y = 365 ∨ daysInYear y = 366 := by
    unfold daysInYear
    split <;> omega
  have hlen' : daysInYear (y - 1) = 365 ∨ daysInYear (y - 1) = 366 := by
    unfold daysInYear
    split <;> omega
  have hlen'' : daysInYear (y + 1) = 365 ∨ daysInYear (y + 1) = 366 := by
    unfold daysInYear
    split <;> omega
  have hyear := daysBeforeYear_succ y
  have hyear' := daysBeforeYear_succ (y - 1)
  have hyear'' := daysBeforeYear_succ (y + 1)
  rw [sub_add_cancel] at hyear'
  simp only [isocalendar, mondayOfIsoWeek, mondayOf]
  split
  · -- the first days of January may belong to the last week of the year before
    simp only [sub_add_cancel]
    omega
  · split
    · -- and the last of December to the first week of the next
      dsimp only
      omega
    · dsimp only
      omega

/-- ISO years follow one another. -/
theorem isoWeek1Monday_succ (y : Int) : isoWeek1Monday y + 364 ≤ isoWeek1Monday (y + 1) ∧
    isoWeek1Monday (y + 1) ≤ isoWeek1Monday y + 371 := by
  have hthis := isoWeek1Monday_spec y
  have hnext := isoWeek1Monday_spec (y + 1)
  have hlen : daysInYear y = 365 ∨ daysInYear y = 366 := by
    unfold daysInYear
    split <;> omega
  have hyear := daysBeforeYear_succ y
  omega

theorem isoWeek1Monday_mono {y z : Int} (h : y ≤ z) : isoWeek1Monday y ≤ isoWeek1Monday z := by
  induction z, h using Int.leInduction with
  | base => exact le_refl _
  | succ z _ ih =>
    have := isoWeek1Monday_succ z
    omega

/-- A Monday has one name. -/
theorem isoName_unique {y z v w : Int} (hy : 1 ≤ v ∧ mondayOfIsoWeek y v < isoWeek1Monday (y + 1))
    (hz : 1 ≤ w ∧ mondayOfIsoWeek z w < isoWeek1Monday (z + 1))
    (h : mondayOfIsoWeek y v = mondayOfIsoWeek z w) : y = z ∧ v = w := by
  unfold mondayOfIsoWeek at hy hz h
  have hyz : y = z := by
    rcases lt_trichotomy y z with hlt | heq | hgt
    · have := isoWeek1Monday_mono (show y + 1 ≤ z by omega)
      omega
    · exact heq
    · have := isoWeek1Monday_mono (show z + 1 ≤ y by omega)
      omega
  subst hyz
  exact ⟨rfl, by omega⟩

namespace Instant

/-- The ISO year and week of an instant. -/
def iso (t : Instant) : Int × Int := isocalendar t.year t.ordinal

/-- `fromisocalendar` undoes `isocalendar`, up to the day of the week. -/
theorem mondayOfIsoWeek_iso (t : Instant) : mondayOfIsoWeek t.iso.1 t.iso.2 = mondayOf t.ordinal :=
  (isocalendar_spec t.ordinal_range).1

/-- **Two instants have one ISO week exactly when they lie in one week.** -/
theorem iso_eq_iff (t u : Instant) : t.iso = u.iso ↔ mondayOf t.ordinal = mondayOf u.ordinal := by
  obtain ⟨ht, htweek, htyear, _⟩ := isocalendar_spec t.ordinal_range
  obtain ⟨hu, huweek, huyear, _⟩ := isocalendar_spec u.ordinal_range
  constructor
  · intro h
    rw [← t.mondayOfIsoWeek_iso, ← u.mondayOfIsoWeek_iso, h]
  · intro h
    obtain ⟨hy, hw⟩ := isoName_unique ⟨htweek, ht.trans_lt htyear⟩ ⟨huweek, hu.trans_lt huyear⟩
      (ht.trans (h.trans hu.symm))
    exact Prod.ext hy hw

/-- The name of a week fits its four and two digits. -/
theorem iso_range (t : Instant) : (1 ≤ t.iso.1 ∧ t.iso.1 ≤ 9999) ∧ 1 ≤ t.iso.2 ∧ t.iso.2 ≤ 53 := by
  obtain ⟨hmonday, hweek, hyear, hnext⟩ := isocalendar_spec t.ordinal_range
  have hrange := t.year_range
  have hsucc := isoWeek1Monday_succ t.iso.1
  unfold mondayOfIsoWeek at hmonday
  refine ⟨⟨?_, by show t.iso.1 ≤ 9999; unfold iso; omega⟩, hweek, by unfold iso at hsucc ⊢; omega⟩
  -- 1 January of year 1 starts the first week of all
  by_contra hlt
  have hle := isoWeek1Monday_mono (show t.iso.1 + 1 ≤ 1 by omega)
  have hfirst := t.ordinal_range.1
  have hstart : 0 ≤ daysBeforeYear t.year := by
    simp only [daysBeforeYear]
    omega
  rw [isoWeek1Monday_one] at hle
  have hpos : 1 ≤ mondayOf t.ordinal := by
    unfold mondayOf
    omega
  unfold iso at hle
  omega

end Instant

end LingoAsync.Calendar
