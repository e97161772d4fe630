import Mathlib.Tactic.IntervalCases
import RankMetric.Timestamp

/-!
# Days and dates

The calendar is a matter of one day after another: `Date.FallsOn` says on which day a date falls,
beginning with the first of January 1970 and going on by `Date.next`, or back. `Date.toDays` counts
the days before a date by the lengths of the years and the months, and `Date.ofDays` finds the date
of a day by division, in years that begin in March. This module shows that the three agree, for
every day before and after 1970.

* `Date.toDays_next`, `Date.FallsOn.isValid_and_toDays_eq`: the count goes up by one with every
  day, so it tells the day on which a date falls.
* `Date.ofMarch` is a date as a number of days after the first of March. From March on the lengths
  of the months are those of a linear rule (`Date.monthLength_march`), and the leap day comes last.
* `Date.exists_parts`: the division, with the bounds of each part.
* `Date.toDays_ofDays`, `Date.isValid_ofDays`, `Date.fallsOn_ofDays`: the date that is found is a
  date of the calendar and falls on the day.
* `Date.weekday` is the weekday of a date by a rule with remainders of the year alone;
  `Date.weekday_eq` compares it with the count of days.
-/

namespace RankMetric.Date

variable {d : Date} {year : Int} {m r : Nat}

/-! ### Dates of the calendar -/

/-- Whether a date is one of the calendar. -/
structure IsValid (d : Date) : Prop where
  month_pos : 1 ≤ d.month
  month_le : d.month ≤ 12
  day_pos : 1 ≤ d.day
  day_le : d.day ≤ monthLength d.year d.month

theorem monthLength_le (year : Int) (month : Nat) : monthLength year month ≤ 31 := by
  unfold monthLength
  split
  · split <;> decide
  all_goals decide

/-- The days of a year beyond 365. -/
def leapDays (year : Int) : Nat :=
  if isLeap year then 1 else 0

theorem isLeap_iff : isLeap year = true ↔ year % 4 = 0 ∧ (year % 100 ≠ 0 ∨ year % 400 = 0) := by
  simp [isLeap]

theorem daysBeforeYear_succ (year : Int) :
    daysBeforeYear (year + 1) = daysBeforeYear year + 365 + leapDays year := by
  rw [daysBeforeYear, daysBeforeYear, leapDays]
  split
  · next h =>
    rw [isLeap_iff] at h
    omega
  · next h =>
    rw [isLeap_iff] at h
    omega

/-! ### One day after another -/

/-- The date of the next day. -/
def next (d : Date) : Date :=
  if d.day < monthLength d.year d.month then { d with day := d.day + 1 }
  else if d.month < 12 then ⟨d.year, d.month + 1, 1⟩
  else ⟨d.year + 1, 1, 1⟩

/-- **The calendar**: the date falls on the day with the given number, counted from the first of
January 1970. -/
inductive FallsOn : Date → Int → Prop
  | epoch : FallsOn ⟨1970, 1, 1⟩ 0
  | next {d : Date} {n : Int} (h : FallsOn d n) : FallsOn d.next (n + 1)
  | previous {d : Date} {n : Int} (hd : d.IsValid) (h : FallsOn d.next (n + 1)) : FallsOn d n

/-! ### Years that begin in March -/

/-- The days from the first of January of year 0 to the first of March of a year. -/
def marchDays (year : Int) : Int :=
  365 * year + year / 4 - year / 100 + year / 400 + 60

theorem marchDays_eq (year : Int) : marchDays year = daysBeforeYear year + 59 + leapDays year := by
  have hnext := daysBeforeYear_succ year
  rw [daysBeforeYear] at hnext
  rw [marchDays]
  omega

/-- The months from March on have the lengths that a linear rule gives. -/
theorem monthLength_march (year : Int) (hm : m < 10) :
    (153 * m + 2) / 5 + monthLength year (m + 3) = (153 * (m + 1) + 2) / 5 := by
  interval_cases m <;> rfl

theorem daysBeforeMonth_succ (year : Int) (hm : 1 ≤ m) :
    daysBeforeMonth year (m + 1) = daysBeforeMonth year m + monthLength year m := by
  obtain ⟨k, rfl⟩ := Nat.exists_eq_add_of_le' hm
  rfl

theorem daysBeforeMonth_march (hm : m < 10) :
    daysBeforeMonth year (m + 3) = 59 + leapDays year + (153 * m + 2) / 5 := by
  induction m with
  | zero =>
    rw [leapDays]
    show 0 + 31 + (if isLeap year then 29 else 28) = _
    split <;> rfl
  | succ m ih =>
    have hlength := monthLength_march year (m := m) (by omega)
    have hsum := ih (by omega)
    show daysBeforeMonth year (m + 3) + monthLength year (m + 3) = _
    omega

/-- The date that is `r` days after the first of March of a year. -/
def ofMarch (year : Int) (r : Nat) : Date :=
  let month := (5 * r + 2) / 153
  let day := r - (153 * month + 2) / 5 + 1
  if month < 10 then ⟨year, month + 3, day⟩ else ⟨year + 1, month - 9, day⟩

theorem toDays_ofMarch (hr : r ≤ 365) :
    (ofMarch year r).toDays = marchDays year + r - daysBeforeYear 1970 := by
  obtain ⟨m, hm⟩ : ∃ m, (5 * r + 2) / 153 = m := ⟨_, rfl⟩
  have hmarch := marchDays_eq year
  have hnext := daysBeforeYear_succ year
  rw [ofMarch, hm, toDays]
  split
  · next hlt =>
    rw [daysBeforeMonth_march hlt]
    dsimp only
    omega
  · next hge =>
    have hlast : m = 10 ∨ m = 11 := by omega
    dsimp only
    rcases hlast with rfl | rfl
    · rw [show daysBeforeMonth (year + 1) (10 - 9) = 0 from rfl]
      omega
    · rw [show daysBeforeMonth (year + 1) (11 - 9) = 31 from rfl]
      omega

theorem isValid_ofMarch (hr : r ≤ 365) (hleap : r = 365 → isLeap (year + 1) = true) :
    (ofMarch year r).IsValid := by
  obtain ⟨m, hm⟩ : ∃ m, (5 * r + 2) / 153 = m := ⟨_, rfl⟩
  rw [ofMarch, hm]
  split
  · next hlt =>
    have hlength := monthLength_march year hlt
    have hday : r - (153 * m + 2) / 5 + 1 ≤ monthLength year (m + 3) := by omega
    exact ⟨Nat.le_add_left 1 _, Nat.add_le_add_right (Nat.le_of_lt_succ hlt) 3,
      Nat.le_add_left 1 _, hday⟩
  · next hge =>
    have hlast : m = 10 ∨ m = 11 := by omega
    rcases hlast with rfl | rfl
    · have hday : r - (153 * 10 + 2) / 5 + 1 ≤ 31 := by omega
      exact ⟨(by decide : 1 ≤ 10 - 9), (by decide : 10 - 9 ≤ 12), Nat.le_add_left 1 _, hday⟩
    · have hday : r - (153 * 11 + 2) / 5 + 1 ≤ if isLeap (year + 1) then 29 else 28 := by
        split
        · omega
        · next hnot =>
          have hr' : r ≠ 365 := mt hleap hnot
          omega
      exact ⟨(by decide : 1 ≤ 11 - 9), (by decide : 11 - 9 ≤ 12), Nat.le_add_left 1 _, hday⟩

/-! ### The date of a day -/

/-- **The division of a day**: into spans of 400, 100, 4 and 1 years and a number of days after the
first of March. The last day of a span comes from the rule that its last year is the longer one. -/
theorem exists_parts (n : Int) : ∃ (era : Int) (c l y r : Nat),
    n + marchOffset = 146097 * era + (36524 * c + 1461 * l + 365 * y + r : Nat) ∧
      ofDays n = ofMarch (400 * era + (100 * c + 4 * l + y : Nat)) r ∧
      c ≤ 3 ∧ l ≤ 24 ∧ y ≤ 3 ∧ r ≤ 365 ∧ (r = 365 → y = 3 ∧ (l = 24 → c = 3)) := by
  obtain ⟨d, hd⟩ : ∃ d, ((n + marchOffset) % 146097).toNat = d := ⟨_, rfl⟩
  obtain ⟨c, hc⟩ : ∃ c, min (d / 36524) 3 = c := ⟨_, rfl⟩
  obtain ⟨l, hl⟩ : ∃ l, (d - 36524 * c) / 1461 = l := ⟨_, rfl⟩
  obtain ⟨y, hy⟩ : ∃ y, min ((d - 36524 * c) % 1461 / 365) 3 = y := ⟨_, rfl⟩
  refine ⟨(n + marchOffset) / 146097, c, l, y, (d - 36524 * c) % 1461 - 365 * y, ?_, ?_, ?_⟩
  · omega
  · subst hy hl hc hd
    rfl
  · omega

/-- **The count of days leads back to the day.** -/
theorem toDays_ofDays (n : Int) : (ofDays n).toDays = n := by
  obtain ⟨era, c, l, y, r, hn, hdate, hc, hl, hy, hr, -⟩ := exists_parts n
  have hmarch : marchDays (400 * era + (100 * c + 4 * l + y : Nat)) =
      146097 * era + (36524 * c + 1461 * l + 365 * y : Nat) + 60 := by
    rw [marchDays]
    omega
  have hoffset : daysBeforeYear 1970 = marchOffset + 60 := rfl
  rw [hdate, toDays_ofMarch hr, hmarch, hoffset]
  omega

theorem isValid_ofDays (n : Int) : (ofDays n).IsValid := by
  obtain ⟨era, c, l, y, r, -, hdate, hc, hl, hy, hr, hlast⟩ := exists_parts n
  rw [hdate]
  refine isValid_ofMarch hr fun h ↦ isLeap_iff.2 ?_
  obtain ⟨rfl, hcentury⟩ := hlast h
  omega

/-! ### Years -/

theorem daysBeforeYear_le {y z : Int} (h : y ≤ z) : daysBeforeYear y ≤ daysBeforeYear z := by
  rw [daysBeforeYear, daysBeforeYear]
  omega

theorem daysBeforeMonth_le (year : Int) {k : Nat} (hm : 1 ≤ m) (h : m ≤ k) :
    daysBeforeMonth year m ≤ daysBeforeMonth year k := by
  induction h with
  | refl => exact Nat.le_refl _
  | step hle ih =>
    rw [daysBeforeMonth_succ year (Nat.le_trans hm hle)]
    exact Nat.le_add_right_of_le ih

/-- The months fill the year. -/
theorem daysBeforeMonth_thirteen (year : Int) : daysBeforeMonth year 13 = 365 + leapDays year := by
  have hlast : daysBeforeMonth year 13 = daysBeforeMonth year 12 + 31 := rfl
  have hmarch : daysBeforeMonth year 12 = 59 + leapDays year + (153 * 9 + 2) / 5 :=
    daysBeforeMonth_march (by decide)
  omega

/-- The days of a year end with its last day. -/
theorem daysBeforeMonth_add_day_le (hd : d.IsValid) :
    daysBeforeMonth d.year d.month + d.day ≤ 365 + leapDays d.year := by
  have hmonth := daysBeforeMonth_succ d.year hd.month_pos
  have hend : daysBeforeMonth d.year (d.month + 1) ≤ daysBeforeMonth d.year 13 :=
    daysBeforeMonth_le d.year (Nat.le_add_left 1 d.month) (Nat.add_le_add_right hd.month_le 1)
  have hlast := daysBeforeMonth_thirteen d.year
  have hday := hd.day_le
  omega

/-- A date is before a year if and only if its day is before the first day of the year. -/
theorem year_lt_iff (hd : d.IsValid) (year : Int) :
    d.year < year ↔ d.toDays < toDays ⟨year, 1, 1⟩ := by
  have hend := daysBeforeMonth_add_day_le hd
  have hnext := daysBeforeYear_succ d.year
  have hpos := hd.day_pos
  rw [toDays, toDays]
  rcases Int.lt_or_le d.year year with h | h
  · have hle := daysBeforeYear_le (Int.add_one_le_of_lt h)
    simp only [daysBeforeMonth]
    omega
  · have hle := daysBeforeYear_le h
    simp only [daysBeforeMonth]
    omega

/-! ### The calendar -/

theorem isValid_next (hd : d.IsValid) : d.next.IsValid := by
  have hfirst : ∀ year month, 1 ≤ monthLength year month := by
    intro year month
    unfold monthLength
    split
    · split <;> decide
    all_goals decide
  unfold next
  split
  · next hday => exact ⟨hd.month_pos, hd.month_le, Nat.le_add_left 1 _, hday⟩
  · split
    · next hmonth => exact ⟨Nat.le_add_left 1 _, hmonth, Nat.le_refl 1, hfirst _ _⟩
    · exact ⟨Nat.le_refl 1, Nat.le_add_left 1 11, Nat.le_refl 1, hfirst _ _⟩

/-- **The count goes up by one with every day.** -/
theorem toDays_next (hd : d.IsValid) : d.next.toDays = d.toDays + 1 := by
  have hday := hd.day_le
  unfold next
  split
  · rw [toDays, toDays]
    dsimp only
    omega
  · split
    · -- the last day of a month
      have hmonth := daysBeforeMonth_succ d.year hd.month_pos
      rw [toDays, toDays]
      dsimp only
      omega
    · -- the last day of a year
      obtain ⟨year, month, day⟩ := d
      obtain rfl : month = 12 := Nat.le_antisymm hd.month_le (by dsimp only at *; omega)
      have hyear := daysBeforeYear_succ year
      have hmonths := daysBeforeMonth_thirteen year
      have hmonth : daysBeforeMonth year 13 = daysBeforeMonth year 12 + monthLength year 12 := rfl
      have hstart : daysBeforeMonth (year + 1) 1 = 0 := rfl
      rw [toDays, toDays]
      dsimp only at *
      omega

/-- A date that falls on a day is a date of the calendar, and the count tells the day. -/
theorem FallsOn.isValid_and_toDays_eq {n : Int} (h : d.FallsOn n) : d.IsValid ∧ d.toDays = n := by
  induction h with
  | epoch => exact ⟨⟨by decide, by decide, by decide, by decide⟩, rfl⟩
  | next h ih =>
    obtain ⟨hd, rfl⟩ := ih
    exact ⟨isValid_next hd, toDays_next hd⟩
  | previous hd h ih =>
    have hnext := toDays_next hd
    exact ⟨hd, by omega⟩

theorem toDays_lt_of_month_lt {e : Date} (hd : d.IsValid) (he : e.IsValid)
    (hyear : d.year = e.year) (h : d.month < e.month) : d.toDays < e.toDays := by
  have hmonth := daysBeforeMonth_succ d.year hd.month_pos
  have hle := daysBeforeMonth_le d.year (Nat.le_add_left 1 d.month) h
  have hday := hd.day_le
  have hpos := he.day_pos
  rw [toDays, toDays, ← hyear]
  omega

/-- The count of days tells the date. -/
theorem eq_of_toDays_eq {e : Date} (hd : d.IsValid) (he : e.IsValid) (h : d.toDays = e.toDays) :
    d = e := by
  have hyear : d.year = e.year := by
    have hd' := year_lt_iff hd e.year
    have he' := year_lt_iff he d.year
    have hdfirst := year_lt_iff hd d.year
    have hefirst := year_lt_iff he e.year
    omega
  have hmonth : d.month = e.month := by
    have hlt := toDays_lt_of_month_lt hd he hyear
    have hgt := toDays_lt_of_month_lt he hd hyear.symm
    omega
  have hday : d.day = e.day := by
    rw [toDays, toDays, hyear, hmonth] at h
    omega
  obtain ⟨year, month, day⟩ := d
  obtain rfl : year = e.year := hyear
  obtain rfl : month = e.month := hmonth
  obtain rfl : day = e.day := hday
  rfl

theorem ofDays_succ (n : Int) : ofDays (n + 1) = (ofDays n).next := by
  have hn := isValid_ofDays n
  refine eq_of_toDays_eq (isValid_ofDays _) (isValid_next hn) ?_
  rw [toDays_next hn, toDays_ofDays, toDays_ofDays]

/-- **The date that is found falls on the day.** -/
theorem fallsOn_ofDays (n : Int) : (ofDays n).FallsOn n := by
  induction n with
  | zero => exact .epoch
  | succ n ih =>
    rw [ofDays_succ]
    exact ih.next
  | pred n ih =>
    refine .previous (isValid_ofDays _) ?_
    rw [← ofDays_succ, Int.sub_add_cancel]
    exact ih

/-! ### Weekdays -/

/-- The weekday of a date, with 0 for a Sunday: that of the first of January from the remainders of
the year before, and then one more for each day. -/
def weekday (d : Date) : Nat :=
  let y := d.year - 1
  let first := 1 + 5 * (y % 4) + 4 * (y % 100) + 6 * (y % 400)
  ((first + daysBeforeMonth d.year d.month + d.day - 1) % 7).toNat

/-- **The weekdays go round by the count of days**, with a Thursday at its start. -/
theorem weekday_eq (d : Date) : d.weekday = ((d.toDays + 4) % 7).toNat := by
  have hoffset : daysBeforeYear 1970 = 719528 := rfl
  rw [weekday, toDays, hoffset, daysBeforeYear]
  congr 1
  omega

end RankMetric.Date
