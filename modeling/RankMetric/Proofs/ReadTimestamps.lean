import RankMetric.Proofs.CivilDates

/-!
# Reading timestamps

A timestamp is made for its readers, so this module reads it: the weekday, the day, the month, the
year and the time of day, each where the format has it. The date is counted back to a day by the
lengths of the years and the months, and the weekday is that of the rule with remainders. For every
instant of the years that have four digits this leads back to the instant, so that no two instants
share a text, while one instant has one text at all offsets.

Which text that is depends on the library of dates and times. `TimeLibrary.IsLawful` has what its
documentation says: a conversion to another offset keeps the instant, dates follow the calendar and
weekdays go round, and a format is written part by part. Nothing is said of a conversion that leads
out of the years 0 to 9999, which a library may refuse. What the header makes of it holds for every
such library (`TimeLibrary.timestamp_denotes_instant`), and the one that the program runs with is
such a library (`TimeLibrary.isLawful_civil`).

* `Stamp.ofText?` reads a timestamp, and `Stamp.instant` counts its seconds.
* `Stamp.digits?_append`, `Stamp.name?_append`, `Stamp.mark?_append`: what one part of the format
  leaves to the next.
* `Stamp.ofText?_render`: the round trip.
* `TimeLibrary.IsLawful.instant_stamp`: what a library shows in Greenwich counts up to its instant.
-/

namespace RankMetric

/-! ### What is taken for granted -/

namespace Timestamp

/-- The first second of a year. -/
def yearStart (year : Int) : Int :=
  Date.toDays ⟨year, 1, 1⟩ * 86400

/-- Whether an instant is in one of the years 0 to 9999. -/
def InFourDigits (seconds : Int) : Prop :=
  yearStart 0 ≤ seconds ∧ seconds < yearStart 10000

instance (seconds : Int) : Decidable (InFourDigits seconds) :=
  inferInstanceAs (Decidable (_ ∧ _))

end Timestamp

namespace TimeLibrary

/-- The seconds from the start of 1970 to the date and time of day that a library shows. -/
def localSeconds (lib : TimeLibrary) (t : lib.DateTime) : Int :=
  lib.unixSeconds t + lib.offset t

/-- **What the documentation of a library says.** -/
structure IsLawful (lib : TimeLibrary) : Prop where
  /-- Another offset does not change the instant, as long as the year can be written down. -/
  unixSeconds_toUtc : ∀ t, Timestamp.InFourDigits (lib.unixSeconds t) →
    lib.unixSeconds (lib.toUtc t) = lib.unixSeconds t
  offset_toUtc : ∀ t, Timestamp.InFourDigits (lib.unixSeconds t) → lib.offset (lib.toUtc t) = 0
  /-- Dates follow the Gregorian calendar, also before its introduction. -/
  fallsOn : ∀ t, (lib.stamp t).date.FallsOn (lib.localSeconds t / 86400)
  /-- Weekdays go round, and the first of January 1970 is a Thursday. -/
  weekday_eq : ∀ t, ((lib.stamp t).weekday : Int) = (lib.localSeconds t / 86400 + 4) % 7
  minute_lt : ∀ t, (lib.stamp t).minute < 60
  second_lt : ∀ t, (lib.stamp t).second < 60
  /-- A day has 86400 seconds. -/
  clock_eq : ∀ t, ((lib.stamp t).hour * 3600 + (lib.stamp t).minute * 60 + (lib.stamp t).second :
    Nat) = lib.localSeconds t % 86400
  /-- A format is written part by part, and all its parts are known of a date with a time. -/
  format_eq : ∀ items t, lib.format items t = .ok ((lib.stamp t).render items)

/-- **The library that the program runs with is lawful.** -/
theorem isLawful_civil : civil.IsLawful where
  unixSeconds_toUtc (t : ClockTime) _ := by
    show t.instant + 0 - 0 = t.instant
    omega
  offset_toUtc _ _ := rfl
  fallsOn (t : ClockTime) := by
    show (Date.ofDays (t.reading / 86400)).FallsOn ((t.reading - t.ahead + t.ahead) / 86400)
    rw [Int.sub_add_cancel]
    exact Date.fallsOn_ofDays _
  weekday_eq (t : ClockTime) := by
    show (((t.reading / 86400 + 4) % 7).toNat : Int) =
      ((t.reading - t.ahead + t.ahead) / 86400 + 4) % 7
    omega
  minute_lt _ := Nat.mod_lt _ (by decide)
  second_lt _ := Nat.mod_lt _ (by decide)
  clock_eq (t : ClockTime) := by
    show (((t.reading % 86400).toNat / 3600 * 3600 + (t.reading % 86400).toNat / 60 % 60 * 60 +
      (t.reading % 86400).toNat % 60 : Nat) : Int) = (t.reading - t.ahead + t.ahead) % 86400
    omega
  format_eq _ _ := rfl

end TimeLibrary

namespace Stamp

/-! ### The format -/

/-- Read `n` digits at the front of a text. -/
def digits? (n : Nat) (s : Text) : Option (Nat × Text) :=
  if (s.take n).length = n ∧ (s.take n).all Char.isDigit then
    some (Nat.ofDigitChars 10 (s.take n) 0, s.drop n)
  else none

/-- Read a name of three letters at the front of a text, as its place among the names. -/
def name? (names : List Text) (s : Text) : Option (Nat × Text) :=
  (names.idxOf? (s.take 3)).map (·, s.drop 3)

/-- Read a given text at the front of a text. -/
def mark? (m s : Text) : Option Text :=
  if m <+: s then some (s.drop m.length) else none

/-- Read a date. -/
def date? (s : Text) : Option (Date × Text) := do
  let (day, s) ← digits? 2 s
  let s ← mark? [' '] s
  let (month, s) ← name? monthNames s
  let s ← mark? [' '] s
  let (year, s) ← digits? 4 s
  return (⟨year, month + 1, day⟩, s)

/-- Read a timestamp. -/
def ofText? (s : Text) : Option Stamp := do
  let (weekday, s) ← name? weekdayNames s
  let s ← mark? ", ".toList s
  let (date, s) ← date? s
  let s ← mark? [' '] s
  let (hour, s) ← digits? 2 s
  let s ← mark? [':'] s
  let (minute, s) ← digits? 2 s
  let s ← mark? [':'] s
  let (second, s) ← digits? 2 s
  if s = " GMT".toList then some ⟨weekday, date, hour, minute, second⟩ else none

/-- The seconds from the start of 1970 to a date and time of day. -/
def instant (s : Stamp) : Int :=
  s.date.toDays * 86400 + (s.hour * 3600 + s.minute * 60 + s.second : Nat)

/-- Whether a stamp has a date of the calendar, with its weekday, and a time of day. -/
structure IsValid (s : Stamp) : Prop where
  date : s.date.IsValid
  weekday : s.weekday = s.date.weekday
  hour : s.hour < 24
  minute : s.minute < 60
  second : s.second < 60

/-- The instant tells the date and the time of day. -/
theorem eq_of_instant_eq {s u : Stamp} (hs : s.IsValid) (hu : u.IsValid)
    (h : s.instant = u.instant) : s = u := by
  have hclocks := And.intro hs.hour hu.hour
  have hminutes := And.intro hs.minute hu.minute
  have hseconds := And.intro hs.second hu.second
  rw [instant, instant] at h
  have hdate : s.date = u.date := Date.eq_of_toDays_eq hs.date hu.date (by omega)
  have hweekday : s.weekday = u.weekday := by rw [hs.weekday, hu.weekday, hdate]
  obtain ⟨weekday, date, hour, minute, second⟩ := s
  obtain rfl : weekday = u.weekday := hweekday
  obtain rfl : date = u.date := hdate
  obtain rfl : hour = u.hour := by dsimp only at *; omega
  obtain rfl : minute = u.minute := by dsimp only at *; omega
  obtain rfl : second = u.second := by dsimp only at *; omega
  rfl

/-! ### The parts of the format -/

theorem mark?_append (m s : Text) : mark? m (m ++ s) = some s := by
  rw [mark?, if_pos (List.prefix_append m s), List.drop_left]

theorem mark?_cons (c : Char) (s : Text) : mark? [c] (c :: s) = some s :=
  mark?_append [c] s

/-- A name is read off the front of a text. -/
theorem name?_append {names : List Text} {m : Text} {i : Nat} (hm : m.length = 3)
    (hi : names.idxOf? m = some i) (s : Text) : name? names (m ++ s) = some (i, s) := by
  rw [name?, List.take_left' hm, List.drop_left' hm, hi, Option.map_some]

theorem length_digits {n k : Nat} (hn : 0 < n) (hk : k < 10 ^ n) : (digits n k).length = n := by
  have hlength : (Text.ofNat k).length ≤ n := (Nat.length_toDigits_le_iff (by decide) hn).2 hk
  rw [digits, List.length_leftpad]
  omega

/-- The zeros in front of a number do not count. -/
theorem ofDigitChars_digits (n k : Nat) : Nat.ofDigitChars 10 (digits n k) 0 = k := by
  rw [digits, List.leftpad, Nat.ofDigitChars_append, Nat.ofDigitChars_replicate_zero,
    Nat.mul_zero]
  exact Nat.ofDigitChars_toDigits (by decide) (by decide)

theorem isDigit_of_mem_digits {n k : Nat} {c : Char} (h : c ∈ digits n k) :
    c.isDigit = true := by
  rcases List.mem_append.1 h with h | h
  · rw [List.eq_of_mem_replicate h]
    rfl
  · exact Text.isDigit_of_mem_ofNat h

/-- **A number is read back**, if it has no more than the digits that are written. -/
theorem digits?_append {n k : Nat} (hn : 0 < n) (hk : k < 10 ^ n) (s : Text) :
    digits? n (digits n k ++ s) = some (k, s) := by
  have hlength := length_digits hn hk
  rw [digits?, List.take_left' hlength, List.drop_left' hlength, if_pos, ofDigitChars_digits]
  exact ⟨hlength, List.all_eq_true.2 fun _ hc ↦ isDigit_of_mem_digits hc⟩

/-! ### The names -/

/-- The names of the weekdays are told apart. -/
theorem name?_weekday_append {k : Nat} (hk : k < 7) (s : Text) :
    name? weekdayNames (weekdayNames.getD k [] ++ s) = some (k, s) := by
  have hnames : ∀ k < 7, (weekdayNames.getD k []).length = 3 ∧
      weekdayNames.idxOf? (weekdayNames.getD k []) = some k := by decide
  obtain ⟨hlength, hplace⟩ := hnames k hk
  exact name?_append hlength hplace s

/-- And so are those of the months. -/
theorem name?_month_append {month : Nat} (hpos : 1 ≤ month) (hle : month ≤ 12) (s : Text) :
    name? monthNames (monthNames.getD (month - 1) [] ++ s) = some (month - 1, s) := by
  have hnames : ∀ k < 12, (monthNames.getD k []).length = 3 ∧
      monthNames.idxOf? (monthNames.getD k []) = some k := by decide
  obtain ⟨hlength, hplace⟩ := hnames (month - 1) (by omega)
  exact name?_append hlength hplace s

/-! ### The round trip -/

/-- What is read in front is handed on. -/
theorem bind_of_eq_some {α β : Type} {o : Option α} {f : α → Option β} {a : α} {b : β}
    (h : o = some a) (hf : f a = some b) : (o >>= f) = some b :=
  Option.bind_eq_some_iff.2 ⟨a, h, hf⟩

/-- **A date is read back**, if its year has no more than four digits and no sign. -/
theorem date?_append {d : Date} (hd : d.IsValid) (hfirst : 0 ≤ d.year) (hlast : d.year < 10000)
    (s : Text) :
    date? (digits 2 d.day ++ ' ' :: (monthNames.getD (d.month - 1) [] ++
      ' ' :: (yearText d.year ++ s))) = some (d, s) := by
  have hday : d.day < 10 ^ 2 := by
    have hle := hd.day_le
    have hlength := Date.monthLength_le d.year d.month
    omega
  have hnat : (d.year.natAbs : Int) = d.year := Int.natAbs_of_nonneg hfirst
  have hyear : d.year.natAbs < 10 ^ 4 := by omega
  rw [yearText, if_neg (Int.not_lt.2 hfirst), if_neg (by omega)]
  refine bind_of_eq_some (digits?_append (by decide) hday _) ?_
  refine bind_of_eq_some (mark?_cons ' ' _) ?_
  refine bind_of_eq_some (name?_month_append hd.month_pos hd.month_le _) ?_
  refine bind_of_eq_some (mark?_cons ' ' _) ?_
  refine bind_of_eq_some (digits?_append (by decide) hyear _) ?_
  show some ((⟨d.year.natAbs, d.month - 1 + 1, d.day⟩ : Date), s) = some (d, s)
  rw [hnat, Nat.sub_add_cancel hd.month_pos]

/-- **A timestamp is read back**, if its year has no more than four digits and no sign. -/
theorem ofText?_render {s : Stamp} (hs : s.IsValid) (hfirst : 0 ≤ s.date.year)
    (hlast : s.date.year < 10000) :
    ofText? (s.render headerFormat ++ " GMT".toList) = some s := by
  have hweekday : s.weekday < 7 := by
    rw [hs.weekday, Date.weekday_eq]
    omega
  simp only [render, headerFormat, List.flatMap_cons, List.flatMap_nil, itemText,
    List.append_assoc, List.append_nil]
  refine bind_of_eq_some (name?_weekday_append hweekday _) ?_
  refine bind_of_eq_some (mark?_append _ _) ?_
  refine bind_of_eq_some (date?_append hs.date hfirst hlast _) ?_
  refine bind_of_eq_some (mark?_cons ' ' _) ?_
  refine bind_of_eq_some (digits?_append (by decide) (Nat.lt_trans hs.hour (by decide)) _) ?_
  refine bind_of_eq_some (mark?_cons ':' _) ?_
  refine bind_of_eq_some (digits?_append (by decide) (Nat.lt_trans hs.minute (by decide)) _) ?_
  refine bind_of_eq_some (mark?_cons ':' _) ?_
  refine bind_of_eq_some (digits?_append (by decide) (Nat.lt_trans hs.second (by decide)) _) ?_
  rfl

end Stamp

/-! ### Libraries of dates and times -/

namespace Timestamp

/-- The year of an instant is that of the date that falls on its day. -/
theorem year_lt_iff_lt_yearStart {d : Date} {seconds : Int} (h : d.FallsOn (seconds / 86400))
    (year : Int) : d.year < year ↔ seconds < yearStart year := by
  obtain ⟨hd, hdays⟩ := h.isValid_and_toDays_eq
  rw [Date.year_lt_iff hd, hdays, yearStart]
  omega

end Timestamp

namespace TimeLibrary

variable {lib : TimeLibrary}

namespace IsLawful

/-- In Greenwich the local time is that of the instant. -/
theorem localSeconds_toUtc (h : lib.IsLawful) {t : lib.DateTime}
    (ht : Timestamp.InFourDigits (lib.unixSeconds t)) :
    lib.localSeconds (lib.toUtc t) = lib.unixSeconds t := by
  rw [localSeconds, h.unixSeconds_toUtc t ht, h.offset_toUtc t ht, Int.add_zero]

/-- What a library shows is a date of the calendar, with its weekday, and a time of day. -/
theorem isValid_stamp (h : lib.IsLawful) (t : lib.DateTime) : (lib.stamp t).IsValid := by
  obtain ⟨hdate, hdays⟩ := (h.fallsOn t).isValid_and_toDays_eq
  have hweekday := h.weekday_eq t
  have hclock := h.clock_eq t
  refine ⟨hdate, ?_, by omega, h.minute_lt t, h.second_lt t⟩
  rw [Date.weekday_eq, hdays]
  omega

/-- **What a library shows counts up to its instant**, in Greenwich. -/
theorem instant_stamp (h : lib.IsLawful) {t : lib.DateTime}
    (ht : Timestamp.InFourDigits (lib.unixSeconds t)) :
    (lib.stamp (lib.toUtc t)).instant = lib.unixSeconds t := by
  have hdays := (h.fallsOn (lib.toUtc t)).isValid_and_toDays_eq.2
  have hclock := h.clock_eq (lib.toUtc t)
  rw [h.localSeconds_toUtc ht] at hdays hclock
  rw [Stamp.instant, hdays, hclock]
  omega

/-- A timestamp is what the library shows in Greenwich, part by part. -/
theorem timestamp_eq (h : lib.IsLawful) (t : lib.DateTime) : lib.timestamp t =
    .ok ((lib.stamp (lib.toUtc t)).render headerFormat ++ " GMT".toList) := by
  rw [timestamp, h.format_eq]
  rfl

/-- The timestamp of an instant in a year of four digits is read back. -/
theorem ofText?_timestamp (h : lib.IsLawful) {t : lib.DateTime}
    (ht : Timestamp.InFourDigits (lib.unixSeconds t)) :
    Stamp.ofText? ((lib.stamp (lib.toUtc t)).render headerFormat ++ " GMT".toList) =
      some (lib.stamp (lib.toUtc t)) := by
  have hfalls := h.fallsOn (lib.toUtc t)
  rw [h.localSeconds_toUtc ht] at hfalls
  have hyear := Timestamp.year_lt_iff_lt_yearStart hfalls
  refine Stamp.ofText?_render (h.isValid_stamp _) ?_ ((hyear 10000).2 ht.2)
  exact Int.not_lt.1 fun hlt ↦ Int.not_lt.2 ht.1 ((hyear 0).1 hlt)

end IsLawful

/-- **A timestamp denotes the instant.** Let a library do what its documentation says. Then every
instant has a timestamp. In the years 0 to 9999 two times have one timestamp if and only if they are
one instant, whatever their offsets are, and reading the timestamp gives a date of the calendar with
its weekday, and a time of day, which together are that instant. -/
theorem timestamp_denotes_instant (h : lib.IsLawful) (t u : lib.DateTime)
    (ht : Timestamp.InFourDigits (lib.unixSeconds t))
    (hu : Timestamp.InFourDigits (lib.unixSeconds u)) :
    ∃ text text', lib.timestamp t = .ok text ∧ lib.timestamp u = .ok text' ∧
      (text = text' ↔ lib.unixSeconds t = lib.unixSeconds u) ∧
      ∃ s, Stamp.ofText? text = some s ∧ s.IsValid ∧ s.instant = lib.unixSeconds t := by
  refine ⟨_, _, h.timestamp_eq t, h.timestamp_eq u, ⟨fun htext ↦ ?_, fun hinstant ↦ ?_⟩,
    _, h.ofText?_timestamp ht, h.isValid_stamp _, h.instant_stamp ht⟩
  · -- one text is read in one way
    have hread := h.ofText?_timestamp ht
    rw [htext, h.ofText?_timestamp hu, Option.some.injEq] at hread
    rw [← h.instant_stamp ht, ← hread, h.instant_stamp hu]
  · have hstamp : lib.stamp (lib.toUtc t) = lib.stamp (lib.toUtc u) := by
      refine Stamp.eq_of_instant_eq (h.isValid_stamp _) (h.isValid_stamp _) ?_
      rw [h.instant_stamp ht, h.instant_stamp hu, hinstant]
    rw [hstamp]

/-- Ten hours ahead. -/
def clockAhead : ClockTime where
  reading := 1151590361
  ahead := 36000

/-- Behind, and at the last second of year 9999. -/
def clockBehind : ClockTime where
  reading := 253402297199
  ahead := -3600

example : civil.timestamp clockAhead = .ok "Thu, 29 Jun 2006 04:12:41 GMT".toList := by
  decide +kernel

theorem timestamp_denotes_instant_civil :
    Timestamp.InFourDigits clockAhead.instant ∧ Timestamp.InFourDigits clockBehind.instant ∧
      ∃ text text', civil.timestamp clockAhead = .ok text ∧
        civil.timestamp clockBehind = .ok text' ∧ text ≠ text' ∧
        ∃ s, Stamp.ofText? text = some s ∧ s.IsValid ∧ s.instant = 1151554361 := by
  have hahead : Timestamp.InFourDigits clockAhead.instant := by decide +kernel
  have hbehind : Timestamp.InFourDigits clockBehind.instant := by decide +kernel
  obtain ⟨text, text', htext, htext', hiff, hread⟩ :=
    timestamp_denotes_instant isLawful_civil clockAhead clockBehind hahead hbehind
  exact ⟨hahead, hbehind, text, text', htext, htext', mt hiff.1 (by decide), hread⟩

end TimeLibrary

end RankMetric
