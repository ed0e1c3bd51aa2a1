import LamTo.Library.Json
import Mathlib.Algebra.GroupWithZero.Nat
import Mathlib.Data.List.Induction

/-!
# Dates of the Gregorian calendar

A `Date` is a year from 1 to 9999 with a month and a day that exist. Day numbers count from
the first day of year 1; week dates and moments of time are read through them. A moment is a
number of microseconds since the first day of 1970, in UTC.
-/

set_option autoImplicit false

namespace LamTo.Library

def isLeapYear (y : ℕ) : Bool := y % 4 = 0 && (y % 100 ≠ 0 || y % 400 = 0)

def daysInMonth (y m : ℕ) : ℕ :=
  if m = 2 then (if isLeapYear y then 29 else 28)
  else if m = 4 ∨ m = 6 ∨ m = 9 ∨ m = 11 then 30 else 31

theorem daysInMonth_le (year month : ℕ) : daysInMonth year month ≤ 31 := by
  unfold daysInMonth
  split
  · split <;> omega
  · split <;> omega

structure Date where
  year : ℕ
  month : ℕ
  day : ℕ
  exists_in_calendar : (1 ≤ year ∧ year ≤ 9999) ∧ (1 ≤ month ∧ month ≤ 12) ∧
    (1 ≤ day ∧ day ≤ daysInMonth year month)
deriving DecidableEq

namespace Date

/-- The date with these numbers, when there is one. -/
def of? (year month day : ℕ) : Option Date :=
  if h : (1 ≤ year ∧ year ≤ 9999) ∧ (1 ≤ month ∧ month ≤ 12) ∧
      (1 ≤ day ∧ day ≤ daysInMonth year month) then some ⟨year, month, day, h⟩
  else none

/-- The order of dates. -/
def before (a b : Date) : Bool :=
  a.year < b.year || (a.year = b.year && (a.month < b.month ||
    (a.month = b.month && a.day < b.day)))

/-! ## Day numbers -/

def daysBeforeYear (y : ℕ) : ℕ := (y - 1) * 365 + (y - 1) / 4 - (y - 1) / 100 + (y - 1) / 400

def daysBeforeMonth (y m : ℕ) : ℕ := ((List.range' 1 (m - 1)).map (daysInMonth y)).sum

/-- The month and day of the day `n` (from 0) of a year, walking through the months. -/
def monthAndDay (y n : ℕ) : List ℕ → Option (ℕ × ℕ)
  | [] => none
  | m :: ms => if n < daysInMonth y m then some (m, n + 1) else monthAndDay y (n - daysInMonth y m) ms

/-- The date with a day number; the first day of year 1 has number 1. -/
def ofOrdinal (ordinal : ℕ) : Option Date :=
  let n := ordinal - 1
  let n100 := min (n % 146097 / 36524) 3
  let r100 := n % 146097 - n100 * 36524
  let n1 := min (r100 % 1461 / 365) 3
  let year := n / 146097 * 400 + n100 * 100 + r100 / 1461 * 4 + n1 + 1
  if ordinal = 0 then none
  else do
    let (month, day) ← monthAndDay year (r100 % 1461 - n1 * 365) (List.range' 1 12)
    of? year month day

/-- The date of a day of a week, counted as ISO 8601 counts the weeks of a year. -/
def ofIsoWeek (year week day : ℕ) : Option Date :=
  let first := daysBeforeYear year + 1
  let weekday := (first + 6) % 7
  let monday := first - weekday + if 3 < weekday then 7 else 0
  let long := weekday = 3 ∨ (weekday = 2 ∧ isLeapYear year = true)
  if (1 ≤ year ∧ year ≤ 9999) ∧ (1 ≤ week ∧ (week ≤ 52 ∨ week = 53 ∧ long)) ∧ (1 ≤ day ∧ day ≤ 7)
  then ofOrdinal (monday + (week - 1) * 7 + (day - 1))
  else none

/-! ## Texts -/

/-- The decimal digits of a number, filled up with zeros to a width. -/
def zeroFilled (width n : ℕ) : Text :=
  List.replicate (width - (Nat.toDigits 10 n).length) '0' ++ Nat.toDigits 10 n

/-- The number a text of ASCII digits stands for. -/
def digitsValue (t : Text) : Option ℕ :=
  t.foldlM (fun n c => if c.isDigit then some (10 * n + (c.toNat - '0'.toNat)) else none) 0

/-- `date.isoformat()` -/
def isoformat (d : Date) : Text :=
  zeroFilled 4 d.year ++ '-' :: zeroFilled 2 d.month ++ '-' :: zeroFilled 2 d.day

/-- `date.strftime('%d/%m/%Y')` -/
def dayMonthYear (d : Date) : Text :=
  zeroFilled 2 d.day ++ '/' :: zeroFilled 2 d.month ++ '/' :: zeroFilled 4 d.year

def readCalendarDate (y m d : Text) : Option Date := do
  of? (← digitsValue y) (← digitsValue m) (← digitsValue d)

def readWeekDate (y w d : Text) : Option Date := do
  ofIsoWeek (← digitsValue y) (← digitsValue w) (← digitsValue d)

/-- `date.fromisoformat`: calendar dates and week dates, with dashes or without. -/
def fromIsoFormat : Text → Option Date
  | [a, b, c, d, '-', 'W', w₁, w₂, '-', e] => readWeekDate [a, b, c, d] [w₁, w₂] [e]
  | [a, b, c, d, '-', 'W', w₁, w₂] => readWeekDate [a, b, c, d] [w₁, w₂] ['1']
  | [a, b, c, d, 'W', w₁, w₂, e] => readWeekDate [a, b, c, d] [w₁, w₂] [e]
  | [a, b, c, d, 'W', w₁, w₂] => readWeekDate [a, b, c, d] [w₁, w₂] ['1']
  | [a, b, c, d, '-', m₁, m₂, '-', d₁, d₂] => readCalendarDate [a, b, c, d] [m₁, m₂] [d₁, d₂]
  | [a, b, c, d, m₁, m₂, d₁, d₂] => readCalendarDate [a, b, c, d] [m₁, m₂] [d₁, d₂]
  | _ => none

/-! ## Digits -/

theorem isDigit_digitChar (d : ℕ) (h : d < 10) : (Nat.digitChar d).isDigit = true := by
  have hall : ∀ d < 10, (Nat.digitChar d).isDigit = true := by decide
  exact hall d h

/-- The ten digits. -/
theorem exists_digit_of_isDigit (c : Char) (h : c.isDigit = true) :
    ∃ d, d < 10 ∧ c = Nat.digitChar d := by
  simp only [Char.isDigit, Bool.and_eq_true, decide_eq_true_eq, UInt32.le_iff_toNat_le] at h
  have hrange : 48 ≤ c.toNat ∧ c.toNat ≤ 57 := h
  refine ⟨c.toNat - 48, by omega, Char.toNat_inj.mp ?_⟩
  rw [Nat.toNat_digitChar_of_lt_ten (by omega)]
  omega

theorem zeroFilled_one (d : ℕ) (hd : d < 10) : zeroFilled 1 d = [Nat.digitChar d] := by
  unfold zeroFilled
  rw [Nat.toDigits_of_lt_base hd]
  rfl

theorem isDigit_of_mem_zeroFilled (width n : ℕ) (c : Char) (h : c ∈ zeroFilled width n) :
    c.isDigit = true := by
  rcases List.mem_append.mp h with hzero | hdigits
  · rw [List.eq_of_mem_replicate hzero]
    rfl
  · exact Nat.isDigit_of_mem_toDigits (by decide) (by decide) hdigits

/-- A further digit. -/
theorem zeroFilled_concat (width n d : ℕ) (hwidth : 0 < width) (hd : d < 10) :
    zeroFilled (width + 1) (10 * n + d) = zeroFilled width n ++ [Nat.digitChar d] := by
  unfold zeroFilled
  by_cases hn : n = 0
  · rw [hn, Nat.mul_zero, Nat.zero_add, Nat.toDigits_of_lt_base hd, Nat.toDigits_zero]
    obtain ⟨k, rfl⟩ := Nat.exists_eq_succ_of_ne_zero hwidth.ne'
    simp [List.replicate_succ']
  · have hdigits := Nat.toDigits_append_toDigits (b := 10) (by decide) (Nat.pos_of_ne_zero hn) hd
    rw [Nat.toDigits_of_lt_base hd] at hdigits
    rw [← hdigits, List.length_append, List.length_singleton, Nat.add_sub_add_right,
      List.append_assoc]

/-- The text of a number given by its digits. -/
theorem zeroFilled_digits (d : ℕ) (ds : List ℕ) (hd : d < 10) (hds : ∀ e ∈ ds, e < 10) :
    zeroFilled (ds.length + 1) (ds.foldl (fun n e => 10 * n + e) d) =
      Nat.digitChar d :: ds.map Nat.digitChar := by
  induction ds using List.reverseRecOn with
  | nil => exact zeroFilled_one d hd
  | append_singleton ds e ih =>
    have hinit : ∀ x ∈ ds, x < 10 := fun x hx => hds x (List.mem_append_left _ hx)
    have hlast : e < 10 := hds e (by simp)
    rw [List.length_append, List.length_singleton, List.foldl_append, List.foldl_cons,
      List.foldl_nil, zeroFilled_concat _ _ _ (Nat.succ_pos _) hlast, ih hinit, List.map_append,
      List.cons_append]
    rfl

theorem zeroFilled_two (n : ℕ) (h : n < 100) :
    zeroFilled 2 n = [Nat.digitChar (n / 10), Nat.digitChar (n % 10)] := by
  have hdigits := zeroFilled_digits (n / 10) [n % 10] (by omega) (by simp; omega)
  rw [List.foldl_cons, List.foldl_nil, Nat.div_add_mod] at hdigits
  exact hdigits

theorem zeroFilled_four (n : ℕ) (h : n < 10000) :
    zeroFilled 4 n = [Nat.digitChar (n / 1000), Nat.digitChar (n / 100 % 10),
      Nat.digitChar (n / 10 % 10), Nat.digitChar (n % 10)] := by
  have hdigits := zeroFilled_digits (n / 1000) [n / 100 % 10, n / 10 % 10, n % 10] (by omega)
    (by simp; omega)
  have hvalue : [n / 100 % 10, n / 10 % 10, n % 10].foldl (fun n e => 10 * n + e) (n / 1000) = n := by
    simp only [List.foldl_cons, List.foldl_nil]
    omega
  rw [hvalue] at hdigits
  exact hdigits

theorem zeroFilled_six (n : ℕ) (h : n < 1000000) :
    zeroFilled 6 n = [Nat.digitChar (n / 100000), Nat.digitChar (n / 10000 % 10),
      Nat.digitChar (n / 1000 % 10), Nat.digitChar (n / 100 % 10), Nat.digitChar (n / 10 % 10),
      Nat.digitChar (n % 10)] := by
  have hdigits := zeroFilled_digits (n / 100000)
    [n / 10000 % 10, n / 1000 % 10, n / 100 % 10, n / 10 % 10, n % 10] (by omega) (by simp; omega)
  have hvalue : [n / 10000 % 10, n / 1000 % 10, n / 100 % 10, n / 10 % 10, n % 10].foldl
      (fun n e => 10 * n + e) (n / 100000) = n := by
    simp only [List.foldl_cons, List.foldl_nil]
    omega
  rw [hvalue] at hdigits
  exact hdigits

end Date

/-- A moment of UTC between the years 1 and 9999. -/
structure UtcTime where
  date : Date
  hour : ℕ
  minute : ℕ
  second : ℕ
  microsecond : ℕ
  in_range : hour < 24 ∧ minute < 60 ∧ second < 60 ∧ microsecond < 1000000

/-- `isoformat(timespec="microseconds")` of a UTC time, with `Z` for the offset. -/
def UtcTime.isoformat (t : UtcTime) : Text :=
  t.date.isoformat ++ 'T' :: Date.zeroFilled 2 t.hour ++ ':' :: Date.zeroFilled 2 t.minute
    ++ ':' :: Date.zeroFilled 2 t.second ++ '.' :: Date.zeroFilled 6 t.microsecond ++ ['Z']

/-- The text `YYYY-MM-DDTHH:MM:SS.ffffffZ` of a moment, up to the year 9999. -/
def utcText (moment : ℕ) : Option Text := do
  let seconds := moment / 1000000
  let date ← Date.ofOrdinal (seconds / 86400 + 719163)
  some (date.isoformat ++ 'T' :: Date.zeroFilled 2 (seconds % 86400 / 3600)
    ++ ':' :: Date.zeroFilled 2 (seconds % 3600 / 60) ++ ':' :: Date.zeroFilled 2 (seconds % 60)
    ++ '.' :: Date.zeroFilled 6 (moment % 1000000) ++ ['Z'])

theorem utcText_eq_some (moment : ℕ) (text : Text) (h : utcText moment = some text) :
    ∃ t : UtcTime, text = t.isoformat := by
  simp only [utcText, Option.bind_eq_bind, Option.bind_eq_some_iff, Option.some.injEq] at h
  obtain ⟨date, _, rfl⟩ := h
  refine ⟨⟨date, moment / 1000000 % 86400 / 3600, moment / 1000000 % 3600 / 60,
    moment / 1000000 % 60, moment % 1000000, ?_⟩, rfl⟩
  omega

example : utcText 1709214245000007 = some "2024-02-29T13:44:05.000007Z".toList := by
  decide +kernel

end LamTo.Library
