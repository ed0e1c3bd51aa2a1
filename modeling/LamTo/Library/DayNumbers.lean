import LamTo.Library.Calendar

/-!
# Day numbers and month numbers

Every date has a day number, counted from the first day of year 1, and the dates are ordered
as their day numbers are. Reading a day number back (`Date.ofOrdinal`) walks the cycles of 400,
100, 4 and 1 years and then the months of the year; the ladder below climbs the same way, years
first, then the months of one year. Months are numbered from the first month of year 1.
-/

set_option autoImplicit false

namespace LamTo.Library

namespace Date

/-- `date.toordinal()` -/
def toOrdinal (d : Date) : ℕ := daysBeforeYear d.year + daysBeforeMonth d.year d.month + d.day

/-- `date.weekday()`: Monday is 0. -/
def weekday (d : Date) : ℕ := (d.toOrdinal + 6) % 7

/-- The month of a date, numbered from the first month of year 1. -/
def monthNumber (d : Date) : ℕ := 12 * (d.year - 1) + d.month

/-- `date.replace(day=1)` -/
def firstOfMonth (d : Date) : Date where
  year := d.year
  month := d.month
  day := 1
  exists_in_calendar := by
    have h := d.exists_in_calendar
    omega

def daysInYear (y : ℕ) : ℕ := if isLeapYear y then 366 else 365

/-! ## Years -/

theorem isLeapYear_iff (y : ℕ) :
    isLeapYear y = true ↔ y % 4 = 0 ∧ (y % 100 ≠ 0 ∨ y % 400 = 0) := by
  simp only [isLeapYear, Bool.and_eq_true, Bool.or_eq_true, decide_eq_true_eq]

theorem daysBeforeYear_one : daysBeforeYear 1 = 0 := rfl

theorem daysInYear_bounds (y : ℕ) : 365 ≤ daysInYear y ∧ daysInYear y ≤ 366 := by
  unfold daysInYear
  split <;> omega

theorem daysBeforeYear_succ (y : ℕ) (h : 1 ≤ y) :
    daysBeforeYear (y + 1) = daysBeforeYear y + daysInYear y := by
  obtain ⟨k, rfl⟩ := Nat.exists_eq_add_of_le' h
  have h4 : (k + 1) / 4 = k / 4 + if (k + 1) % 4 = 0 then 1 else 0 := by
    split <;> omega
  have h100 : (k + 1) / 100 = k / 100 + if (k + 1) % 100 = 0 then 1 else 0 := by
    split <;> omega
  have h400 : (k + 1) / 400 = k / 400 + if (k + 1) % 400 = 0 then 1 else 0 := by
    split <;> omega
  have hdivides : ((k + 1) % 100 = 0 → (k + 1) % 4 = 0) ∧ ((k + 1) % 400 = 0 → (k + 1) % 100 = 0) := by
    omega
  have hless : k / 100 ≤ k / 4 := Nat.div_le_div_left (by decide) (by decide)
  simp only [daysBeforeYear, daysInYear, Nat.add_sub_cancel, h4, h100, h400, isLeapYear_iff]
  split_ifs <;> omega

theorem daysBeforeYear_mono (y y' : ℕ) (h : 1 ≤ y) (hle : y ≤ y') :
    daysBeforeYear y ≤ daysBeforeYear y' := by
  induction y', hle using Nat.le_induction with
  | base => exact le_rfl
  | succ k hk ih =>
    rw [daysBeforeYear_succ k (le_trans h hk)]
    omega

/-- Every year has at least one day. -/
theorem le_daysBeforeYear (n : ℕ) : n ≤ daysBeforeYear (n + 1) := by
  induction n with
  | zero => exact Nat.zero_le _
  | succ k ih =>
    have hsucc := daysBeforeYear_succ (k + 1) (Nat.le_add_left 1 k)
    have hyear := (daysInYear_bounds (k + 1)).1
    omega

/-! ## Months of a year -/

theorem daysBeforeMonth_one (y : ℕ) : daysBeforeMonth y 1 = 0 := rfl

theorem daysInMonth_pos (y m : ℕ) : 28 ≤ daysInMonth y m := by
  unfold daysInMonth
  split
  · split <;> omega
  · split <;> omega

theorem daysBeforeMonth_succ (y m : ℕ) (h : 1 ≤ m) :
    daysBeforeMonth y (m + 1) = daysBeforeMonth y m + daysInMonth y m := by
  obtain ⟨k, rfl⟩ := Nat.exists_eq_add_of_le' h
  unfold daysBeforeMonth
  rw [Nat.add_sub_cancel, Nat.add_sub_cancel, List.range'_1_concat, List.map_append,
    List.sum_append, Nat.add_comm 1 k]
  simp

theorem daysBeforeMonth_mono (y m m' : ℕ) (h : 1 ≤ m) (hle : m ≤ m') :
    daysBeforeMonth y m ≤ daysBeforeMonth y m' := by
  induction m', hle using Nat.le_induction with
  | base => exact le_rfl
  | succ k hk ih =>
    rw [daysBeforeMonth_succ y k (le_trans h hk)]
    omega

theorem daysBeforeMonth_thirteen (y : ℕ) : daysBeforeMonth y 13 = daysInYear y := by
  unfold daysBeforeMonth daysInYear
  cases hleap : isLeapYear y with
  | true => simp [List.range', daysInMonth, hleap]
  | false => simp [List.range', daysInMonth, hleap]

/-- A date lies in its month. -/
theorem dayOfYear_bounds (d : Date) :
    daysBeforeMonth d.year d.month < daysBeforeMonth d.year d.month + d.day ∧
      daysBeforeMonth d.year d.month + d.day ≤ daysBeforeMonth d.year (d.month + 1) := by
  obtain ⟨-, hmonth, hday⟩ := d.exists_in_calendar
  rw [daysBeforeMonth_succ d.year d.month hmonth.1]
  omega

/-- A date lies in its year. -/
theorem toOrdinal_bounds (d : Date) :
    daysBeforeYear d.year < d.toOrdinal ∧ d.toOrdinal ≤ daysBeforeYear (d.year + 1) := by
  obtain ⟨hyear, hmonth, -⟩ := d.exists_in_calendar
  have hday := dayOfYear_bounds d
  have hmono := daysBeforeMonth_mono d.year (d.month + 1) 13 (by omega) (by omega)
  rw [daysBeforeMonth_thirteen] at hmono
  rw [daysBeforeYear_succ d.year hyear.1]
  unfold toOrdinal
  omega

theorem toOrdinal_pos (d : Date) : 1 ≤ d.toOrdinal := by
  have h := (toOrdinal_bounds d).1
  omega

/-! ## The order -/

theorem before_iff_lex (a b : Date) : a.before b = true ↔
    a.year < b.year ∨ (a.year = b.year ∧ (a.month < b.month ∨
      (a.month = b.month ∧ a.day < b.day))) := by
  simp only [before, Bool.or_eq_true, Bool.and_eq_true, decide_eq_true_eq]

theorem eq_of_fields (a b : Date) (hyear : a.year = b.year) (hmonth : a.month = b.month)
    (hday : a.day = b.day) : a = b := by
  cases a
  cases b
  simp_all

theorem toOrdinal_lt_of_before (a b : Date) (h : a.before b = true) :
    a.toOrdinal < b.toOrdinal := by
  have hyear := a.exists_in_calendar.1
  have hmonth := a.exists_in_calendar.2.1
  rcases (before_iff_lex a b).mp h with hlt | ⟨heq, hlt | ⟨heq', hlt⟩⟩
  · have ha := (toOrdinal_bounds a).2
    have hb := (toOrdinal_bounds b).1
    have hmono := daysBeforeYear_mono (a.year + 1) b.year (by omega) hlt
    omega
  · have ha := (dayOfYear_bounds a).2
    have hb := (dayOfYear_bounds b).1
    have hmono := daysBeforeMonth_mono a.year (a.month + 1) b.month (by omega) hlt
    unfold toOrdinal
    rw [← heq] at hb ⊢
    omega
  · unfold toOrdinal
    rw [heq, heq']
    omega

/-- Dates are ordered as their day numbers. -/
theorem before_iff (a b : Date) : a.before b = true ↔ a.toOrdinal < b.toOrdinal := by
  constructor
  · exact toOrdinal_lt_of_before a b
  · intro hlt
    by_contra hnot
    have hback : b.before a = true ∨ b = a := by
      rw [before_iff_lex] at hnot ⊢
      by_cases hyear : a.year = b.year
      · by_cases hmonth : a.month = b.month
        · by_cases hday : a.day = b.day
          · exact Or.inr (eq_of_fields b a hyear.symm hmonth.symm hday.symm)
          · left
            omega
        · left
          omega
      · left
        omega
    rcases hback with hbefore | rfl
    · exact absurd (toOrdinal_lt_of_before b a hbefore) (by omega)
    · exact lt_irrefl _ hlt

theorem toOrdinal_injective (a b : Date) (h : a.toOrdinal = b.toOrdinal) : a = b := by
  by_contra hne
  have hlex : a.before b = true ∨ b.before a = true := by
    rw [before_iff_lex, before_iff_lex]
    by_contra hnot
    exact hne (eq_of_fields a b (by omega) (by omega) (by omega))
  rw [before_iff, before_iff] at hlex
  omega

/-! ## Day numbers read back -/

/-- A number past the first value of a growing function lies between two of its values. -/
theorem exists_bracket (f : ℕ → ℕ) (n last : ℕ) (hfirst : f 1 < n) (hlast : n ≤ f last)
    (h : 1 ≤ last) : ∃ k, 1 ≤ k ∧ k < last ∧ f k < n ∧ n ≤ f (k + 1) := by
  induction last, h using Nat.le_induction with
  | base => omega
  | succ k hk ih =>
    by_cases hle : n ≤ f k
    · obtain ⟨j, hj, hjk, hbracket⟩ := ih hle
      exact ⟨j, hj, by omega, hbracket⟩
    · exact ⟨k, hk, Nat.lt_succ_self k, by omega, hlast⟩

theorem monthAndDay_eq (y m k month day : ℕ) (hm : 1 ≤ m) (hle : m ≤ month) (hlt : month < m + k)
    (hday : 1 ≤ day ∧ day ≤ daysInMonth y month) :
    monthAndDay y (daysBeforeMonth y month - daysBeforeMonth y m + (day - 1)) (List.range' m k) =
      some (month, day) := by
  induction k generalizing m with
  | zero => omega
  | succ k ih =>
    rw [List.range'_succ, monthAndDay]
    by_cases heq : m = month
    · rw [heq, Nat.sub_self, Nat.zero_add, if_pos (by omega), Nat.sub_add_cancel hday.1]
    · have hsucc := daysBeforeMonth_succ y m hm
      have hmono := daysBeforeMonth_mono y (m + 1) month (by omega) (by omega)
      rw [if_neg (by omega), ← ih (m + 1) (by omega) (by omega) (by omega)]
      congr 1
      omega

/-- The cycles of a day number: its year, and the day within the year. -/
theorem ofOrdinal_year (y r : ℕ) (hy : 1 ≤ y) (hr : r < daysInYear y) :
    ofOrdinal (daysBeforeYear y + r + 1) = (do
      let (month, day) ← monthAndDay y r (List.range' 1 12)
      of? y month day) := by
  obtain ⟨a, b, c, d, rfl, hb, hc, hd⟩ :
      ∃ a b c d, y = 400 * a + 100 * b + 4 * c + d + 1 ∧ b < 4 ∧ c < 25 ∧ d < 4 :=
    ⟨(y - 1) / 400, (y - 1) % 400 / 100, (y - 1) % 100 / 4, (y - 1) % 4, by omega, by omega,
      by omega, by omega⟩
  have hbefore : daysBeforeYear (400 * a + 100 * b + 4 * c + d + 1) =
      146097 * a + 36524 * b + 1461 * c + 365 * d := by
    simp only [daysBeforeYear, Nat.add_sub_cancel]
    omega
  have hbound : r < 365 ∨ (r = 365 ∧ d = 3 ∧ (c = 24 → b = 3)) := by
    by_cases hleap : isLeapYear (400 * a + 100 * b + 4 * c + d + 1) = true
    · rw [daysInYear, if_pos hleap] at hr
      rw [isLeapYear_iff] at hleap
      omega
    · rw [daysInYear, if_neg hleap] at hr
      exact Or.inl hr
  rw [hbefore]
  -- the rest of a century, of four years and of a year; only the last day fills a cycle up
  have hcentury : 1461 * c + 365 * d + r < 36524 ∨ (1461 * c + 365 * d + r = 36524 ∧ b = 3) := by
    omega
  have hsplit : 146097 * a + 36524 * b + 1461 * c + 365 * d + r =
      146097 * a + (36524 * b + (1461 * c + 365 * d + r)) := by
    omega
  have hmod : (146097 * a + 36524 * b + 1461 * c + 365 * d + r) % 146097 =
      36524 * b + (1461 * c + 365 * d + r) := by
    rw [hsplit, Nat.mul_add_mod, Nat.mod_eq_of_lt (by omega)]
  have h400 : (146097 * a + 36524 * b + 1461 * c + 365 * d + r) / 146097 = a := by
    rw [hsplit, Nat.mul_add_div (by decide), Nat.div_eq_of_lt (by omega), Nat.add_zero]
  have h100 : min ((36524 * b + (1461 * c + 365 * d + r)) / 36524) 3 = b := by
    rw [Nat.mul_add_div (by decide)]
    rcases hcentury with hlt | ⟨hfull, hb3⟩
    · rw [Nat.div_eq_of_lt hlt, Nat.add_zero]
      omega
    · rw [hfull, hb3]
      decide
  have hcycle : 36524 * b + (1461 * c + 365 * d + r) - b * 36524 = 1461 * c + (365 * d + r) := by
    omega
  have h4 : (1461 * c + (365 * d + r)) / 1461 = c := by
    rw [Nat.mul_add_div (by decide), Nat.div_eq_of_lt (by omega), Nat.add_zero]
  have hyears : (1461 * c + (365 * d + r)) % 1461 = 365 * d + r := by
    rw [Nat.mul_add_mod, Nat.mod_eq_of_lt (by omega)]
  have h1 : min ((365 * d + r) / 365) 3 = d := by
    omega
  have hrest : 365 * d + r - d * 365 = r := by
    omega
  have hyear : a * 400 + b * 100 + c * 4 + d + 1 = 400 * a + 100 * b + 4 * c + d + 1 := by
    omega
  simp only [ofOrdinal, Nat.add_sub_cancel, hmod, h400, h100, hcycle, h4, hyears, h1, hrest,
    hyear]
  rw [if_neg (Nat.succ_ne_zero _)]

/-- The day number of a date, read back. -/
theorem ofOrdinal_toOrdinal (d : Date) : ofOrdinal d.toOrdinal = some d := by
  obtain ⟨hyear, hmonth, hday⟩ := d.exists_in_calendar
  have hbounds := toOrdinal_bounds d
  rw [daysBeforeYear_succ d.year hyear.1] at hbounds
  have hwalk := monthAndDay_eq d.year 1 12 d.month d.day le_rfl hmonth.1 (by omega) hday
  rw [daysBeforeMonth_one, Nat.sub_zero] at hwalk
  have hsplit : d.toOrdinal =
      daysBeforeYear d.year + (daysBeforeMonth d.year d.month + (d.day - 1)) + 1 := by
    unfold toOrdinal
    omega
  rw [hsplit, ofOrdinal_year d.year _ hyear.1 (by omega), hwalk]
  exact dif_pos d.exists_in_calendar

/-- Every day number up to the last day of the calendar is the number of a date. -/
theorem exists_toOrdinal (n : ℕ) (h : 1 ≤ n) (hlast : n ≤ daysBeforeYear 10000) :
    ∃ d : Date, d.toOrdinal = n := by
  obtain ⟨y, hy, hlt, hfrom, hto⟩ :=
    exists_bracket daysBeforeYear n 10000 (by rw [daysBeforeYear_one]; omega) hlast (by omega)
  rw [daysBeforeYear_succ y hy] at hto
  obtain ⟨m, hm, hmlt, hmfrom, hmto⟩ :=
    exists_bracket (daysBeforeMonth y) (n - daysBeforeYear y) 13
      (by rw [daysBeforeMonth_one]; omega) (by rw [daysBeforeMonth_thirteen]; omega) (by omega)
  rw [daysBeforeMonth_succ y m hm] at hmto
  refine ⟨⟨y, m, n - daysBeforeYear y - daysBeforeMonth y m, ?_⟩, ?_⟩
  · omega
  · show daysBeforeYear y + daysBeforeMonth y m +
      (n - daysBeforeYear y - daysBeforeMonth y m) = n
    omega

theorem ofOrdinal_eq_some (n : ℕ) (d : Date) : ofOrdinal n = some d ↔ d.toOrdinal = n := by
  constructor
  · intro h
    by_cases hzero : n = 0
    · rw [hzero] at h
      cases h
    · by_cases hlast : n ≤ daysBeforeYear 10000
      · obtain ⟨e, rfl⟩ := exists_toOrdinal n (by omega) hlast
        rw [ofOrdinal_toOrdinal] at h
        rw [Option.some.inj h]
      · -- past the last year the date has no year
        obtain ⟨y, hy, -, hfrom, hto⟩ := exists_bracket daysBeforeYear n (n + 1)
          (by rw [daysBeforeYear_one]; omega) (le_daysBeforeYear n) (by omega)
        have hyear : 10000 ≤ y := by
          by_contra hlt
          have hmono := daysBeforeYear_mono (y + 1) 10000 (by omega) (by omega)
          omega
        rw [daysBeforeYear_succ y hy] at hto
        have hsplit : n = daysBeforeYear y + (n - daysBeforeYear y - 1) + 1 := by omega
        rw [hsplit, ofOrdinal_year y _ hy (by omega), Option.bind_eq_bind,
          Option.bind_eq_some_iff] at h
        obtain ⟨found, -, hof⟩ := h
        dsimp only at hof
        unfold of? at hof
        rw [dif_neg (by omega)] at hof
        cases hof
  · intro h
    rw [← h]
    exact ofOrdinal_toOrdinal d

theorem toOrdinal_le_last (d : Date) : d.toOrdinal ≤ daysBeforeYear 10000 := by
  have hyear := d.exists_in_calendar.1
  have hmono := daysBeforeYear_mono (d.year + 1) 10000 (by omega) (by omega)
  have hbounds := (toOrdinal_bounds d).2
  omega

/-- A day number has a date exactly when it is in the calendar. -/
theorem isSome_ofOrdinal (n : ℕ) :
    (ofOrdinal n).isSome = true ↔ 1 ≤ n ∧ n ≤ daysBeforeYear 10000 := by
  constructor
  · intro h
    obtain ⟨d, hd⟩ := Option.isSome_iff_exists.mp h
    rw [ofOrdinal_eq_some] at hd
    rw [← hd]
    exact ⟨toOrdinal_pos d, toOrdinal_le_last d⟩
  · rintro ⟨hpos, hlast⟩
    obtain ⟨d, rfl⟩ := exists_toOrdinal n hpos hlast
    rw [ofOrdinal_toOrdinal]
    rfl

/-! ## Months -/

theorem monthNumber_pos (d : Date) : 1 ≤ d.monthNumber := by
  have h := d.exists_in_calendar
  unfold monthNumber
  omega

theorem monthNumber_eq_iff (a b : Date) :
    a.monthNumber = b.monthNumber ↔ a.year = b.year ∧ a.month = b.month := by
  have ha := a.exists_in_calendar
  have hb := b.exists_in_calendar
  unfold monthNumber
  omega

theorem monthNumber_firstOfMonth (d : Date) : d.firstOfMonth.monthNumber = d.monthNumber := rfl

/-- The first day of a month comes after the days of the months before it. -/
theorem before_first_iff (a b : Date) (hfirst : b.day = 1) :
    a.before b = true ↔ a.monthNumber < b.monthNumber := by
  have ha := a.exists_in_calendar
  have hb := b.exists_in_calendar
  rw [before_iff_lex]
  unfold monthNumber
  omega

theorem firstOfMonth_eq_iff (a b : Date) (hfirst : b.day = 1) :
    a.firstOfMonth = b ↔ a.monthNumber = b.monthNumber := by
  rw [monthNumber_eq_iff]
  constructor
  · rintro rfl
    exact ⟨rfl, rfl⟩
  · rintro ⟨hyear, hmonth⟩
    exact eq_of_fields _ _ hyear hmonth hfirst.symm

theorem toOrdinal_firstOfMonth (d : Date) :
    d.firstOfMonth.toOrdinal + (d.day - 1) = d.toOrdinal := by
  have h := d.exists_in_calendar
  simp only [toOrdinal, firstOfMonth]
  omega

end Date

end LamTo.Library
