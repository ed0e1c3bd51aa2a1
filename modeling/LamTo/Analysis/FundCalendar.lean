import LamTo.Analysis.FundSeries

/-!
# The fund calendar is a faithful month

The calendar is a list of cells cut into weeks. The ladder goes from the dates to the page:

* the first day after the month is found by adding 32 days and going back to a first day, which
  is right for every month but the last of the calendar (`nextMonth_ok`);
* the loop over the entries fills one slot for each day that occurs, and the slots hold the
  sums of the day (`monthFlows_eq`);
* the loop over the days makes one cell for each day of the month (`monthCells_ok`), with a
  level between 1 and 4 on the days spent on (`spendingLevel_ok`);
* the padding puts the first day in the column of its weekday, so every day is in its own.

SOURCE: src/lamto/finance/selectors.py:198-243
-/

set_option autoImplicit false

namespace LamTo.Analysis

open LamTo.Library LamTo.Model

/-! ## Levels -/

/-- A ceiling of quarters of the peak. -/
theorem quarters_bounds (spent peak : ℤ) (hspent : 0 < spent) (hle : spent ≤ peak) :
    1 ≤ -(Int.fdiv (-4 * spent) peak) ∧ -(Int.fdiv (-4 * spent) peak) ≤ 4 := by
  have hpeak : 0 < peak := lt_of_lt_of_le hspent hle
  rw [Int.fdiv_eq_ediv_of_nonneg _ hpeak.le]
  constructor
  · have hneg : (-4 * spent) / peak < 0 := Int.ediv_neg_of_neg_of_pos (by omega) hpeak
    omega
  · have hlow : -4 ≤ (-4 * spent) / peak := (Int.le_ediv_iff_mul_le hpeak).mpr (by omega)
    omega

theorem quarters_peak (peak : ℤ) (hpeak : 0 < peak) : -(Int.fdiv (-4 * peak) peak) = 4 := by
  rw [Int.fdiv_eq_ediv_of_nonneg _ hpeak.le, Int.mul_ediv_cancel _ hpeak.ne']
  rfl

theorem quarters_mono (spent more peak : ℤ) (hle : spent ≤ more) (hpeak : 0 < peak) :
    -(Int.fdiv (-4 * spent) peak) ≤ -(Int.fdiv (-4 * more) peak) := by
  rw [Int.fdiv_eq_ediv_of_nonneg _ hpeak.le, Int.fdiv_eq_ediv_of_nonneg _ hpeak.le]
  have hmono : (-4 * more) / peak ≤ (-4 * spent) / peak :=
    Int.ediv_le_ediv hpeak (by omega)
  omega

/-- The level of a day, once no division by zero is in the way. -/
def levelOf (spent peak : ℤ) : ℤ :=
  if spent = 0 then 0 else max 1 (-(Int.fdiv (-4 * spent) peak))

/-- No division by zero: the peak is at least what was spent. -/
theorem spendingLevel_ok (spent peak : ℤ) (hspent : 0 ≤ spent) (hle : spent ≤ peak) :
    spendingLevel spent peak = .ok (levelOf spent peak) := by
  unfold spendingLevel levelOf
  by_cases hzero : spent = 0
  · rw [if_pos hzero, if_pos hzero]
    rfl
  · rw [if_neg hzero, if_neg hzero, require_true _ _ (by omega), ok_bind]
    rfl

theorem levelOf_eq (spent peak : ℤ) (hspent : 0 < spent) (hle : spent ≤ peak) :
    levelOf spent peak = -(Int.fdiv (-4 * spent) peak) := by
  rw [levelOf, if_neg hspent.ne', max_eq_right (quarters_bounds spent peak hspent hle).1]

theorem levelOf_bounds (spent peak : ℤ) (hspent : 0 ≤ spent) (hle : spent ≤ peak) :
    0 ≤ levelOf spent peak ∧ levelOf spent peak ≤ 4 ∧ (levelOf spent peak = 0 ↔ spent = 0) := by
  by_cases hzero : spent = 0
  · rw [levelOf, if_pos hzero]
    exact ⟨le_rfl, by omega, fun _ => hzero, fun _ => rfl⟩
  · have hbounds := quarters_bounds spent peak (by omega) hle
    rw [levelOf_eq spent peak (by omega) hle]
    omega

theorem levelOf_mono (spent more peak : ℤ) (hspent : 0 ≤ spent) (hle : spent ≤ more)
    (hpeak : more ≤ peak) : levelOf spent peak ≤ levelOf more peak := by
  by_cases hzero : spent = 0
  · rw [levelOf, if_pos hzero]
    exact (levelOf_bounds more peak (by omega) hpeak).1
  · rw [levelOf_eq spent peak (by omega) (by omega), levelOf_eq more peak (by omega) hpeak]
    exact quarters_mono spent more peak hle (by omega)

/-! ## The slots of the days -/

theorem slotOf_addToDay (day other : Date) (amountVnd : ℤ) (flows : List (Date × Flow)) :
    slotOf other (addToDay day amountVnd flows) =
      if other = day then (slotOf day flows).add amountVnd else slotOf other flows := by
  induction flows with
  | nil =>
    by_cases heq : other = day
    · simp [addToDay, slotOf, heq]
    · simp [addToDay, slotOf, heq, Ne.symm heq]
  | cons s flows ih =>
    obtain ⟨key, slot⟩ := s
    rw [addToDay]
    by_cases hkey : key = day
    · rw [if_pos hkey]
      by_cases heq : other = day
      · simp [slotOf, hkey, heq]
      · simp [slotOf, hkey, heq, Ne.symm heq]
    · rw [if_neg hkey]
      by_cases hother : key = other
      · have hne : other ≠ day := fun h => hkey (hother.trans h)
        simp [slotOf, hother, hne]
      · have hrest : slotOf other ((key, slot) :: addToDay day amountVnd flows) =
            slotOf other (addToDay day amountVnd flows) := by
          simp [slotOf, hother]
        rw [hrest, ih]
        simp [slotOf, hkey, hother]

theorem sum_addToDay (field : Flow → ℤ) (day : Date) (amountVnd change : ℤ)
    (hzero : field ⟨0, 0⟩ = 0) (hadd : ∀ slot, field (Flow.add slot amountVnd) = field slot + change)
    (flows : List (Date × Flow)) :
    ((addToDay day amountVnd flows).map fun s => field s.2).sum =
      (flows.map fun s => field s.2).sum + change := by
  induction flows with
  | nil => simp [addToDay, hadd, hzero]
  | cons s flows ih =>
    obtain ⟨key, slot⟩ := s
    rw [addToDay]
    split
    · simp only [List.map_cons, List.sum_cons, hadd]
      omega
    · simp only [List.map_cons, List.sum_cons, ih]
      omega

theorem keys_addToDay (day : Date) (amountVnd : ℤ) (flows : List (Date × Flow)) :
    (addToDay day amountVnd flows).map Prod.fst =
      if day ∈ flows.map Prod.fst then flows.map Prod.fst else flows.map Prod.fst ++ [day] := by
  induction flows with
  | nil => simp [addToDay]
  | cons s flows ih =>
    obtain ⟨key, slot⟩ := s
    rw [addToDay]
    by_cases hkey : key = day
    · simp [hkey]
    · have hmem : day ∈ ((key, slot) :: flows).map Prod.fst ↔ day ∈ flows.map Prod.fst := by
        rw [List.map_cons, List.mem_cons]
        exact or_iff_right (Ne.symm hkey)
      rw [if_neg hkey, List.map_cons, ih]
      by_cases hold : day ∈ flows.map Prod.fst
      · rw [if_pos hold, if_pos (hmem.mpr hold), List.map_cons]
      · rw [if_neg hold, if_neg (fun h => hold (hmem.mp h)), List.map_cons, List.cons_append]

/-- What the slots hold of the entries: each day's sums, and nothing else. -/
structure SlotsHold (localDate : ℤ → Option Date) (inMonth : Date → Bool)
    (entries : List FundRow) (flows : List (Date × Flow)) : Prop where
  slot : ∀ day, inMonth day = true → slotOf day flows =
    ⟨inflowsWhere localDate (fun d => decide (d = day)) entries,
      outflowsWhere localDate (fun d => decide (d = day)) entries⟩
  inflows : (flows.map fun s => s.2.inflows).sum = inflowsWhere localDate inMonth entries
  outflows : (flows.map fun s => s.2.outflows).sum = outflowsWhere localDate inMonth entries
  distinct : (flows.map Prod.fst).Nodup
  within : ∀ day ∈ flows.map Prod.fst, inMonth day = true

variable {localDate : ℤ → Option Date} {inMonth : Date → Bool}

theorem inflowsWhere_concat (p : Date → Bool) (e : FundRow) (entries : List FundRow) (day : Date)
    (h : localDate e.recordedAt = some day) :
    inflowsWhere localDate p (entries ++ [e]) = inflowsWhere localDate p entries +
      if p day = true ∧ 0 < e.amountVnd then e.amountVnd else 0 := by
  unfold inflowsWhere
  rw [sumWhere_concat, dated_of_day p e day h]
  simp only [Bool.and_eq_true, decide_eq_true_eq]

theorem outflowsWhere_concat (p : Date → Bool) (e : FundRow) (entries : List FundRow) (day : Date)
    (h : localDate e.recordedAt = some day) :
    outflowsWhere localDate p (entries ++ [e]) = outflowsWhere localDate p entries +
      if p day = true ∧ ¬ 0 < e.amountVnd then e.amountVnd else 0 := by
  unfold outflowsWhere
  rw [sumWhere_concat, dated_of_day p e day h]
  simp only [Bool.and_eq_true, Bool.not_eq_true', decide_eq_false_iff_not]

/-- An entry of another month changes nothing. -/
theorem SlotsHold.skip {entries : List FundRow} {flows : List (Date × Flow)}
    (h : SlotsHold localDate inMonth entries flows) (e : FundRow) (day : Date)
    (hday : localDate e.recordedAt = some day) (hout : inMonth day = false) :
    SlotsHold localDate inMonth (entries ++ [e]) flows where
  slot other hother := by
    have hne : day ≠ other := by
      rintro rfl
      rw [hout] at hother
      cases hother
    rw [h.slot other hother, inflowsWhere_concat _ e entries day hday,
      outflowsWhere_concat _ e entries day hday]
    simp [hne]
  inflows := by
    rw [h.inflows, inflowsWhere_concat _ e entries day hday]
    simp [hout]
  outflows := by
    rw [h.outflows, outflowsWhere_concat _ e entries day hday]
    simp [hout]
  distinct := h.distinct
  within := h.within

/-- An entry of the month goes to the slot of its day. -/
theorem SlotsHold.add {entries : List FundRow} {flows : List (Date × Flow)}
    (h : SlotsHold localDate inMonth entries flows) (e : FundRow) (day : Date)
    (hday : localDate e.recordedAt = some day) (hin : inMonth day = true) :
    SlotsHold localDate inMonth (entries ++ [e]) (addToDay day e.amountVnd flows) where
  slot other hother := by
    rw [slotOf_addToDay, inflowsWhere_concat _ e entries day hday,
      outflowsWhere_concat _ e entries day hday]
    by_cases heq : other = day
    · rw [if_pos heq, ← heq, h.slot other hother, Flow.add_eq]
      by_cases hpositive : 0 < e.amountVnd
      · simp [hpositive]
      · simp [hpositive]
    · rw [if_neg heq, h.slot other hother]
      simp [Ne.symm heq]
  inflows := by
    rw [sum_addToDay Flow.inflows day e.amountVnd (if 0 < e.amountVnd then e.amountVnd else 0) rfl
      (fun slot => by rw [Flow.add_eq]), h.inflows, inflowsWhere_concat _ e entries day hday]
    simp [hin]
  outflows := by
    rw [sum_addToDay Flow.outflows day e.amountVnd (if 0 < e.amountVnd then 0 else e.amountVnd) rfl
      (fun slot => by rw [Flow.add_eq]), h.outflows, outflowsWhere_concat _ e entries day hday]
    by_cases hpositive : 0 < e.amountVnd
    · simp [hpositive]
    · simp [hin, hpositive]
  distinct := by
    rw [keys_addToDay]
    split
    · exact h.distinct
    · next hnew => exact List.nodup_append.mpr ⟨h.distinct, List.nodup_singleton day, by
        rintro other hother _ hlast rfl
        exact hnew (List.mem_singleton.mp hlast ▸ hother)⟩
  within other hother := by
    rw [keys_addToDay] at hother
    split at hother
    · exact h.within other hother
    · rcases List.mem_append.mp hother with hother | hother
      · exact h.within other hother
      · rw [List.mem_singleton.mp hother]
        exact hin

theorem monthFlows_eq (first nextMonth : Date) (entries : List FundRow)
    (hdays : HaveDays localDate entries) :
    ∃ flows, monthFlows localDate first nextMonth entries = .ok flows ∧
      SlotsHold localDate (fun day => !day.before first && day.before nextMonth) entries flows := by
  induction entries using List.reverseRecOn with
  | nil =>
    exact ⟨[], rfl, ⟨fun _ _ => rfl, rfl, rfl, List.nodup_nil, fun _ h => by cases h⟩⟩
  | append_singleton entries e ih =>
    obtain ⟨flows, hloop, hslots⟩ := ih fun x hx => hdays x (List.mem_append_left _ hx)
    obtain ⟨day, hday⟩ := Option.isSome_iff_exists.mp (hdays e (by simp))
    have hlast : monthFlows localDate first nextMonth (entries ++ [e]) =
        .ok (if (!day.before first && day.before nextMonth) = true then
          addToDay day e.amountVnd flows else flows) := by
      unfold monthFlows at hloop ⊢
      rw [List.foldlM_append, hloop, ok_bind, List.foldlM_cons, localDay, hday, orRaise, ok_bind]
      split <;> rfl
    refine ⟨_, hlast, ?_⟩
    split
    · next hin => exact hslots.add e day hday hin
    · next hout => exact hslots.skip e day hday (Bool.not_eq_true _ ▸ hout)

/-! ## The peak -/

theorem le_foldl_max {α : Type} (f : α → ℤ) (xs : List α) (start : ℤ) :
    start ≤ xs.foldl (fun most x => max most (f x)) start ∧
      ∀ x ∈ xs, f x ≤ xs.foldl (fun most x => max most (f x)) start := by
  induction xs generalizing start with
  | nil => exact ⟨le_rfl, fun _ h => by cases h⟩
  | cons y xs ih =>
    obtain ⟨hstart, hrest⟩ := ih (max start (f y))
    refine ⟨le_trans (le_max_left _ _) hstart, List.forall_mem_cons.mpr ⟨?_, hrest⟩⟩
    exact le_trans (le_max_right _ _) hstart

theorem foldl_max_mem {α : Type} (f : α → ℤ) (xs : List α) (start : ℤ) :
    xs.foldl (fun most x => max most (f x)) start = start ∨
      ∃ x ∈ xs, xs.foldl (fun most x => max most (f x)) start = f x := by
  induction xs generalizing start with
  | nil => exact Or.inl rfl
  | cons y xs ih =>
    rcases ih (max start (f y)) with hstart | ⟨x, hx, heq⟩
    · rw [List.foldl_cons, hstart]
      rcases max_choice start (f y) with hmax | hmax
      · exact Or.inl hmax
      · exact Or.inr ⟨y, List.mem_cons_self, hmax⟩
    · exact Or.inr ⟨x, List.mem_cons_of_mem y hx, heq⟩

theorem le_peakOf (flows : List (Date × Flow)) :
    ∀ s ∈ flows, -s.2.outflows ≤ peakOf flows := by
  cases flows with
  | nil => exact fun _ h => by cases h
  | cons s flows =>
    obtain ⟨hfirst, hrest⟩ := le_foldl_max (fun s : Date × Flow => -s.2.outflows) flows
      (-s.2.outflows)
    exact List.forall_mem_cons.mpr ⟨hfirst, hrest⟩

theorem peakOf_mem (flows : List (Date × Flow)) :
    peakOf flows = 0 ∨ ∃ s ∈ flows, peakOf flows = -s.2.outflows := by
  cases flows with
  | nil => exact Or.inl rfl
  | cons s flows =>
    right
    rcases foldl_max_mem (fun s : Date × Flow => -s.2.outflows) flows (-s.2.outflows) with
      hfirst | ⟨x, hx, heq⟩
    · exact ⟨s, List.mem_cons_self, hfirst⟩
    · exact ⟨x, List.mem_cons_of_mem s hx, heq⟩

theorem slotOf_of_mem (flows : List (Date × Flow)) (hdistinct : (flows.map Prod.fst).Nodup)
    (s : Date × Flow) (hs : s ∈ flows) : slotOf s.1 flows = s.2 := by
  induction flows with
  | nil => cases hs
  | cons t flows ih =>
    rw [List.map_cons, List.nodup_cons] at hdistinct
    rcases List.mem_cons.mp hs with rfl | hs
    · simp [slotOf]
    · have hne : t.1 ≠ s.1 := fun h => hdistinct.1 (h ▸ List.mem_map_of_mem hs)
      have hrest : slotOf s.1 (t :: flows) = slotOf s.1 flows := by
        simp [slotOf, hne]
      rw [hrest, ih hdistinct.2 hs]

theorem mem_of_slotOf (flows : List (Date × Flow)) (day : Date) :
    slotOf day flows = ⟨0, 0⟩ ∨ (day, slotOf day flows) ∈ flows := by
  unfold slotOf
  cases hfind : flows.find? fun s => decide (s.1 = day) with
  | none => exact Or.inl rfl
  | some s =>
    right
    have htest := List.find?_some hfind
    have hkey : s.1 = day := of_decide_eq_true htest
    rw [Option.map_some, Option.getD_some, ← hkey]
    exact List.mem_of_find?_eq_some hfind

theorem outflowsWhere_nonpos (p : Date → Bool) (entries : List FundRow) :
    outflowsWhere localDate p entries ≤ 0 := by
  unfold outflowsWhere
  induction entries with
  | nil => exact le_rfl
  | cons e entries ih =>
    rw [sumWhere_cons]
    split
    · next htest =>
      simp only [Bool.and_eq_true, Bool.not_eq_true', decide_eq_false_iff_not] at htest
      omega
    · omega

section Peak

variable {entries : List FundRow} {flows : List (Date × Flow)}
  (h : SlotsHold localDate inMonth entries flows)
include h

theorem SlotsHold.spent_nonneg (day : Date) : 0 ≤ -(slotOf day flows).outflows := by
  rcases mem_of_slotOf flows day with hempty | hmem
  · rw [hempty]
    exact le_rfl
  · rw [h.slot day (h.within day (List.mem_map_of_mem hmem))]
    exact neg_nonneg.mpr (outflowsWhere_nonpos _ entries)

theorem SlotsHold.peak_nonneg : 0 ≤ peakOf flows := by
  rcases peakOf_mem flows with hzero | ⟨s, hs, hpeak⟩
  · exact hzero.ge
  · have hnonneg := h.spent_nonneg s.1
    rw [slotOf_of_mem flows h.distinct s hs] at hnonneg
    omega

theorem SlotsHold.spent_le_peak (day : Date) : -(slotOf day flows).outflows ≤ peakOf flows := by
  rcases mem_of_slotOf flows day with hempty | hmem
  · rw [hempty]
    exact h.peak_nonneg
  · exact le_peakOf flows _ hmem

/-- A day spent on no less than any other is at the peak. -/
theorem SlotsHold.peak_eq (day : Date)
    (hmost : ∀ other, inMonth other = true →
      -(slotOf other flows).outflows ≤ -(slotOf day flows).outflows)
    (hspent : 0 < -(slotOf day flows).outflows) :
    -(slotOf day flows).outflows = peakOf flows := by
  have hle := h.spent_le_peak day
  rcases peakOf_mem flows with hzero | ⟨s, hs, hpeak⟩
  · omega
  · have hother := hmost s.1 (h.within s.1 (List.mem_map_of_mem hs))
    rw [slotOf_of_mem flows h.distinct s hs] at hother
    omega

end Peak

/-! ## The month -/

theorem plusDays_eq_ok (d e : Date) (n : ℕ) :
    plusDays d n = .ok e ↔ e.toOrdinal = d.toOrdinal + n := by
  rw [plusDays, orRaise_eq_ok, Date.ofOrdinal_eq_some]

/-- The day `next` is the first one after the month of `first`. -/
structure NextMonth (first next : Date) : Prop where
  day : next.day = 1
  number : next.monthNumber = first.monthNumber + 1
  ordinal : next.toOrdinal = first.toOrdinal + daysInMonth first.year first.month

/-- Every month has a next one, but the last of the calendar. -/
theorem exists_nextMonth (first : Date) (hfirst : first.day = 1)
    (h : ¬ (first.year = 9999 ∧ first.month = 12)) : ∃ next, NextMonth first next := by
  obtain ⟨hyear, hmonth, -⟩ := first.exists_in_calendar
  have hsucc := Date.daysBeforeMonth_succ first.year first.month hmonth.1
  by_cases hdecember : first.month = 12
  · have hdays := Date.daysInMonth_pos (first.year + 1) 1
    refine ⟨⟨first.year + 1, 1, 1, by omega⟩, rfl, ?_, ?_⟩
    · unfold Date.monthNumber
      simp only
      omega
    · have hturn := Date.daysBeforeYear_succ first.year hyear.1
      have hlast := Date.daysBeforeMonth_thirteen first.year
      show Date.daysBeforeYear (first.year + 1) + Date.daysBeforeMonth (first.year + 1) 1 + 1 =
        Date.daysBeforeYear first.year + Date.daysBeforeMonth first.year first.month + first.day +
          daysInMonth first.year first.month
      rw [Date.daysBeforeMonth_one, hdecember]
      rw [Date.daysBeforeMonth_succ first.year 12 (by omega)] at hlast
      omega
  · have hdays := Date.daysInMonth_pos first.year (first.month + 1)
    refine ⟨⟨first.year, first.month + 1, 1, by omega⟩, rfl, rfl, ?_⟩
    show Date.daysBeforeYear first.year + Date.daysBeforeMonth first.year (first.month + 1) + 1 =
      Date.daysBeforeYear first.year + Date.daysBeforeMonth first.year first.month + first.day +
        daysInMonth first.year first.month
    omega

/-- Adding 32 days to a first day leads into the next month, from anywhere in the year. -/
theorem nextMonth_ok (first : Date) (hfirst : first.day = 1)
    (h : ¬ (first.year = 9999 ∧ first.month = 12)) :
    ∃ later, plusDays first 32 = .ok later ∧ NextMonth first later.firstOfMonth := by
  obtain ⟨next, hnext⟩ := exists_nextMonth first hfirst h
  have hshort := Date.daysInMonth_pos first.year first.month
  have hlong := daysInMonth_le first.year first.month
  have hroom := Date.daysInMonth_pos next.year next.month
  have hexists := next.exists_in_calendar
  refine ⟨⟨next.year, next.month, 33 - daysInMonth first.year first.month, hexists.1,
    hexists.2.1, by omega⟩, ?_, ?_⟩
  · have hday := hnext.day
    have hordinal := hnext.ordinal
    rw [plusDays_eq_ok]
    unfold Date.toOrdinal at hordinal ⊢
    simp only
    omega
  · have hsame : next = Date.firstOfMonth ⟨next.year, next.month,
        33 - daysInMonth first.year first.month, hexists.1, hexists.2.1, by omega⟩ :=
      Date.eq_of_fields _ _ rfl rfl hnext.day
    exact hsame ▸ hnext

theorem nextMonth_error (first : Date) (hfirst : first.day = 1)
    (h : first.year = 9999 ∧ first.month = 12) :
    plusDays first 32 = .error (.overflow "date value out of range") := by
  obtain ⟨year, month, day, hexists⟩ := first
  obtain ⟨rfl, rfl⟩ := h
  cases hfirst
  show plusDays ⟨9999, 12, 1, by decide⟩ 32 = _
  decide +kernel

/-- A day lies between the two first days exactly when it is of the month. -/
theorem NextMonth.between {first next : Date} (h : NextMonth first next) (hfirst : first.day = 1)
    (day : Date) : (!day.before first && day.before next) =
      decide (day.monthNumber = first.monthNumber) := by
  have hnumber := h.number
  rw [Bool.eq_iff_iff]
  simp only [Bool.and_eq_true, Bool.not_eq_true', decide_eq_true_eq]
  rw [← Bool.not_eq_true, Date.before_first_iff day first hfirst,
    Date.before_first_iff day next h.day]
  omega

theorem dayOfMonth_of_ordinal (first day : Date) (hfirst : first.day = 1) (i : ℕ)
    (hi : i < daysInMonth first.year first.month) (hday : day.toOrdinal = first.toOrdinal + i) :
    day.year = first.year ∧ day.month = first.month ∧ day.day = 1 + i := by
  have hexists := first.exists_in_calendar
  have hsame : day = ⟨first.year, first.month, 1 + i, hexists.1, hexists.2.1, by omega⟩ := by
    apply Date.toOrdinal_injective
    rw [hday]
    unfold Date.toOrdinal
    simp only
    omega
  rw [hsame]
  exact ⟨rfl, rfl, rfl⟩

/-- The days of a month, one after the other. -/
theorem days_of_ordinals (first : Date) (hfirst : first.day = 1) (days : List Date)
    (hdays : days.map Date.toOrdinal =
      List.range' first.toOrdinal (daysInMonth first.year first.month)) :
    days.map Date.day = List.range' 1 (daysInMonth first.year first.month) ∧
      ∀ day ∈ days, day.year = first.year ∧ day.month = first.month := by
  have hlength := congrArg List.length hdays
  rw [List.length_map, List.length_range'] at hlength
  have hget : ∀ i (hi : i < days.length), days[i].year = first.year ∧
      days[i].month = first.month ∧ days[i].day = 1 + i := by
    intro i hi
    apply dayOfMonth_of_ordinal first days[i] hfirst i (by omega)
    have hordinal : (days.map Date.toOrdinal)[i]? =
        (List.range' first.toOrdinal (daysInMonth first.year first.month))[i]? := by
      rw [hdays]
    rw [List.getElem?_map, List.getElem?_eq_getElem hi, List.getElem?_range' (by omega),
      Option.map_some, Option.some.injEq, Nat.one_mul] at hordinal
    exact hordinal
  constructor
  · apply List.ext_getElem
    · rw [List.length_map, List.length_range', hlength]
    · intro i hi _
      rw [List.length_map] at hi
      rw [List.getElem_map, List.getElem_range', (hget i hi).2.2, Nat.one_mul]
  · intro day hday
    obtain ⟨i, hi, rfl⟩ := List.mem_iff_getElem.mp hday
    exact ⟨(hget i hi).1, (hget i hi).2.1⟩

/-! ## The cells -/

/-- The cell of a day, once its level is known. -/
def cellOf (flows : List (Date × Flow)) (peak : ℤ) (today day : Date) : CalendarCell where
  date := day
  day := day.day
  inflowsVnd := (slotOf day flows).inflows
  outflowsVnd := (slotOf day flows).outflows
  level := levelOf (-(slotOf day flows).outflows) peak
  isToday := day = today
  isFuture := today.before day

theorem calendarCell_ok (flows : List (Date × Flow)) (peak : ℤ) (today day : Date)
    (hspent : 0 ≤ -(slotOf day flows).outflows) (hle : -(slotOf day flows).outflows ≤ peak) :
    calendarCell flows peak today day = .ok (cellOf flows peak today day) := by
  rw [calendarCell, spendingLevel_ok _ _ hspent hle]
  rfl

/-- The loop makes one cell for each day. -/
theorem monthCells_ok (flows : List (Date × Flow)) (peak : ℤ) (today next : Date)
    (hcell : ∀ day, calendarCell flows peak today day = .ok (cellOf flows peak today day))
    (count : ℕ) (day : Date) (hcount : day.toOrdinal + count = next.toOrdinal) :
    ∃ days : List Date, days.map Date.toOrdinal = List.range' day.toOrdinal count ∧
      monthCells flows peak today next count day = .ok (days.map (cellOf flows peak today)) := by
  induction count generalizing day with
  | zero => exact ⟨[], rfl, rfl⟩
  | succ count ih =>
    have hpos := Date.toOrdinal_pos day
    have hlast := Date.toOrdinal_le_last next
    obtain ⟨tomorrow, htomorrow⟩ := Date.exists_toOrdinal (day.toOrdinal + 1) (by omega) (by omega)
    obtain ⟨days, hordinals, hloop⟩ := ih tomorrow (by omega)
    refine ⟨day :: days, ?_, ?_⟩
    · rw [List.map_cons, hordinals, htomorrow, List.range'_succ]
    · rw [monthCells, if_pos ((Date.before_iff day next).mpr (by omega)), hcell, ok_bind,
        (plusDays_eq_ok day tomorrow 1).mpr htomorrow, ok_bind, hloop]
      rfl

/-! ## The weeks -/

section Weeks

variable {α : Type}

theorem weeks_flatten_of (count : ℕ) (cells : List α) (h : cells.length = 7 * count) :
    ((List.range count).map fun i => (cells.drop (7 * i)).take 7).flatten = cells := by
  induction count generalizing cells with
  | zero =>
    rw [List.eq_nil_of_length_eq_zero h]
    rfl
  | succ count ih =>
    have hrest := ih (cells.drop 7) (by rw [List.length_drop]; omega)
    simp only [List.drop_drop] at hrest
    rw [List.range_succ_eq_map, List.map_cons, List.flatten_cons, List.map_map]
    have hshift : ((fun i => (cells.drop (7 * i)).take 7) ∘ Nat.succ) =
        fun i => (cells.drop (7 + 7 * i)).take 7 := by
      funext i
      simp only [Function.comp_apply, Nat.succ_eq_add_one]
      rw [Nat.mul_add, Nat.mul_one, Nat.add_comm]
    rw [hshift, hrest]
    exact List.take_append_drop 7 cells

variable (cells : List α) (h : cells.length % 7 = 0)
include h

theorem weeksOf_flatten : (weeksOf cells).flatten = cells := by
  unfold weeksOf
  exact weeks_flatten_of _ cells (by omega)

theorem length_of_week (week : List α) (hweek : week ∈ weeksOf cells) : week.length = 7 := by
  obtain ⟨i, hi, rfl⟩ := List.mem_map.mp hweek
  rw [List.mem_range] at hi
  rw [List.length_take, List.length_drop]
  omega

omit h in
/-- The place of a week's column in the row of cells. -/
theorem column_of_week (week : List α) (hweek : week ∈ weeksOf cells) (column : ℕ) (a : α)
    (ha : week[column]? = some a) : ∃ i, column < 7 ∧ cells[7 * i + column]? = some a := by
  obtain ⟨i, -, rfl⟩ := List.mem_map.mp hweek
  rw [List.getElem?_take] at ha
  split at ha
  · next hcolumn => exact ⟨i, hcolumn, by rw [← ha, List.getElem?_drop]⟩
  · cases ha

end Weeks

/-- A padded row of days starts in the column of its first weekday. -/
theorem weekday_of_column (first : Date) (days : List Date) (after column i : ℕ)
    (f : Date → CalendarCell) (hf : ∀ day, (f day).date = day)
    (hdays : days.map Date.toOrdinal = List.range' first.toOrdinal days.length)
    (hcolumn : column < 7) (cell : CalendarCell)
    (hcell : (List.replicate first.weekday none ++ (days.map f).map some ++
      List.replicate after none)[7 * i + column]? = some (some cell)) :
    cell.date.weekday = column := by
  rw [List.append_assoc, List.getElem?_append, List.length_replicate] at hcell
  split at hcell
  · rw [List.getElem?_replicate] at hcell
    split at hcell <;> cases hcell
  · next hfrom =>
    rw [List.getElem?_append] at hcell
    split at hcell
    · next hto =>
      rw [List.length_map, List.length_map] at hto
      rw [List.map_map, List.getElem?_map, List.getElem?_eq_getElem hto, Option.map_some,
        Option.some.injEq, Function.comp_apply, Option.some.injEq] at hcell
      have hordinal : (days.map Date.toOrdinal)[7 * i + column - first.weekday]? =
          (List.range' first.toOrdinal days.length)[7 * i + column - first.weekday]? := by
        rw [hdays]
      rw [List.getElem?_map, List.getElem?_eq_getElem hto, List.getElem?_range' hto,
        Option.map_some, Option.some.injEq, Nat.one_mul] at hordinal
      rw [← hcell, hf, Date.weekday, hordinal]
      unfold Date.weekday at hfrom ⊢
      omega
    · rw [List.getElem?_replicate] at hcell
      split at hcell <;> cases hcell

/-! ## The calendar -/

/-- The day is of today's month. -/
def sameMonth (today day : Date) : Bool := decide (day.monthNumber = today.monthNumber)

/-- The page, part by part: the cells of the month, the weeks they are cut into, the sums they
show and the levels of what was spent. -/
structure FaithfulMonth (localDate : ℤ → Option Date) (entries : List FundRow) (today : Date)
    (calendar : FundCalendar) (cells : List CalendarCell) : Prop where
  row : ∃ before after, calendar.weeks.flatten =
    List.replicate before none ++ cells.map some ++ List.replicate after none
  weeks : ∀ week ∈ calendar.weeks, week.length = 7
  columns : ∀ week ∈ calendar.weeks, ∀ (column : ℕ) (cell : CalendarCell),
    week[column]? = some (some cell) → cell.date.weekday = column
  days : cells.map (fun c => c.date.day) = List.range' 1 (daysInMonth today.year today.month)
  month : ∀ c ∈ cells, c.date.year = today.year ∧ c.date.month = today.month
  inflows : ∀ c ∈ cells,
    c.inflowsVnd = inflowsWhere localDate (fun day => decide (day = c.date)) entries
  outflows : ∀ c ∈ cells,
    c.outflowsVnd = outflowsWhere localDate (fun day => decide (day = c.date)) entries
  totalInflows : (cells.map fun c => c.inflowsVnd).sum = calendar.inflowsVnd ∧
    calendar.inflowsVnd = inflowsWhere localDate (sameMonth today) entries
  totalOutflows : (cells.map fun c => c.outflowsVnd).sum = calendar.outflowsVnd ∧
    calendar.outflowsVnd = outflowsWhere localDate (sameMonth today) entries
  levels : ∀ c ∈ cells, 0 ≤ c.level ∧ c.level ≤ 4 ∧ (c.level = 0 ↔ c.outflowsVnd = 0)
  highest : ∀ c ∈ cells, c.outflowsVnd ≠ 0 → (∀ d ∈ cells, c.outflowsVnd ≤ d.outflowsVnd) →
    c.level = 4
  monotone : ∀ c ∈ cells, ∀ d ∈ cells, d.outflowsVnd ≤ c.outflowsVnd → c.level ≤ d.level

theorem dated_in_month (today : Date) (days : List Date)
    (hdays : ∀ day, day ∈ days ↔ sameMonth today day = true) (e : FundRow) :
    (days.any fun day => dated localDate (fun d => decide (d = day)) e) =
      dated localDate (sameMonth today) e := by
  unfold dated
  cases localDate e.recordedAt with
  | none => simp
  | some d =>
    rw [Bool.eq_iff_iff, List.any_eq_true]
    simp only [Option.any_some, decide_eq_true_eq]
    rw [← hdays]
    constructor
    · rintro ⟨day, hday, rfl⟩
      exact hday
    · intro hd
      exact ⟨d, hd, rfl⟩

/-- The sums of the days add up to the sums of the month. -/
theorem sum_of_days (entries : List FundRow) (today : Date) (days : List Date)
    (hnodup : days.Nodup) (hdays : ∀ day, day ∈ days ↔ sameMonth today day = true) :
    (days.map fun day => inflowsWhere localDate (fun d => decide (d = day)) entries).sum =
        inflowsWhere localDate (sameMonth today) entries ∧
      (days.map fun day => outflowsWhere localDate (fun d => decide (d = day)) entries).sum =
        outflowsWhere localDate (sameMonth today) entries := by
  have hone : ∀ e : FundRow, ∀ day day', dated localDate (fun d => decide (d = day)) e = true →
      dated localDate (fun d => decide (d = day')) e = true → day = day' := by
    intro e day day' h h'
    unfold dated at h h'
    rw [Option.any_eq_true] at h h'
    obtain ⟨d, hd, hday⟩ := h
    obtain ⟨d', hd', hday'⟩ := h'
    rw [hd] at hd'
    rw [← of_decide_eq_true hday, ← of_decide_eq_true hday', Option.some.inj hd']
  constructor
  · unfold inflowsWhere
    rw [sum_map_sumWhere _ _ days entries hnodup fun e _ day day' h h' =>
      hone e day day' (Bool.and_eq_true_iff.mp h).1 (Bool.and_eq_true_iff.mp h').1]
    refine sumWhere_congr _ _ _ _ fun e _ => ?_
    rw [← dated_in_month today days hdays e]
    cases decide (0 < e.amountVnd) <;> simp
  · unfold outflowsWhere
    rw [sum_map_sumWhere _ _ days entries hnodup fun e _ day day' h h' =>
      hone e day day' (Bool.and_eq_true_iff.mp h).1 (Bool.and_eq_true_iff.mp h').1]
    refine sumWhere_congr _ _ _ _ fun e _ => ?_
    rw [← dated_in_month today days hdays e]
    cases decide (0 < e.amountVnd) <;> simp

/-- The days counted from the first one are the days of the month. -/
theorem mem_days_iff (first next today : Date) (hfirst : first.day = 1)
    (hmonth : first.monthNumber = today.monthNumber) (hnext : NextMonth first next)
    (days : List Date) (hdays : days.map Date.toOrdinal =
      List.range' first.toOrdinal (daysInMonth first.year first.month)) (day : Date) :
    day ∈ days ↔ sameMonth today day = true := by
  have hbetween := hnext.between hfirst day
  rw [hmonth] at hbetween
  have hmem : day ∈ days ↔ day.toOrdinal ∈ days.map Date.toOrdinal := by
    constructor
    · exact List.mem_map_of_mem
    · intro h
      obtain ⟨other, hother, heq⟩ := List.mem_map.mp h
      exact Date.toOrdinal_injective other day heq ▸ hother
  rw [sameMonth, ← hbetween, hmem, hdays, List.mem_range'_1]
  simp only [Bool.and_eq_true, Bool.not_eq_true']
  rw [← Bool.not_eq_true, Date.before_iff, Date.before_iff, hnext.ordinal]
  omega

/-- The row of cells: padding up to the first weekday, the days, and padding to whole weeks. -/
def paddedRow (first : Date) (cells : List CalendarCell) : List (Option CalendarCell) :=
  let padded := List.replicate first.weekday none ++ cells.map some
  padded ++ List.replicate ((7 - padded.length % 7) % 7) none

theorem length_paddedRow (first : Date) (cells : List CalendarCell) :
    (paddedRow first cells).length % 7 = 0 := by
  simp only [paddedRow, List.length_append, List.length_replicate]
  omega

/-- The page made of slots that hold the sums of the month. -/
def calendarOf (flows : List (Date × Flow)) (first : Date) (cells : List CalendarCell) :
    FundCalendar where
  month := first
  topDays := ((cells.filter fun c => c.outflowsVnd ≠ 0).insertionSort
    fun a b => spentMore a b).take 3
  weeks := weeksOf (paddedRow first cells)
  inflowsVnd := (flows.map fun s => s.2.inflows).sum
  outflowsVnd := (flows.map fun s => s.2.outflows).sum

theorem faithful_calendarOf (entries : List FundRow) (today next : Date)
    (flows : List (Date × Flow)) (days : List Date) (hnext : NextMonth today.firstOfMonth next)
    (hslots : SlotsHold localDate (sameMonth today) entries flows)
    (hdays : days.map Date.toOrdinal =
      List.range' today.firstOfMonth.toOrdinal (daysInMonth today.year today.month)) :
    FaithfulMonth localDate entries today
      (calendarOf flows today.firstOfMonth (days.map (cellOf flows (peakOf flows) today)))
      (days.map (cellOf flows (peakOf flows) today)) := by
  have hwhole := length_paddedRow today.firstOfMonth
    (days.map (cellOf flows (peakOf flows) today))
  have hmem := mem_days_iff today.firstOfMonth next today rfl rfl hnext days hdays
  have hnodup : days.Nodup := by
    apply List.Nodup.of_map Date.toOrdinal
    rw [hdays]
    exact List.nodup_range'
  have hsums := @sum_of_days localDate entries today days hnodup hmem
  have hslot : ∀ day ∈ days, slotOf day flows =
      ⟨inflowsWhere localDate (fun d => decide (d = day)) entries,
        outflowsWhere localDate (fun d => decide (d = day)) entries⟩ :=
    fun day hday => hslots.slot day ((hmem day).mp hday)
  have hmonth := days_of_ordinals today.firstOfMonth rfl days hdays
  have hlength : days.length = daysInMonth today.year today.month := by
    have h := congrArg List.length hdays
    rwa [List.length_map, List.length_range'] at h
  refine ⟨⟨_, _, weeksOf_flatten _ hwhole⟩, length_of_week _ hwhole, ?_, ?_, ?_, ?_, ?_,
    ⟨?_, hslots.inflows⟩, ⟨?_, hslots.outflows⟩, ?_, ?_, ?_⟩
  · intro week hweek column cell hcell
    obtain ⟨i, hcolumn, hget⟩ := column_of_week _ week hweek column _ hcell
    exact weekday_of_column today.firstOfMonth days _ column i _ (fun _ => rfl)
      (hlength ▸ hdays) hcolumn cell hget
  · rw [List.map_map]
    exact hmonth.1
  · rw [List.forall_mem_map]
    exact hmonth.2
  · rw [List.forall_mem_map]
    intro day hday
    exact congrArg Flow.inflows (hslot day hday)
  · rw [List.forall_mem_map]
    intro day hday
    exact congrArg Flow.outflows (hslot day hday)
  · rw [List.map_map]
    refine Eq.trans ?_ (hsums.1.trans hslots.inflows.symm)
    exact congrArg List.sum
      (List.map_congr_left fun day hday => congrArg Flow.inflows (hslot day hday))
  · rw [List.map_map]
    refine Eq.trans ?_ (hsums.2.trans hslots.outflows.symm)
    exact congrArg List.sum
      (List.map_congr_left fun day hday => congrArg Flow.outflows (hslot day hday))
  · rw [List.forall_mem_map]
    intro day _
    obtain ⟨hlow, hhigh, hzero⟩ := levelOf_bounds _ _ (hslots.spent_nonneg day)
      (hslots.spent_le_peak day)
    exact ⟨hlow, hhigh, hzero.trans neg_eq_zero⟩
  · rw [List.forall_mem_map]
    intro day _ hspent hmost
    rw [List.forall_mem_map] at hmost
    have hnonneg := hslots.spent_nonneg day
    have hspent : (slotOf day flows).outflows ≠ 0 := hspent
    have hpositive : 0 < -(slotOf day flows).outflows := by omega
    have hpeak := hslots.peak_eq day
      (fun other hother => neg_le_neg (hmost other ((hmem other).mpr hother))) hpositive
    show levelOf (-(slotOf day flows).outflows) (peakOf flows) = 4
    rw [levelOf_eq _ _ hpositive hpeak.le, hpeak]
    exact quarters_peak _ (hpeak ▸ hpositive)
  · rw [List.forall_mem_map]
    intro day _
    rw [List.forall_mem_map]
    intro other _ hless
    exact levelOf_mono _ _ _ (hslots.spent_nonneg day) (neg_le_neg hless)
      (hslots.spent_le_peak other)

/-- **The fund calendar is a faithful month**, for every zone and every date whose month is not
the last one of the calendar. -/
theorem fund_calendar_is_faithful (localDate : ℤ → Option Date) (today : Date)
    (entries : List FundRow)
    (hdays : ∀ e ∈ entries, ∃ day, localDate e.recordedAt = some day) :
    (today.year = 9999 ∧ today.month = 12 →
      ∃ e, fundMonthCalendarFromEntries localDate entries today = .error e) ∧
    (¬ (today.year = 9999 ∧ today.month = 12) →
      ∃ calendar cells, fundMonthCalendarFromEntries localDate entries today = .ok calendar ∧
        FaithfulMonth localDate entries today calendar cells) := by
  constructor
  · intro hlast
    refine ⟨.overflow "date value out of range", ?_⟩
    rw [fundMonthCalendarFromEntries, nextMonth_error today.firstOfMonth rfl hlast]
    rfl
  · intro hnext
    obtain ⟨later, hlater, hmonth⟩ := nextMonth_ok today.firstOfMonth rfl hnext
    have hhave : HaveDays localDate entries := fun e he => by
      obtain ⟨day, hday⟩ := hdays e he
      rw [hday]
      rfl
    obtain ⟨flows, hflows, hslots⟩ := monthFlows_eq today.firstOfMonth later.firstOfMonth entries
      hhave
    have hin : (fun day => !day.before today.firstOfMonth && day.before later.firstOfMonth) =
        sameMonth today := by
      funext day
      exact hmonth.between rfl day
    rw [hin] at hslots
    have hcell : ∀ day, calendarCell flows (peakOf flows) today day =
        .ok (cellOf flows (peakOf flows) today day) :=
      fun day => calendarCell_ok _ _ _ _ (hslots.spent_nonneg day) (hslots.spent_le_peak day)
    have hcount : later.firstOfMonth.toOrdinal - today.firstOfMonth.toOrdinal =
        daysInMonth today.year today.month := by
      have hordinal := hmonth.ordinal
      show _ = daysInMonth today.firstOfMonth.year today.firstOfMonth.month
      omega
    obtain ⟨days, hordinals, hloop⟩ := monthCells_ok flows (peakOf flows) today later.firstOfMonth
      hcell (daysInMonth today.year today.month) today.firstOfMonth hmonth.ordinal.symm
    refine ⟨calendarOf flows today.firstOfMonth (days.map (cellOf flows (peakOf flows) today)), _,
      ?_, faithful_calendarOf entries today later.firstOfMonth flows days hmonth hslots hordinals⟩
    simp only [fundMonthCalendarFromEntries, hlater, ok_bind, hflows, hcount, hloop]
    rfl

theorem fund_calendar_is_faithful_july : ∃ calendar cells,
    fundMonthCalendarFromEntries indochinaTime sampleRows ⟨2026, 7, 20, by decide⟩ =
      .ok calendar ∧
    FaithfulMonth indochinaTime sampleRows ⟨2026, 7, 20, by decide⟩ calendar cells := by
  have hdays : ∀ e ∈ sampleRows, ∃ day, indochinaTime e.recordedAt = some day := by
    have hall : sampleRows.all (fun e => (indochinaTime e.recordedAt).isSome) = true := by
      decide +kernel
    intro e he
    exact Option.isSome_iff_exists.mp (List.all_eq_true.mp hall e he)
  exact (fund_calendar_is_faithful indochinaTime ⟨2026, 7, 20, by decide⟩ sampleRows hdays).2
    (by decide)

/-- The month after the last one of the calendar has no first day. -/
theorem fund_calendar_ends : ¬ ∀ today : Date, ∃ calendar,
    fundMonthCalendarFromEntries indochinaTime [] today = .ok calendar := by
  intro h
  obtain ⟨calendar, hcalendar⟩ := h ⟨9999, 12, 25, by decide⟩
  have herror := nextMonth_error (Date.firstOfMonth ⟨9999, 12, 25, by decide⟩) rfl ⟨rfl, rfl⟩
  rw [fundMonthCalendarFromEntries, herror] at hcalendar
  cases hcalendar

end LamTo.Analysis
