import LamTo.Analysis.FundConservation
import LamTo.Library.FilteredSums
import LamTo.Model.FundCharts

/-!
# The fund chart agrees with the ledger

The series walks the entries once, with a dictionary of slots and a seed for everything before
the window. Both are sums over the entries of a kind:

* the loop adds to each slot the amounts dated in its bucket, and to the seed those dated before
  the window (`bucketEntries_eq`);
* the buckets of a range are numbered, and the window is a run of consecutive numbers that ends
  with the bucket of today (`bucketStarts_ok`);
* so the running sum over the slots is, at each of them, the sum of everything dated up to the
  end of its bucket (`seriesPoints_eq`), and the last one is the balance of the fund.

The window has to lie in the calendar: the walk back from a date of year 1 raises.

SOURCE: src/lamto/finance/selectors.py:127-195, src/lamto/finance/fund.py:217-235
-/

set_option autoImplicit false

namespace LamTo.Analysis

open LamTo.Library LamTo.Model

/-! ## Sums by date -/

section Dated

variable (localDate : ℤ → Option Date)

/-- The entry is dated on a day of a kind. -/
def dated (p : Date → Bool) (e : FundRow) : Bool := (localDate e.recordedAt).any p

/-- The sum of the amounts dated on days of a kind. -/
def amountsWhere (p : Date → Bool) (entries : List FundRow) : ℤ :=
  sumWhere FundRow.amountVnd (dated localDate p) entries

/-- The positive ones. -/
def inflowsWhere (p : Date → Bool) (entries : List FundRow) : ℤ :=
  sumWhere FundRow.amountVnd (fun e => dated localDate p e && decide (0 < e.amountVnd)) entries

/-- The others. -/
def outflowsWhere (p : Date → Bool) (entries : List FundRow) : ℤ :=
  sumWhere FundRow.amountVnd (fun e => dated localDate p e && !decide (0 < e.amountVnd)) entries

/-- The entries have a local calendar day. -/
def HaveDays (entries : List FundRow) : Prop :=
  ∀ e ∈ entries, (localDate e.recordedAt).isSome = true

variable {localDate}

theorem amountsWhere_eq (p : Date → Bool) (entries : List FundRow) :
    amountsWhere localDate p entries =
      inflowsWhere localDate p entries + outflowsWhere localDate p entries := by
  apply sumWhere_split
  intro e _
  cases dated localDate p e <;> cases decide (0 < e.amountVnd) <;> exact ⟨rfl, rfl⟩

theorem dated_of_day (p : Date → Bool) (e : FundRow) (day : Date)
    (h : localDate e.recordedAt = some day) : dated localDate p e = p day := by
  rw [dated, h, Option.any_some]

theorem inflowsWhere_cons (p : Date → Bool) (e : FundRow) (entries : List FundRow) (day : Date)
    (h : localDate e.recordedAt = some day) :
    inflowsWhere localDate p (e :: entries) =
      (if p day = true ∧ 0 < e.amountVnd then e.amountVnd else 0) +
        inflowsWhere localDate p entries := by
  unfold inflowsWhere
  rw [sumWhere_cons, dated_of_day p e day h]
  simp only [Bool.and_eq_true, decide_eq_true_eq]

theorem outflowsWhere_cons (p : Date → Bool) (e : FundRow) (entries : List FundRow) (day : Date)
    (h : localDate e.recordedAt = some day) :
    outflowsWhere localDate p (e :: entries) =
      (if p day = true ∧ ¬ 0 < e.amountVnd then e.amountVnd else 0) +
        outflowsWhere localDate p entries := by
  unfold outflowsWhere
  rw [sumWhere_cons, dated_of_day p e day h]
  simp only [Bool.and_eq_true, Bool.not_eq_true', decide_eq_false_iff_not]

theorem amountsWhere_cons (p : Date → Bool) (e : FundRow) (entries : List FundRow) (day : Date)
    (h : localDate e.recordedAt = some day) :
    amountsWhere localDate p (e :: entries) =
      (if p day = true then e.amountVnd else 0) + amountsWhere localDate p entries := by
  unfold amountsWhere
  rw [sumWhere_cons, dated_of_day p e day h]

theorem HaveDays.uncons {e : FundRow} {entries : List FundRow}
    (h : HaveDays localDate (e :: entries)) :
    (∃ day, localDate e.recordedAt = some day) ∧ HaveDays localDate entries :=
  ⟨Option.isSome_iff_exists.mp (h e List.mem_cons_self),
    fun x hx => h x (List.mem_cons_of_mem e hx)⟩

end Dated

/-! ## The loop over the entries -/

theorem Flow.add_eq (slot : Flow) (amountVnd : ℤ) : slot.add amountVnd =
    ⟨slot.inflows + if 0 < amountVnd then amountVnd else 0,
      slot.outflows + if 0 < amountVnd then 0 else amountVnd⟩ := by
  unfold Flow.add
  split <;> simp

/-- The entry is added to the slot of `start`. -/
def lands (rangeKey : Text) (windowStart start day : Date) : Bool :=
  !day.before windowStart && decide (bucketOf rangeKey day = start)

theorem post_balance (rangeKey : Text) (windowStart : Date) (b : SeriesBuckets) (day : Date)
    (amountVnd : ℤ) : (b.post rangeKey windowStart day amountVnd).balance =
      b.balance + if day.before windowStart = true then amountVnd else 0 := by
  unfold SeriesBuckets.post
  split
  · rfl
  · split <;> simp

theorem post_flows (rangeKey : Text) (windowStart : Date) (b : SeriesBuckets) (day : Date)
    (amountVnd : ℤ) (start : Date) : (b.post rangeKey windowStart day amountVnd).flows start =
      (b.flows start).map fun slot =>
        if lands rangeKey windowStart start day = true then slot.add amountVnd else slot := by
  unfold SeriesBuckets.post lands
  cases hbefore : day.before windowStart with
  | true => simp
  | false =>
    simp only [Bool.not_false, Bool.true_and, decide_eq_true_eq, Bool.false_eq_true, if_false]
    by_cases hbucket : bucketOf rangeKey day = start
    · cases hslot : b.flows (bucketOf rangeKey day) with
      | none => simp [← hbucket, hslot]
      | some slot => simp [← hbucket, hslot]
    · cases hslot : b.flows (bucketOf rangeKey day) with
      | none => simp [hbucket]
      | some slot => simp [hbucket, Function.update_of_ne (Ne.symm hbucket)]

/-- After the loop every slot holds the amounts of its entries, and the seed those dated before
the window. -/
theorem bucketEntries_eq (localDate : ℤ → Option Date) (rangeKey : Text) (windowStart : Date)
    (entries : List FundRow) (hdays : HaveDays localDate entries) (b : SeriesBuckets) :
    ∃ b', bucketEntries localDate rangeKey windowStart b entries = .ok b' ∧
      b'.balance = b.balance +
        amountsWhere localDate (fun day => day.before windowStart) entries ∧
      ∀ start, b'.flows start = (b.flows start).map fun slot =>
        ⟨slot.inflows + inflowsWhere localDate (lands rangeKey windowStart start) entries,
          slot.outflows + outflowsWhere localDate (lands rangeKey windowStart start) entries⟩ := by
  induction entries generalizing b with
  | nil =>
    refine ⟨b, rfl, ?_, ?_⟩
    · simp [amountsWhere, sumWhere_nil]
    · simp [inflowsWhere, outflowsWhere, sumWhere_nil]
  | cons e entries ih =>
    obtain ⟨⟨day, hday⟩, hrest⟩ := hdays.uncons
    obtain ⟨b', hloop, hbalance, hflows⟩ := ih hrest (b.post rangeKey windowStart day e.amountVnd)
    refine ⟨b', ?_, ?_, ?_⟩
    · rw [← hloop, bucketEntries, List.foldlM_cons, localDay, hday]
      rfl
    · rw [hbalance, post_balance, amountsWhere_cons _ e entries day hday, add_assoc]
    · intro start
      rw [hflows, post_flows, Option.map_map, inflowsWhere_cons _ e entries day hday,
        outflowsWhere_cons _ e entries day hday]
      congr 1
      funext slot
      by_cases hlands : lands rangeKey windowStart start day = true
      · by_cases hpositive : 0 < e.amountVnd
        · simp [hlands, hpositive, Flow.add_eq, add_assoc]
        · simp [hlands, hpositive, Flow.add_eq, add_assoc]
      · simp [hlands]

/-! ## The window -/

/-- The buckets of a range, numbered from the first day or month of year 1. -/
def bucketNumber (rangeKey : Text) (day : Date) : ℕ :=
  if rangeKey = "30d".toList then day.toOrdinal else day.monthNumber

/-- The number of points of a range. -/
def pointCount (rangeKey : Text) : ℕ :=
  if rangeKey = "30d".toList then 30 else if rangeKey = "6m".toList then 6 else 12

theorem pointCount_pos (rangeKey : Text) : 0 < pointCount rangeKey := by
  unfold pointCount
  split_ifs <;> omega

theorem bucketNumber_bucketOf (rangeKey : Text) (day : Date) :
    bucketNumber rangeKey (bucketOf rangeKey day) = bucketNumber rangeKey day := by
  unfold bucketNumber bucketOf
  split
  · rfl
  · exact Date.monthNumber_firstOfMonth day

theorem bucketNumber_mono (rangeKey : Text) (day later : Date) (h : later.before day = false) :
    bucketNumber rangeKey day ≤ bucketNumber rangeKey later := by
  rw [← Bool.not_eq_true] at h
  unfold bucketNumber
  split
  · rw [Date.before_iff] at h
    omega
  · have hday := day.exists_in_calendar
    have hlater := later.exists_in_calendar
    rw [Date.before_iff_lex] at h
    unfold Date.monthNumber
    omega

/-- A day that starts its bucket. -/
def Starts (rangeKey : Text) (start : Date) : Prop := bucketOf rangeKey start = start

theorem Starts.bucketOf_eq_iff {rangeKey : Text} {start : Date} (h : Starts rangeKey start)
    (day : Date) :
    bucketOf rangeKey day = start ↔ bucketNumber rangeKey day = bucketNumber rangeKey start := by
  unfold Starts bucketOf at h
  unfold bucketOf bucketNumber
  split
  · exact ⟨congrArg Date.toOrdinal, Date.toOrdinal_injective day start⟩
  · next hkey =>
    rw [if_neg hkey] at h
    exact Date.firstOfMonth_eq_iff day start (congrArg Date.day h).symm

theorem Starts.before_iff {rangeKey : Text} {start : Date} (h : Starts rangeKey start)
    (day : Date) :
    day.before start = true ↔ bucketNumber rangeKey day < bucketNumber rangeKey start := by
  unfold Starts bucketOf at h
  unfold bucketNumber
  split
  · exact Date.before_iff day start
  · next hkey =>
    rw [if_neg hkey] at h
    exact Date.before_first_iff day start (congrArg Date.day h).symm

/-- The starts are those of consecutive buckets, `count` of them, the last one numbered `last`. -/
def Window (rangeKey : Text) (last count : ℕ) (starts : List Date) : Prop :=
  starts.map (bucketNumber rangeKey) = List.range' (last + 1 - count) count ∧
    ∀ start ∈ starts, Starts rangeKey start

theorem range_reverse_sub (n count : ℕ) (h : count ≤ n) :
    (List.range count).reverse.map (fun offset => n - offset) =
      List.range' (n + 1 - count) count := by
  apply List.ext_getElem
  · simp
  · intro i hi _
    simp only [List.length_map, List.length_reverse, List.length_range] at hi
    simp only [List.getElem_map, List.getElem_reverse, List.getElem_range, List.length_range,
      List.getElem_range', Nat.one_mul]
    omega

theorem minusDays_eq_ok (d e : Date) (n : ℕ) :
    minusDays d n = .ok e ↔ e.toOrdinal = d.toOrdinal - n := by
  rw [minusDays, orRaise_eq_ok, Date.ofOrdinal_eq_some]

theorem dailyStarts_ok (today : Date) (h : 30 ≤ today.toOrdinal) :
    ∃ starts, dailyStarts today = .ok starts ∧
      starts.map Date.toOrdinal = List.range' (today.toOrdinal + 1 - 30) 30 := by
  have hlast := Date.toOrdinal_le_last today
  have hrounds : ∀ offset ∈ (List.range 30).reverse, ∃ e, minusDays today offset = .ok e := by
    intro offset hoffset
    rw [List.mem_reverse, List.mem_range] at hoffset
    obtain ⟨e, he⟩ := Date.exists_toOrdinal (today.toOrdinal - offset) (by omega) (by omega)
    exact ⟨e, (minusDays_eq_ok today e offset).mpr he⟩
  obtain ⟨starts, hstarts⟩ := exists_mapM_ok _ _ hrounds
  refine ⟨starts, hstarts, ?_⟩
  rw [← range_reverse_sub _ _ h]
  exact map_of_mapM_ok _ _ _ _ _ (fun offset e he => (minusDays_eq_ok today e offset).mp he)
    hstarts

theorem dailyStarts_error (today : Date) (h : today.toOrdinal < 30) :
    ∃ e, dailyStarts today = .error e := by
  cases hstarts : dailyStarts today with
  | error e => exact ⟨e, rfl⟩
  | ok starts =>
    obtain ⟨start, -, hstart⟩ := (mapM_eq_ok _ _ _ hstarts).2 29 (by decide)
    rw [minusDays_eq_ok] at hstart
    have hpos := Date.toOrdinal_pos start
    omega

theorem of_first (year month : ℕ) (hyear : 1 ≤ year ∧ year ≤ 9999)
    (hmonth : 1 ≤ month ∧ month ≤ 12) : ∃ start, Date.of? year month 1 = some start ∧
      start.monthNumber = 12 * (year - 1) + month ∧ start.day = 1 := by
  have hdays := Date.daysInMonth_pos year month
  refine ⟨⟨year, month, 1, hyear, hmonth, le_rfl, by omega⟩, ?_, rfl, rfl⟩
  unfold Date.of?
  rw [dif_pos]

/-- The walk back over the months, across the turns of the years. -/
theorem monthsBack_ok (months year month : ℕ) (h : months = 0 ∨ (1 ≤ year ∧ year ≤ 9999) ∧
      (1 ≤ month ∧ month ≤ 12) ∧ months ≤ 12 * (year - 1) + month) :
    ∃ back, monthsBack months year month = .ok back ∧
      back.reverse.map Date.monthNumber =
        List.range' (12 * (year - 1) + month + 1 - months) months ∧
      ∀ start ∈ back, start.day = 1 := by
  induction months generalizing year month with
  | zero => exact ⟨[], rfl, by simp, by simp⟩
  | succ months ih =>
    obtain ⟨hyear, hmonth, hle⟩ := h.resolve_left (Nat.succ_ne_zero months)
    obtain ⟨start, hof, hnumber, hday⟩ := of_first year month hyear hmonth
    obtain ⟨back, hback, hnumbers, hdays⟩ := ih (if month - 1 = 0 then year - 1 else year)
      (if month - 1 = 0 then 12 else month - 1) (by split_ifs <;> omega)
    refine ⟨start :: back, ?_, ?_, ?_⟩
    · rw [monthsBack, hof, orRaise, ok_bind, hback]
      rfl
    · have hfrom : List.range' (12 * ((if month - 1 = 0 then year - 1 else year) - 1) +
          (if month - 1 = 0 then 12 else month - 1) + 1 - months) months =
          List.range' (12 * (year - 1) + month - months) months := by
        by_cases hzero : months = 0
        · rw [hzero]
          rfl
        · congr 1
          split_ifs <;> omega
      rw [List.reverse_cons, List.map_append, hnumbers, hfrom, List.map_singleton, hnumber,
        List.range'_concat]
      congr 2 <;> omega
    · intro s hs
      rcases List.mem_cons.mp hs with rfl | hs
      · exact hday
      · exact hdays s hs

theorem one_le_year_of_first (year month : ℕ) (start : Date)
    (h : Date.of? year month 1 = some start) : 1 ≤ year := by
  unfold Date.of? at h
  split at h
  · next hexists => exact hexists.1.1
  · cases h

/-- The walk raises where it leaves year 1; it comes to year 0 in its last month. -/
theorem monthsBack_error (months year month : ℕ) (hmonth : 1 ≤ month)
    (hyear : year = 0 → month = 12) (h : 12 * year + month < months + 12) :
    ∃ e, monthsBack months year month = .error e := by
  induction months generalizing year month with
  | zero => omega
  | succ months ih =>
    cases hof : Date.of? year month 1 with
    | none => exact ⟨_, by rw [monthsBack, hof]; rfl⟩
    | some start =>
      have hone := one_le_year_of_first year month start hof
      obtain ⟨e, he⟩ := ih (if month - 1 = 0 then year - 1 else year)
        (if month - 1 = 0 then 12 else month - 1) (by split_ifs <;> omega)
        (by split_ifs <;> omega) (by split_ifs <;> omega)
      exact ⟨e, by rw [monthsBack, hof, orRaise, ok_bind, he]; rfl⟩

theorem bucketStarts_ok (rangeKey : Text) (today : Date)
    (h : pointCount rangeKey ≤ bucketNumber rangeKey today) :
    ∃ starts, bucketStarts rangeKey today = .ok starts ∧
      Window rangeKey (bucketNumber rangeKey today) (pointCount rangeKey) starts := by
  by_cases hkey : rangeKey = "30d".toList
  · simp only [pointCount, bucketNumber, if_pos hkey] at h ⊢
    obtain ⟨starts, hstarts, hnumbers⟩ := dailyStarts_ok today h
    refine ⟨starts, by rw [bucketStarts, if_pos hkey, hstarts], ?_, fun start _ => ?_⟩
    · rw [← hnumbers]
      exact List.map_congr_left fun start _ => if_pos hkey
    · exact if_pos hkey
  · simp only [pointCount, bucketNumber, if_neg hkey] at h ⊢
    have htoday := today.exists_in_calendar
    obtain ⟨back, hback, hnumbers, hdays⟩ := monthsBack_ok
      (if rangeKey = "6m".toList then 6 else 12) today.year today.month
      (Or.inr ⟨htoday.1, htoday.2.1, h⟩)
    refine ⟨back.reverse, ?_, ?_, fun start hstart => ?_⟩
    · rw [bucketStarts, if_neg hkey, monthlyStarts, hback]
      rfl
    · rw [Date.monthNumber, ← hnumbers]
      exact List.map_congr_left fun start _ => if_neg hkey
    · rw [Starts, bucketOf, if_neg hkey]
      exact (Date.firstOfMonth_eq_iff start start (hdays start (List.mem_reverse.mp hstart))).mpr rfl

theorem bucketStarts_error (rangeKey : Text) (today : Date)
    (h : bucketNumber rangeKey today < pointCount rangeKey) :
    ∃ e, bucketStarts rangeKey today = .error e := by
  by_cases hkey : rangeKey = "30d".toList
  · simp only [pointCount, bucketNumber, if_pos hkey] at h
    rw [bucketStarts, if_pos hkey]
    exact dailyStarts_error today h
  · simp only [pointCount, bucketNumber, if_neg hkey, Date.monthNumber] at h
    have htoday := today.exists_in_calendar
    obtain ⟨e, he⟩ := monthsBack_error (if rangeKey = "6m".toList then 6 else 12) today.year
      today.month htoday.2.1.1 (by omega) (by omega)
    exact ⟨e, by rw [bucketStarts, if_neg hkey, monthlyStarts, he]; rfl⟩

/-! ## The running sum -/

section Points

variable (localDate : ℤ → Option Date) (rangeKey : Text)

/-- The day lies in the bucket of `start`. -/
def inBucket (start day : Date) : Bool :=
  decide (bucketNumber rangeKey day = bucketNumber rangeKey start)

/-- The day comes before the end of the bucket of `start`. -/
def beforeEnd (start day : Date) : Bool :=
  decide (bucketNumber rangeKey day ≤ bucketNumber rangeKey start)

/-- What the chart says about a bucket, read off the entries. -/
def chartPoint (entries : List FundRow) (start : Date) : FundPoint where
  periodStart := start
  inflowsVnd := inflowsWhere localDate (inBucket rangeKey start) entries
  outflowsVnd := outflowsWhere localDate (inBucket rangeKey start) entries
  balanceVnd := amountsWhere localDate (beforeEnd rangeKey start) entries

variable {localDate rangeKey}

/-- The running sum over consecutive buckets, from the sum of everything dated before them. -/
theorem seriesPoints_eq (entries : List FundRow) (flows : Date → Option Flow) (lowest count : ℕ)
    (starts : List Date)
    (hnumbers : starts.map (bucketNumber rangeKey) = List.range' lowest count)
    (hflows : ∀ start ∈ starts, flows start =
      some ⟨inflowsWhere localDate (inBucket rangeKey start) entries,
        outflowsWhere localDate (inBucket rangeKey start) entries⟩) :
    seriesPoints flows starts
        (amountsWhere localDate (fun day => decide (bucketNumber rangeKey day < lowest)) entries) =
      .ok (starts.map (chartPoint localDate rangeKey entries)) := by
  induction starts generalizing lowest count with
  | nil => rfl
  | cons start starts ih =>
    obtain ⟨count, rfl⟩ : ∃ k, count = k + 1 := by
      cases count with
      | zero => cases hnumbers
      | succ k => exact ⟨k, rfl⟩
    rw [List.map_cons, List.range'_succ, List.cons.injEq] at hnumbers
    obtain ⟨hstart, hrest⟩ := hnumbers
    have hbalance : amountsWhere localDate (fun day => decide (bucketNumber rangeKey day < lowest))
          entries + (inflowsWhere localDate (inBucket rangeKey start) entries +
            outflowsWhere localDate (inBucket rangeKey start) entries) =
        amountsWhere localDate (fun day => decide (bucketNumber rangeKey day < lowest + 1))
          entries := by
      rw [← amountsWhere_eq]
      refine (sumWhere_split _ _ _ _ _ fun e _ => ?_).symm
      unfold dated inBucket
      cases localDate e.recordedAt with
      | none => exact ⟨rfl, rfl⟩
      | some day =>
        simp only [Option.any_some, hstart, Bool.and_eq_false_iff, decide_eq_false_iff_not]
        constructor
        · rw [← Bool.decide_or, decide_eq_decide]
          omega
        · omega
    have hpoint : amountsWhere localDate (fun day => decide (bucketNumber rangeKey day < lowest + 1))
        entries = (chartPoint localDate rangeKey entries start).balanceVnd := by
      show amountsWhere localDate _ entries = amountsWhere localDate _ entries
      congr 1
      funext day
      rw [beforeEnd, hstart, decide_eq_decide]
      omega
    rw [seriesPoints, hflows start List.mem_cons_self]
    simp only [orRaise, ok_bind]
    rw [hbalance, ih (lowest + 1) count hrest fun s hs => hflows s (List.mem_cons_of_mem _ hs),
      hpoint]
    rfl

/-- The numbers of a window's buckets. -/
theorem Window.mem {last count : ℕ} {starts : List Date} (h : Window rangeKey last count starts)
    (start : Date) (hstart : start ∈ starts) : last + 1 - count ≤ bucketNumber rangeKey start := by
  have hmem : bucketNumber rangeKey start ∈ starts.map (bucketNumber rangeKey) :=
    List.mem_map_of_mem hstart
  rw [h.1, List.mem_range'_1] at hmem
  exact hmem.1

theorem Window.head {last count : ℕ} {starts : List Date} (h : Window rangeKey last count starts)
    (hcount : 0 < count) : ∃ first, starts.head? = some first ∧ first ∈ starts ∧
      bucketNumber rangeKey first = last + 1 - count := by
  obtain ⟨k, rfl⟩ := Nat.exists_eq_succ_of_ne_zero hcount.ne'
  cases starts with
  | nil => cases h.1
  | cons first starts =>
    have hnumbers := h.1
    rw [List.map_cons, List.range'_succ, List.cons.injEq] at hnumbers
    exact ⟨first, rfl, List.mem_cons_self, hnumbers.1⟩

theorem Window.getLast {last count : ℕ} {starts : List Date}
    (h : Window rangeKey last count starts) (hcount : 0 < count) (hle : count ≤ last + 1) :
    ∃ final, starts.getLast? = some final ∧ bucketNumber rangeKey final = last := by
  obtain ⟨k, rfl⟩ := Nat.exists_eq_succ_of_ne_zero hcount.ne'
  have hlast := congrArg List.getLast? h.1
  rw [List.getLast?_map, List.range'_concat, List.getLast?_concat] at hlast
  obtain ⟨final, hfinal, hnumber⟩ := Option.map_eq_some_iff.mp hlast
  exact ⟨final, hfinal, by omega⟩

/-- Within the window an entry lands in the slot of its bucket. -/
theorem lands_eq_inBucket {last count : ℕ} {starts : List Date}
    (h : Window rangeKey last count starts) (first start : Date) (hfirst : first ∈ starts)
    (hnumber : bucketNumber rangeKey first = last + 1 - count) (hstart : start ∈ starts) :
    lands rangeKey first start = inBucket rangeKey start := by
  funext day
  have hle := h.mem start hstart
  unfold lands inBucket
  rw [Bool.eq_iff_iff]
  simp only [Bool.and_eq_true, Bool.not_eq_true', decide_eq_true_eq]
  rw [← Bool.not_eq_true, (h.2 first hfirst).before_iff, (h.2 start hstart).bucketOf_eq_iff]
  omega

/-- The points of the series are read off the entries. -/
theorem fundSeriesFromEntries_eq (entries : List FundRow) (today : Date) (starts : List Date)
    (hkey : fundSeriesRangeKeys.contains rangeKey = true)
    (hstarts : bucketStarts rangeKey today = .ok starts) {last count : ℕ}
    (hwindow : Window rangeKey last count starts) (hcount : 0 < count)
    (hdays : HaveDays localDate entries) :
    fundSeriesFromEntries localDate entries rangeKey today =
      .ok (starts.map (chartPoint localDate rangeKey entries)) := by
  obtain ⟨first, hhead, hfirst, hnumber⟩ := hwindow.head hcount
  obtain ⟨b, hloop, hbalance, hflows⟩ := bucketEntries_eq localDate rangeKey first entries hdays
    (SeriesBuckets.start starts)
  have hseed : b.balance = amountsWhere localDate
      (fun day => decide (bucketNumber rangeKey day < last + 1 - count)) entries := by
    rw [hbalance]
    show 0 + amountsWhere localDate _ entries = _
    rw [zero_add]
    congr 1
    funext day
    rw [← hnumber, Bool.eq_iff_iff, (hwindow.2 first hfirst).before_iff, decide_eq_true_eq]
  have hslots : ∀ start ∈ starts, b.flows start =
      some ⟨inflowsWhere localDate (inBucket rangeKey start) entries,
        outflowsWhere localDate (inBucket rangeKey start) entries⟩ := by
    intro start hstart
    rw [hflows, lands_eq_inBucket hwindow first start hfirst hnumber hstart]
    simp only [SeriesBuckets.start, List.contains_eq_mem, hstart, decide_true, if_true,
      Option.map_some, zero_add]
  rw [fundSeriesFromEntries, require_true _ _ hkey, ok_bind, hstarts, ok_bind, hhead]
  simp only [orRaise, ok_bind]
  rw [hloop, ok_bind, hseed]
  exact seriesPoints_eq entries b.flows _ _ starts hwindow.1 hslots

/-- The order of the entries does not matter. -/
theorem chartPoint_perm (entries entries' : List FundRow) (h : entries'.Perm entries) :
    chartPoint localDate rangeKey entries' = chartPoint localDate rangeKey entries := by
  funext start
  unfold chartPoint inflowsWhere outflowsWhere amountsWhere
  rw [sumWhere_perm _ _ _ _ h, sumWhere_perm _ _ _ _ h, sumWhere_perm _ _ _ _ h]

end Points

/-! ## The balance of the fund -/

theorem counted_verified (db : Db) (building : ℕ) :
    verifiedFundEntries db building = db.fundEntries.rows.filter (counted db building true) := by
  apply List.filter_congr
  intro r _
  unfold counted buildingOf
  congr 1
  cases db.funds.get? r.2.fund with
  | none => simp
  | some f => simp

/-- The balance counts the rows of the chart. -/
theorem fundBalance_verified (db : Db) (building : ℕ) (balance : ℤ)
    (hunique : ∀ pk f pk' f', db.funds.get? pk = some f → db.funds.get? pk' = some f' →
      f.building = f'.building → pk = pk')
    (h : fundBalance db building true = .ok balance) :
    balance = (((verifiedFundEntries db building).map fundRow).map FundRow.amountVnd).sum := by
  have hbuilding : (db.buildings.get? building).isSome = true := by
    simp only [fundBalance, bind_eq_ok, require_eq_ok] at h
    obtain ⟨-, -, -, hsome, -⟩ := h
    exact hsome
  rw [fundBalance_eq_of_unique hunique building hbuilding] at h
  rw [← Except.ok.inj h, counted_verified, List.map_map]
  rfl

/-! ## The chart and the ledger -/

/-- **The fund chart agrees with the ledger**, for every zone, as long as the window starts in
year 1 or later. -/
theorem fund_chart_agrees_with_ledger (localDate : ℤ → Option Date) (rangeKey : Text)
    (today : Date) (entries : List FundRow)
    (hkey : fundSeriesRangeKeys.contains rangeKey = true)
    (hdated : ∀ e ∈ entries, ∃ day, localDate e.recordedAt = some day ∧
      today.before day = false) :
    (bucketNumber rangeKey today < pointCount rangeKey →
      ∃ e, fundSeriesFromEntries localDate entries rangeKey today = .error e) ∧
    (pointCount rangeKey ≤ bucketNumber rangeKey today →
      ∃ points, fundSeriesFromEntries localDate entries rangeKey today = .ok points ∧
        points.length = pointCount rangeKey ∧
        (points.map fun p => bucketNumber rangeKey p.periodStart) =
          List.range' (bucketNumber rangeKey today + 1 - pointCount rangeKey)
            (pointCount rangeKey) ∧
        (∀ p ∈ points, ∀ day, bucketNumber rangeKey day = bucketNumber rangeKey p.periodStart →
          day.before p.periodStart = false) ∧
        (∀ p ∈ points,
          p.inflowsVnd = inflowsWhere localDate (inBucket rangeKey p.periodStart) entries ∧
          p.outflowsVnd = outflowsWhere localDate (inBucket rangeKey p.periodStart) entries ∧
          p.balanceVnd = amountsWhere localDate (beforeEnd rangeKey p.periodStart) entries) ∧
        points.getLast?.map FundPoint.balanceVnd = some (entries.map FundRow.amountVnd).sum ∧
        (∀ entries', entries'.Perm entries →
          fundSeriesFromEntries localDate entries' rangeKey today = .ok points) ∧
        ∀ (db : Db) (building : ℕ) (balance : ℤ),
          (∀ pk f pk' f', db.funds.get? pk = some f → db.funds.get? pk' = some f' →
            f.building = f'.building → pk = pk') →
          entries.Perm ((verifiedFundEntries db building).map fundRow) →
          fundBalance db building true = .ok balance →
          points.getLast?.map FundPoint.balanceVnd = some balance) := by
  constructor
  · intro hshort
    obtain ⟨e, he⟩ := bucketStarts_error rangeKey today hshort
    exact ⟨e, by rw [fundSeriesFromEntries, require_true _ _ hkey, ok_bind, he]; rfl⟩
  · intro hlong
    have hdays : HaveDays localDate entries := fun e he => by
      obtain ⟨day, hday, -⟩ := hdated e he
      rw [hday]
      rfl
    have hcount := pointCount_pos rangeKey
    obtain ⟨starts, hstarts, hwindow⟩ := bucketStarts_ok rangeKey today hlong
    obtain ⟨final, hfinal, hnumber⟩ := hwindow.getLast hcount (by omega)
    have hlast : (starts.map (chartPoint localDate rangeKey entries)).getLast?.map
        FundPoint.balanceVnd = some (entries.map FundRow.amountVnd).sum := by
      rw [List.getLast?_map, hfinal]
      refine congrArg some (sumWhere_all _ _ _ fun e he => ?_)
      obtain ⟨day, hday, hnot⟩ := hdated e he
      rw [dated_of_day _ e day hday, beforeEnd, hnumber, decide_eq_true_eq]
      exact bucketNumber_mono rangeKey day today hnot
    refine ⟨_, fundSeriesFromEntries_eq entries today starts hkey hstarts hwindow hcount hdays,
      ?_, ?_, ?_, ?_, hlast, ?_, ?_⟩
    · have hlength := congrArg List.length hwindow.1
      rw [List.length_map, List.length_range'] at hlength
      rw [List.length_map, hlength]
    · rw [List.map_map]
      exact hwindow.1
    · intro p hp day hday
      obtain ⟨start, hstart, rfl⟩ := List.mem_map.mp hp
      rw [← Bool.not_eq_true]
      show ¬ day.before start = true
      rw [(hwindow.2 start hstart).before_iff]
      exact hday.not_lt
    · intro p hp
      obtain ⟨start, hstart, rfl⟩ := List.mem_map.mp hp
      exact ⟨rfl, rfl, rfl⟩
    · intro entries' hperm
      have hdays' : HaveDays localDate entries' := fun e he => hdays e (hperm.mem_iff.mp he)
      rw [fundSeriesFromEntries_eq entries' today starts hkey hstarts hwindow hcount hdays',
        chartPoint_perm entries entries' hperm]
    · intro db building balance hunique hrows hbalance
      rw [hlast, fundBalance_verified db building balance hunique hbalance,
        (hrows.map FundRow.amountVnd).sum_eq]

/-- The zone of the site, as it has been since 1975. -/
def indochinaTime (recordedAt : ℤ) : Option Date :=
  Date.ofOrdinal ((recordedAt + 25200000000) / 86400000000 + 719163).toNat

/-- A row before the window, one in it, and one that is in July by the local calendar only. -/
def sampleRows : List FundRow :=
  [⟨1765324800000000, .openingBalance, 80000000⟩, ⟨1772668800000000, .inflow, 20000000⟩,
    ⟨1782842400000000, .outflow, -15000000⟩]

theorem fund_chart_agrees_with_ledger_july : ∃ points,
    fundSeriesFromEntries indochinaTime sampleRows "6m".toList ⟨2026, 7, 20, by decide⟩ =
      .ok points ∧ points.length = 6 ∧
    points.getLast?.map FundPoint.balanceVnd = some 85000000 := by
  have hdated : ∀ e ∈ sampleRows, ∃ day, indochinaTime e.recordedAt = some day ∧
      Date.before ⟨2026, 7, 20, by decide⟩ day = false := by
    refine List.forall_mem_cons.mpr ⟨⟨⟨2025, 12, 10, by decide⟩, by decide +kernel, by decide⟩,
      List.forall_mem_cons.mpr ⟨⟨⟨2026, 3, 5, by decide⟩, by decide +kernel, by decide⟩,
        List.forall_mem_cons.mpr ⟨⟨⟨2026, 7, 1, by decide⟩, by decide +kernel, by decide⟩, ?_⟩⟩⟩
    intro e he
    cases he
  obtain ⟨points, hpoints, hlength, -, -, -, hlast, -⟩ := (fund_chart_agrees_with_ledger
    indochinaTime "6m".toList ⟨2026, 7, 20, by decide⟩ sampleRows (by decide) hdated).2 (by decide)
  exact ⟨points, hpoints, hlength, hlast⟩

/-- The window of a date in the first month of year 1 leaves the calendar. -/
theorem fund_chart_outside_calendar : ¬ ∀ today : Date, ∃ points,
    fundSeriesFromEntries indochinaTime [] "30d".toList today = .ok points := by
  intro h
  obtain ⟨points, hpoints⟩ := h ⟨1, 1, 5, by decide⟩
  have herror : fundSeriesFromEntries indochinaTime [] "30d".toList ⟨1, 1, 5, by decide⟩ =
      .error (.overflow "date value out of range") := by rfl
  rw [herror] at hpoints
  cases hpoints

end LamTo.Analysis
