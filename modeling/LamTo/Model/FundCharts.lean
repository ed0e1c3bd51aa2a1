import LamTo.Library.DayNumbers
import LamTo.Model.Settlements
import Mathlib.Logic.Function.Basic

/-!
# The charts of the maintenance fund

The embedding of the two pure cores behind the fund pages: the series of balances by day or
by month, and the calendar of one month with its levels of spending. Both bucket the rows of
the fund by the local calendar day of `recorded_at`.

* The zone of the site is a parameter: `localDate` is `timezone.localtime(...).date()`, with
  no value where the shifted moment leaves the years 1 to 9999.
* A dictionary keyed by dates is a function to an optional slot; the calendar's, which is
  filled as days occur and summed over, is a list of pairs.

SOURCE: src/lamto/finance/selectors.py:91-95, 124-251
-/

set_option autoImplicit false

namespace LamTo.Model

open LamTo.Library

/-- What a date computation raises. -/
inductive ChartError where
  | value (message : String)
  | overflow (message : String)
  | index (message : String)
  | key (missing : Date)
  | zeroDivision (message : String)
deriving DecidableEq

/-- The row `(recorded_at, entry_type, amount_vnd)`; the moment counts microseconds since the
first day of 1970, in UTC. -/
structure FundRow where
  recordedAt : ℤ
  entryType : EntryType
  amountVnd : ℤ
deriving DecidableEq

/-- The pair `[inflows, outflows]` of a slot. -/
structure Flow where
  inflows : ℤ
  outflows : ℤ
deriving DecidableEq

/-- `slot[0 if amount_vnd > 0 else 1] += amount_vnd` -/
def Flow.add (slot : Flow) (amountVnd : ℤ) : Flow :=
  if 0 < amountVnd then { slot with inflows := slot.inflows + amountVnd }
  else { slot with outflows := slot.outflows + amountVnd }

/-- `d - timedelta(days=n)` -/
def minusDays (d : Date) (n : ℕ) : Except ChartError Date :=
  orRaise (Date.ofOrdinal (d.toOrdinal - n)) (.overflow "date value out of range")

/-- `d + timedelta(days=n)` -/
def plusDays (d : Date) (n : ℕ) : Except ChartError Date :=
  orRaise (Date.ofOrdinal (d.toOrdinal + n)) (.overflow "date value out of range")

/-! ## The series -/

/-- `FUND_SERIES_RANGE_KEYS` -/
def fundSeriesRangeKeys : List Text := ["30d".toList, "6m".toList, "12m".toList]

/-- The days of the window, oldest first. SOURCE: selectors.py:139 -/
def dailyStarts (today : Date) : Except ChartError (List Date) :=
  (List.range 30).reverse.mapM (minusDays today)

/-- The months walked backward from one, latest first. SOURCE: selectors.py:145-151 -/
def monthsBack : ℕ → ℕ → ℕ → Except ChartError (List Date)
  | 0, _, _ => return []
  | months + 1, year, month => do
    let start ← orRaise (Date.of? year month 1) (.value "year 0 is out of range")
    let earlier ← monthsBack months (if month - 1 = 0 then year - 1 else year)
      (if month - 1 = 0 then 12 else month - 1)
    return start :: earlier

def monthlyStarts (months : ℕ) (today : Date) : Except ChartError (List Date) := do
  let back ← monthsBack months today.year today.month
  return back.reverse

/-- `bucket_of` of a range. SOURCE: selectors.py:141, 154 -/
def bucketOf (rangeKey : Text) (day : Date) : Date :=
  if rangeKey = "30d".toList then day else day.firstOfMonth

def bucketStarts (rangeKey : Text) (today : Date) : Except ChartError (List Date) :=
  if rangeKey = "30d".toList then dailyStarts today
  else monthlyStarts (if rangeKey = "6m".toList then 6 else 12) today

/-- The slots of the window, and the balance before it. -/
structure SeriesBuckets where
  flows : Date → Option Flow
  balance : ℤ

/-- `flows = {start: [0, 0] for start in starts}` with `balance = 0`. -/
def SeriesBuckets.start (starts : List Date) : SeriesBuckets where
  flows day := if starts.contains day then some ⟨0, 0⟩ else none
  balance := 0

/-- One entry: before the window, in a slot of it, or after it. SOURCE: selectors.py:161-167 -/
def SeriesBuckets.post (rangeKey : Text) (windowStart : Date) (b : SeriesBuckets) (day : Date)
    (amountVnd : ℤ) : SeriesBuckets :=
  if day.before windowStart then { b with balance := b.balance + amountVnd }
  else
    match b.flows (bucketOf rangeKey day) with
    | none => b
    | some slot =>
      { b with
        flows := Function.update b.flows (bucketOf rangeKey day) (some (slot.add amountVnd)) }

structure FundPoint where
  periodStart : Date
  inflowsVnd : ℤ
  outflowsVnd : ℤ
  balanceVnd : ℤ
deriving DecidableEq

/-- The running sum over the starts. SOURCE: selectors.py:169-179 -/
def seriesPoints (flows : Date → Option Flow) : List Date → ℤ → Except ChartError (List FundPoint)
  | [], _ => return []
  | start :: starts, balance => do
    let slot ← orRaise (flows start) (.key start)
    let balance := balance + (slot.inflows + slot.outflows)
    let points ← seriesPoints flows starts balance
    return ⟨start, slot.inflows, slot.outflows, balance⟩ :: points

section Charts

variable (localDate : ℤ → Option Date)

/-- `timezone.localtime(recorded_at).date()` -/
def localDay (recordedAt : ℤ) : Except ChartError Date :=
  orRaise (localDate recordedAt) (.overflow "date value out of range")

/-- The loop over the entries. SOURCE: selectors.py:160-167 -/
def bucketEntries (rangeKey : Text) (windowStart : Date) (b : SeriesBuckets) (entries : List FundRow) :
    Except ChartError SeriesBuckets :=
  entries.foldlM (fun b e => do
    let day ← localDay localDate e.recordedAt
    return b.post rangeKey windowStart day e.amountVnd) b

/-- `fund_series_from_entries`. SOURCE: selectors.py:127-180 -/
def fundSeriesFromEntries (entries : List FundRow) (rangeKey : Text) (today : Date) :
    Except ChartError (List FundPoint) := do
  require (fundSeriesRangeKeys.contains rangeKey = true)
    (ChartError.value "range_key must be one of ('30d', '6m', '12m')")
  let starts ← bucketStarts rangeKey today
  let windowStart ← orRaise starts.head? (.index "list index out of range")
  let buckets ← bucketEntries localDate rangeKey windowStart (SeriesBuckets.start starts) entries
  seriesPoints buckets.flows starts buckets.balance

end Charts

/-! ## The rows -/

/-- `verified_fund_entries`. SOURCE: selectors.py:91-95 -/
def verifiedFundEntries (db : Db) (building : ℕ) : List (ℕ × MaintenanceFundEntry) :=
  db.fundEntries.rows.filter fun r =>
    (db.funds.get? r.2.fund).any (fun f => f.building = building) &&
      (sourceVerified db r.1 r.2 || finalizedPosting db r.2)

/-- `values_list("recorded_at", "entry_type", "amount_vnd")` -/
def fundRow (r : ℕ × MaintenanceFundEntry) : FundRow where
  recordedAt := r.2.recordedAt
  entryType := r.2.entryType
  amountVnd := r.2.amountVnd

/-- `fund_series`; `today` is `timezone.localdate()`. SOURCE: selectors.py:183-195 -/
def fundSeries (localDate : ℤ → Option Date) (db : Db) (building : ℕ) (rangeKey : Text)
    (today : Date) : Except ChartError (List FundPoint) :=
  fundSeriesFromEntries localDate ((verifiedFundEntries db building).map fundRow) rangeKey today

/-! ## The calendar -/

/-- `flows.setdefault(day, [0, 0])`, and the amount added to the slot. -/
def addToDay (day : Date) (amountVnd : ℤ) : List (Date × Flow) → List (Date × Flow)
  | [] => [(day, Flow.add ⟨0, 0⟩ amountVnd)]
  | (other, slot) :: flows =>
    if other = day then (other, slot.add amountVnd) :: flows
    else (other, slot) :: addToDay day amountVnd flows

/-- The slot of a day, or the empty one. -/
def slotOf (day : Date) (flows : List (Date × Flow)) : Flow :=
  ((flows.find? fun s => s.1 = day).map Prod.snd).getD ⟨0, 0⟩

structure CalendarCell where
  date : Date
  day : ℕ
  inflowsVnd : ℤ
  outflowsVnd : ℤ
  level : ℤ
  isToday : Bool
  isFuture : Bool
deriving DecidableEq

/-- `0 if not spent else max(1, -(-4 * spent // peak))` -/
def spendingLevel (spent peak : ℤ) : Except ChartError ℤ :=
  if spent = 0 then return 0
  else do
    require (peak ≠ 0) (ChartError.zeroDivision "integer division or modulo by zero")
    return max 1 (-(Int.fdiv (-4 * spent) peak))

def calendarCell (flows : List (Date × Flow)) (peak : ℤ) (today day : Date) :
    Except ChartError CalendarCell := do
  let slot := slotOf day flows
  let level ← spendingLevel (-slot.outflows) peak
  return {
    date := day
    day := day.day
    inflowsVnd := slot.inflows
    outflowsVnd := slot.outflows
    level
    isToday := day = today
    isFuture := today.before day }

/-- The loop over the days; the bound is the number of days to go.
SOURCE: selectors.py:219-232 -/
def monthCells (flows : List (Date × Flow)) (peak : ℤ) (today nextMonth : Date) :
    ℕ → Date → Except ChartError (List CalendarCell)
  | 0, _ => return []
  | days + 1, day =>
    if day.before nextMonth then do
      let cell ← calendarCell flows peak today day
      let cells ← monthCells flows peak today nextMonth days (← plusDays day 1)
      return cell :: cells
    else return []

/-- `[cells[i : i + 7] for i in range(0, len(cells), 7)]` -/
def weeksOf {α : Type} (cells : List α) : List (List α) :=
  (List.range ((cells.length + 6) / 7)).map fun i => (cells.drop (7 * i)).take 7

/-- The order of the days spent on: most spent first, then by date. -/
def spentMore (a b : CalendarCell) : Bool :=
  a.outflowsVnd < b.outflowsVnd || (a.outflowsVnd = b.outflowsVnd && !b.date.before a.date)

structure FundCalendar where
  month : Date
  topDays : List CalendarCell
  weeks : List (List (Option CalendarCell))
  inflowsVnd : ℤ
  outflowsVnd : ℤ

/-- The slots of the month's days. SOURCE: selectors.py:209-214 -/
def monthFlows (localDate : ℤ → Option Date) (first nextMonth : Date) (entries : List FundRow) :
    Except ChartError (List (Date × Flow)) :=
  entries.foldlM (fun flows e => do
    let day ← localDay localDate e.recordedAt
    if !day.before first && day.before nextMonth then return addToDay day e.amountVnd flows
    else return flows) []

/-- `max((-out for _in, out in flows.values()), default=0)` -/
def peakOf : List (Date × Flow) → ℤ
  | [] => 0
  | (_, slot) :: flows => flows.foldl (fun peak s => max peak (-s.2.outflows)) (-slot.outflows)

/-- `fund_month_calendar_from_entries`. SOURCE: selectors.py:198-243 -/
def fundMonthCalendarFromEntries (localDate : ℤ → Option Date) (entries : List FundRow)
    (today : Date) : Except ChartError FundCalendar := do
  let first := today.firstOfMonth
  let later ← plusDays first 32
  let nextMonth := later.firstOfMonth
  let flows ← monthFlows localDate first nextMonth entries
  let days ← monthCells flows (peakOf flows) today nextMonth
    (nextMonth.toOrdinal - first.toOrdinal) first
  let padded := List.replicate first.weekday none ++ days.map some
  let cells := padded ++ List.replicate ((7 - padded.length % 7) % 7) none
  let spentDays := (days.filter fun c => c.outflowsVnd ≠ 0).insertionSort fun a b => spentMore a b
  return {
    month := first
    topDays := spentDays.take 3
    weeks := weeksOf cells
    inflowsVnd := (flows.map fun s => s.2.inflows).sum
    outflowsVnd := (flows.map fun s => s.2.outflows).sum }

end LamTo.Model
