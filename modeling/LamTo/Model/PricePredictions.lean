import LamTo.Library.Binary64
import LamTo.Model.Maintenance

/-!
# Price comparisons

The embedding of `finance/ai.py`, `finance/reference_prices.py` and `finance/predictions.py`: a
provider is asked for a price band, its answer is checked, a failure of any kind falls back to
the reference price of the category, and the comparison with the amount is recorded.

* A Python text is its code points. A JSON text can spell a lone surrogate, which no column
  holds, so `Text` would be too narrow here.
* `json.loads` is the parameter `loads`, any function. The call of the provider is given by its
  outcome: the bytes that were read, or an exception of what builds and sends the request.
* Translated texts are the parameter `ActiveLocale`.
* The log lines are left out, and with them the exceptions that are written there alone: inside
  the guard the messages are the ones of the source, less the parts they interpolate.

SOURCE: src/lamto/finance/{ai,predictions,reference_prices}.py, finance/models/predictions.py
-/

set_option autoImplicit false

namespace LamTo.Model

open LamTo.Library

/-! ## Python texts -/

/-- A `str`: code points, surrogates included. -/
abbrev PyText := List ℕ

def pyText (s : String) : PyText := s.toList.map Char.toNat

/-- `str.isspace()` of one character. -/
def isPySpace (c : ℕ) : Bool :=
  (9 ≤ c && c ≤ 13) || (28 ≤ c && c ≤ 32) || c = 0x85 || c = 0xA0 || c = 0x1680 ||
    (0x2000 ≤ c && c ≤ 0x200A) || c = 0x2028 || c = 0x2029 || c = 0x202F || c = 0x205F || c = 0x3000

/-- `str.strip()` -/
def pyStrip (t : PyText) : PyText := (t.dropWhile isPySpace).rdropWhile isPySpace

/-- Where `str.splitlines()` ends a line; `\r\n` ends one line. -/
def isLineEnd (c : ℕ) : Bool :=
  (10 ≤ c && c ≤ 13) || (28 ≤ c && c ≤ 30) || c = 0x85 || c = 0x2028 || c = 0x2029

/-- `str.splitlines()`, the line that is being read given in reverse. -/
def splitLinesFrom : PyText → PyText → List PyText
  | [], [] => []
  | line, [] => [line.reverse]
  | line, 13 :: 10 :: cs => line.reverse :: splitLinesFrom [] cs
  | line, c :: cs =>
    if isLineEnd c then line.reverse :: splitLinesFrom [] cs else splitLinesFrom (c :: line) cs

/-- `"\n".join(lines)` -/
def joinLines (lines : List PyText) : PyText := [10].intercalate lines

/-- What `json.loads` returns. Of a float nothing is used but whether it is zero. -/
inductive Decoded where
  | none
  | bool (b : Bool)
  | int (i : ℤ)
  | float (isZero : Bool)
  | str (s : PyText)
  | list (xs : List Decoded)
  | dict (ms : List (PyText × Decoded))

/-- How `json.loads` fails: with a `JSONDecodeError`, or with another exception. -/
inductive LoadsError where
  | decode
  | raised
deriving DecidableEq

/-- `bool(value)` -/
def Decoded.truthy : Decoded → Bool
  | .none => false
  | .bool b => b
  | .int i => i ≠ 0
  | .float isZero => !isZero
  | .str s => !s.isEmpty
  | .list xs => !xs.isEmpty
  | .dict ms => !ms.isEmpty

/-- `ms.get(key)` -/
def dictGet (key : String) (ms : List (PyText × Decoded)) : Option Decoded :=
  (ms.find? fun m => m.1 = pyText key).map Prod.snd

/-! ## The answer of the provider -/

/-- `PricePredictionValidationError`, or another exception inside the guard. -/
inductive ProviderError where
  | validation (message : String)
  | raised
deriving DecidableEq

/-- `lines[1:]` and `lines[:-1]` of a fenced text, and the text between. SOURCE: ai.py:142-148 -/
def unfenced (cleaned : PyText) : PyText :=
  if (pyText "```").isPrefixOf cleaned then
    let lines := splitLinesFrom [] cleaned
    let lines := if (lines.head?.any fun l => (pyText "```").isPrefixOf l) then lines.tail else lines
    let lines :=
      if (lines.getLast?.any fun l => (pyText "```").isPrefixOf l) then lines.dropLast else lines
    pyStrip (joinLines lines)
  else cleaned

/-- `envelope["choices"][0]["message"]` -/
def firstMessage (envelope : List (PyText × Decoded)) : Option Decoded := do
  let .list (.dict choice :: _) ← dictGet "choices" envelope | none
  dictGet "message" choice

/-- `_extract_prediction`. SOURCE: ai.py:119-155 -/
def extractPrediction (loads : PyText → Except LoadsError Decoded) :
    Decoded → Except ProviderError (PyText × Decoded)
  | .dict envelope => do
    let .str (first :: rest) := (dictGet "id" envelope).getD .none
      | throw (.validation "provider envelope is missing id")
    require ((first :: rest).length ≤ 255)
      (ProviderError.validation "provider envelope id exceeds 255 characters")
    let choice ← orRaise (firstMessage envelope) (.validation "missing choices/message")
    -- a message that is not an object has no `get`
    let .dict choice := choice | throw .raised
    require (((dictGet "refusal" choice).any Decoded.truthy) = false)
      (ProviderError.validation "model refused")
    let .str content := (dictGet "content" choice).getD .none
      | throw (.validation "provider message content is empty")
    require (pyStrip content ≠ []) (ProviderError.validation "provider message content is empty")
    let parsed ← (loads (unfenced (pyStrip content))).mapError fun
      | .decode => .validation "invalid JSON in content"
      | .raised => .raised
    return (first :: rest, parsed)
  | _ => throw (.validation "provider envelope is not an object")

/-- The figures and the reasoning of a checked answer. -/
structure Validated where
  minimumVnd : ℕ
  centralVnd : ℕ
  maximumVnd : ℕ
  reasoning : PyText
deriving DecidableEq

/-- `RESPONSE_KEYS` -/
def responseKeys : List PyText :=
  [pyText "minimum_vnd", pyText "central_vnd", pyText "maximum_vnd", pyText "reasoning"]

/-- The check of one figure; a `bool` is not an `int` here. SOURCE: ai.py:162-165 -/
def positiveFigure (payload : List (PyText × Decoded)) (key : String) : Except ProviderError ℕ :=
  match dictGet key payload with
  | some (.int i) => do
    require (0 < i) (ProviderError.validation ("response " ++ key ++ " must be a positive integer"))
    return i.toNat
  | _ => throw (.validation ("response " ++ key ++ " must be a positive integer"))

/-- `_validate_response`. SOURCE: ai.py:158-176 -/
def validateResponse : Decoded → Except ProviderError Validated
  | .dict payload => do
    require ((payload.map Prod.fst) ⊆ responseKeys ∧ responseKeys ⊆ payload.map Prod.fst)
      (ProviderError.validation "response keys do not match the contract")
    let minimum ← positiveFigure payload "minimum_vnd"
    let central ← positiveFigure payload "central_vnd"
    let maximum ← positiveFigure payload "maximum_vnd"
    require (minimum ≤ central ∧ central ≤ maximum)
      (ProviderError.validation "response band figures are out of order")
    let .str reasoning := (dictGet "reasoning" payload).getD .none
      | throw (.validation "response reasoning must be a non-empty string")
    require (pyStrip reasoning ≠ [])
      (ProviderError.validation "response reasoning must be a non-empty string")
    require (reasoning.length ≤ 1000)
      (ProviderError.validation "response reasoning exceeds 1000 characters")
    return ⟨minimum, central, maximum, reasoning⟩
  | _ => throw (.validation "response keys do not match the contract")

/-- What the call of the provider ends with: the body of its answer, or an exception. -/
abbrev ProviderCall := Except ProviderError (List UInt8)

/-- The guarded part of `get_price_band_for_case`. SOURCE: ai.py:197-218 -/
def providerAnswer (loads : PyText → Except LoadsError Decoded) (call : ProviderCall) :
    Except ProviderError Validated := do
  let raw ← call
  let text ← orRaise (Utf8.decode raw) .raised
  let envelope ← (loads (text.map Char.toNat)).mapError fun _ => .raised
  let (_, prediction) ← extractPrediction loads envelope
  validateResponse prediction

/-! ## Reference prices -/

structure PriceBand where
  category : CaseCategory
  minimumVnd : ℕ
  centralVnd : ℕ
  maximumVnd : ℕ
deriving DecidableEq

structure ReferencePrice where
  category : CaseCategory
  average : ℕ
  minimum : ℕ
  maximum : ℕ
  sampleCount : ℕ
deriving DecidableEq

def ReferencePrice.toBand (p : ReferencePrice) : PriceBand :=
  ⟨p.category, p.minimum, p.average, p.maximum⟩

/-- `load_reference_prices`. SOURCE: finance/fixtures/reference_prices.json -/
def referencePrices : List ReferencePrice :=
  [{ category := .elevator, average := 450000000, minimum := 380000000, maximum := 520000000,
     sampleCount := 12 }]

/-- `get_reference_price`. SOURCE: reference_prices.py:107-111 -/
def getReferencePrice (U : Unicode) (category : CaseCategory) : Option ReferencePrice :=
  referencePrices.find? fun p => p.category = normalizeCategory U category.code

inductive PredictionSource where
  | predicted
  | fallback
deriving DecidableEq

/-- `FALLBACK_REASONING` -/
def fallbackReasoning : PyText := pyText "Dự đoán AI không khả dụng — dùng giá tham chiếu mẫu."

/-- `get_price_band_for_case`. SOURCE: ai.py:179-238 -/
def getPriceBandForCase (U : Unicode) (loads : PyText → Except LoadsError Decoded) (call : ProviderCall)
    (category : CaseCategory) : Option (PriceBand × PyText × PredictionSource) := do
  let ref ← getReferencePrice U category
  match providerAnswer loads call with
  | .ok v => some (⟨category, v.minimumVnd, v.centralVnd, v.maximumVnd⟩, pyStrip v.reasoning,
      .predicted)
  | .error _ => some (ref.toBand, fallbackReasoning, .fallback)

/-! ## The comparison -/

inductive PriceError where
  | value (message : String)
  | zeroDivision
  | overflow
  | unicodeEncode
  | service (e : ServiceError)
deriving DecidableEq

inductive ComparisonPosition where
  | withinRange
  | aboveRange
  | belowRange
deriving DecidableEq

inductive Direction where
  | above
  | below
  | equal
deriving DecidableEq

structure PriceComparison where
  position : ComparisonPosition
  percentage : ℤ
  direction : Direction
  referencePrice : PriceBand
deriving DecidableEq

/-- `round(difference / central * 100)`: the quotient of two integers, which raises when it is
too large for a float, a product of floats, and the rounding, which raises on an infinity.
SOURCE: reference_prices.py:125 -/
def percentageOf (difference central : ℕ) : Except PriceError ℤ := do
  require (central ≠ 0) PriceError.zeroDivision
  let quotient := binary64 (difference / central)
  require (isFinite quotient = true) PriceError.overflow
  let product := binary64 (quotient * 100)
  require (isFinite product = true) PriceError.overflow
  return roundHalfEven product

/-- `compare_price_against_band`. SOURCE: reference_prices.py:113-145 -/
def comparePriceAgainstBand (band : PriceBand) (amountVnd : ℤ) :
    Except PriceError PriceComparison := do
  require (0 < amountVnd) (PriceError.value "Amount must be a positive integer.")
  let diff := amountVnd - band.centralVnd
  let pct ← percentageOf diff.natAbs band.centralVnd
  let direction := if 0 < diff then Direction.above else if diff < 0 then .below else .equal
  let position :=
    if band.minimumVnd ≤ amountVnd ∧ amountVnd ≤ band.maximumVnd then
      ComparisonPosition.withinRange
    else if band.maximumVnd < amountVnd then .aboveRange
    else .belowRange
  return ⟨position, pct, direction, band⟩

/-- The texts of the active language. -/
structure ActiveLocale where
  thousandSeparator : PyText
  equalText : PyText
  aboveText : PyText → PyText → PyText
  belowText : PyText → PyText → PyText
  unsupported : CaseCategory → PyText

/-- Digits in groups of three, the digits given from the last one. -/
def groupDigits (separator : PyText) : List ℕ → PyText
  | a :: b :: c :: d :: ds => groupDigits separator (d :: ds) ++ separator ++ [c, b, a]
  | ds => ds.reverse

/-- `intcomma`; `str` of an integer of more than 4300 digits raises. -/
def intcomma (L : ActiveLocale) (n : ℕ) : Except PriceError PyText := do
  let digits := Nat.toDigits 10 n
  require (digits.length ≤ 4300)
    (PriceError.value "Exceeds the limit (4300 digits) for integer string conversion")
  return groupDigits L.thousandSeparator (digits.map Char.toNat).reverse

structure Formatted where
  direction : Direction
  percentage : ℤ
  position : ComparisonPosition
  arrow : PyText
  arrowClass : String
  comparisonText : PyText
  rangeText : PyText
  reasoning : PyText
deriving DecidableEq

def intText (i : ℤ) : PyText := (Json.renderInt i).map Char.toNat

/-- `format_price_comparison`. SOURCE: predictions.py:22-61 -/
def formatPriceComparison (L : ActiveLocale) (band : PriceBand) (amountVnd : ℤ) (reasoning : PyText) :
    Except PriceError Formatted := do
  let comparison ← comparePriceAgainstBand band amountVnd
  let minimum ← intcomma L band.minimumVnd
  let maximum ← intcomma L band.maximumVnd
  let rangeText := minimum ++ pyText " – " ++ maximum ++ pyText " VND"
  let (arrow, arrowClass, comparisonText) := match comparison.direction with
    | .equal => ("", "", L.equalText)
    | .above => ("↑", "price-comparison-arrow-above",
        L.aboveText (intText comparison.percentage) rangeText)
    | .below => ("↓", "price-comparison-arrow-below",
        L.belowText (intText comparison.percentage) rangeText)
  return ⟨comparison.direction, comparison.percentage, comparison.position, pyText arrow, arrowClass,
    comparisonText, rangeText, reasoning⟩

/-! ## The record -/

/-- All columns of `PricePrediction`; a publication reads fewer. -/
structure RecordedPrediction where
  building : ℕ
  case : ℕ
  category : CaseCategory
  amountVnd : ℕ
  minimumVnd : ℕ
  centralVnd : ℕ
  maximumVnd : ℕ
  reasoning : PyText
  source : PredictionSource
  requestedBy : ℕ
  proposalVersion : Option ℕ
  createdAt : ℕ
deriving DecidableEq

/-- What a text column holds: no NUL and no surrogate. -/
def isStorable (t : PyText) : Bool := t.all fun c => c ≠ 0 && !(0xD800 ≤ c && c ≤ 0xDFFF)

/-- A text on its way to the database. -/
def textParameter (t : PyText) : Except PriceError PyText := do
  require (t.all fun c => !(0xD800 ≤ c && c ≤ 0xDFFF)) PriceError.unicodeEncode
  require (0 ∉ t)
    (PriceError.value "PostgreSQL text fields cannot contain NUL (0x00) bytes")
  return t

/-- A column of the model with its check constraint. -/
def bigIntColumn (column constraint : String) (i : ℤ) : Except PriceError ℕ :=
  (positiveBigInt column constraint i).mapError PriceError.service

/-- `PricePrediction.objects.create(…)`. SOURCE: predictions.py:104-115 -/
def createPrediction (rows : Table RecordedPrediction) (building case : ℕ)
    (category : CaseCategory) (amountVnd : ℤ) (band : PriceBand) (reasoning : PyText)
    (source : PredictionSource) (requestedBy now : ℕ) :
    Except PriceError (Table RecordedPrediction) := do
  let reasoning ← textParameter reasoning
  let amount ← bigIntColumn "amount_vnd" "price_prediction_amount_positive" amountVnd
  let minimum ← bigIntColumn "minimum_vnd" "price_prediction_band_positive" band.minimumVnd
  let central ← bigIntColumn "central_vnd" "price_prediction_band_positive" band.centralVnd
  let maximum ← bigIntColumn "maximum_vnd" "price_prediction_band_positive" band.maximumVnd
  return rows.insert ⟨building, case, category, amount, minimum, central, maximum, reasoning, source,
    requestedBy, none, now⟩

/-- The result of a comparison that is supported. -/
structure PriceResult where
  id : ℕ
  category : CaseCategory
  amountVnd : ℤ
  band : PriceBand
  reasoning : PyText
  source : PredictionSource
  formatted : Formatted
deriving DecidableEq

/-- `"is_fallback"` -/
def PriceResult.isFallback (r : PriceResult) : Bool := r.source = .fallback

inductive Evaluation where
  | unsupported (message : PyText)
  | supported (result : PriceResult)
deriving DecidableEq

/-- The comparison with a band that was found. SOURCE: predictions.py:102-134 -/
def recordComparison (L : ActiveLocale) (rows : Table RecordedPrediction) (pk : ℕ)
    (case : MaintenanceCase) (membership : ℕ) (amountVnd : ℤ) (now : ℕ) (band : PriceBand)
    (reasoning : PyText) (source : PredictionSource) :
    Except PriceError (Evaluation × Table RecordedPrediction) := do
  let formatted ← formatPriceComparison L band amountVnd reasoning
  let rows' ← createPrediction rows case.building pk case.category amountVnd band reasoning source
    membership now
  return (.supported ⟨rows.next, case.category, amountVnd, band, reasoning, source, formatted⟩,
    rows')

/-- `evaluate_and_record_price_comparison`. SOURCE: predictions.py:64-134 -/
def evaluateAndRecordPriceComparison (U : Unicode) (L : ActiveLocale)
    (loads : PyText → Except LoadsError Decoded) (call : ProviderCall)
    (rows : Table RecordedPrediction) (pk : ℕ) (case : MaintenanceCase) (membership : ℕ)
    (amountVnd : ℤ) (now : ℕ) : Except PriceError (Evaluation × Table RecordedPrediction) := do
  require (0 < amountVnd) (PriceError.value "Amount must be a positive integer.")
  match getReferencePrice U case.category with
  | none => return (.unsupported (L.unsupported case.category), rows)
  | some _ =>
    match getPriceBandForCase U loads call case.category with
    | none => return (.unsupported (L.unsupported case.category), rows)
    | some (band, reasoning, source) =>
      recordComparison L rows pk case membership amountVnd now band reasoning source

end LamTo.Model
