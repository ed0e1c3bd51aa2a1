import LamTo.Analysis.QueuedEvidence
import LamTo.Model.PricePredictions

/-!
# When a price comparison falls back

Everything the provider can do wrong before its answer is accepted ends in the reference band. An
accepted answer is a band of positive integers in order and a reasoning that is not blank, of any
size: the guard is over, and only the columns of the record bound what follows. The percentage
never overflows and the figures that fit the columns have few digits, so a comparison comes out
exactly when the provider's answer, if it was accepted, fits the columns.

SOURCE: src/lamto/finance/ai.py:119-238, src/lamto/finance/predictions.py:22-134
-/

set_option autoImplicit false

namespace LamTo.Analysis

open LamTo.Library LamTo.Model

/-! ## What is accepted -/

theorem positiveFigure_pos (payload : List (PyText × Decoded)) (key : String) (n : ℕ)
    (h : positiveFigure payload key = .ok n) : 0 < n := by
  unfold positiveFigure at h
  split at h
  · next i _ =>
    obtain ⟨_, hpos, hn⟩ := (bind_eq_ok _ _ _).mp h
    rw [require_eq_ok] at hpos
    obtain rfl : i.toNat = n := Except.ok.inj hn
    omega
  · cases h

/-- **An accepted answer is a band.** -/
theorem validated_band (payload : Decoded) (v : Validated) (h : validateResponse payload = .ok v) :
    0 < v.minimumVnd ∧ v.minimumVnd ≤ v.centralVnd ∧ v.centralVnd ≤ v.maximumVnd := by
  cases payload with
  | dict payload =>
    simp only [validateResponse] at h
    obtain ⟨_, _, h⟩ := (bind_eq_ok _ _ _).mp h
    obtain ⟨minimum, hminimum, h⟩ := (bind_eq_ok _ _ _).mp h
    obtain ⟨central, _, h⟩ := (bind_eq_ok _ _ _).mp h
    obtain ⟨maximum, _, h⟩ := (bind_eq_ok _ _ _).mp h
    obtain ⟨_, horder, h⟩ := (bind_eq_ok _ _ _).mp h
    rw [require_eq_ok] at horder
    have hpos := positiveFigure_pos _ _ _ hminimum
    split at h
    · obtain ⟨_, _, h⟩ := (bind_eq_ok _ _ _).mp h
      obtain ⟨_, _, h⟩ := (bind_eq_ok _ _ _).mp h
      obtain rfl := Except.ok.inj h
      exact ⟨hpos, horder⟩
    · cases h
  | none => cases h
  | bool b => cases h
  | int i => cases h
  | float z => cases h
  | str s => cases h
  | list xs => cases h

theorem providerAnswer_band (loads : PyText → Except LoadsError Decoded) (call : ProviderCall)
    (v : Validated) (h : providerAnswer loads call = .ok v) :
    0 < v.minimumVnd ∧ v.minimumVnd ≤ v.centralVnd ∧ v.centralVnd ≤ v.maximumVnd := by
  unfold providerAnswer at h
  obtain ⟨_, _, h⟩ := (bind_eq_ok _ _ _).mp h
  obtain ⟨_, _, h⟩ := (bind_eq_ok _ _ _).mp h
  obtain ⟨_, _, h⟩ := (bind_eq_ok _ _ _).mp h
  obtain ⟨⟨_, prediction⟩, _, h⟩ := (bind_eq_ok _ _ _).mp h
  exact validated_band prediction v h

/-! ## The reference band -/

/-- The figures of a reference price are a band, and small. -/
theorem getReferencePrice_band (U : Unicode) (category : CaseCategory) (ref : ReferencePrice)
    (h : getReferencePrice U category = some ref) :
    0 < ref.minimum ∧ ref.minimum ≤ ref.average ∧ ref.average ≤ ref.maximum ∧
      ref.maximum < 2 ^ 63 := by
  have hmem := List.mem_of_find?_eq_some h
  obtain rfl := List.mem_singleton.mp hmem
  decide

theorem isStorable_fallbackReasoning : isStorable fallbackReasoning = true := by decide

/-! ## The texts and figures of the comparison -/

/-- The percentage of a quotient below `2 ^ 63` is computed. -/
theorem percentageOf_ok (difference central : ℕ) (hpos : 0 < central)
    (h : difference ≤ 2 ^ 63 * central) : ∃ pct, percentageOf difference central = .ok pct := by
  have hcentral : (0 : ℚ) < central := by exact_mod_cast hpos
  have hquotient : (0 : ℚ) ≤ difference / central := by positivity
  have hbound : (difference / central : ℚ) ≤ 2 ^ 63 := by
    rw [div_le_iff₀ hcentral]
    exact_mod_cast h
  have hrounded := binary64_le_two_pow _ 63 hquotient hbound
  have hnonneg := binary64_nonneg _ hquotient
  have hproduct : binary64 (difference / central) * 100 ≤ 2 ^ 70 := by
    norm_num at hrounded ⊢
    linarith
  have hfinite := isFinite_of_le_two_pow _ 63 (by omega) hrounded
  have hfinite' := isFinite_of_le_two_pow _ 70 (by omega)
    (binary64_le_two_pow _ 70 (by linarith) hproduct)
  refine ⟨roundHalfEven (binary64 (binary64 (difference / central) * 100)), ?_⟩
  unfold percentageOf
  dsimp only
  rw [require_true _ _ (by omega : central ≠ 0), require_true _ _ hfinite, require_true _ _ hfinite']
  rfl

theorem comparePriceAgainstBand_ok (band : PriceBand) (amountVnd : ℤ) (hpos : 0 < amountVnd)
    (hfits : amountVnd < 2 ^ 63) (hcentral : 0 < band.centralVnd) :
    ∃ comparison, comparePriceAgainstBand band amountVnd = .ok comparison := by
  -- above the central figure the quotient is at most the amount, below it at most one
  have hdiff : (amountVnd - band.centralVnd).natAbs ≤ 2 ^ 63 * band.centralVnd := by omega
  obtain ⟨pct, hpct⟩ := percentageOf_ok _ _ hcentral hdiff
  unfold comparePriceAgainstBand
  rw [require_true _ _ hpos]
  simp only [hpct]
  exact ⟨_, rfl⟩

theorem intcomma_ok (L : ActiveLocale) (n : ℕ) (h : n < 2 ^ 63) : ∃ text, intcomma L n = .ok text := by
  have hlength : (Nat.toDigits 10 n).length ≤ 4300 := by
    have h19 := (Nat.length_toDigits_le_iff (b := 10) (n := n) (k := 19) (by omega) (by omega)).mpr
      (by omega)
    omega
  unfold intcomma
  dsimp only
  rw [require_true _ _ hlength]
  exact ⟨_, rfl⟩

theorem formatPriceComparison_ok (L : ActiveLocale) (band : PriceBand) (amountVnd : ℤ)
    (reasoning : PyText) (hpos : 0 < amountVnd) (hfits : amountVnd < 2 ^ 63)
    (hcentral : 0 < band.centralVnd) (hminimum : band.minimumVnd < 2 ^ 63)
    (hmaximum : band.maximumVnd < 2 ^ 63) :
    ∃ formatted, formatPriceComparison L band amountVnd reasoning = .ok formatted := by
  obtain ⟨comparison, hcomparison⟩ := comparePriceAgainstBand_ok band amountVnd hpos hfits hcentral
  obtain ⟨minimum, hmin⟩ := intcomma_ok L band.minimumVnd hminimum
  obtain ⟨maximum, hmax⟩ := intcomma_ok L band.maximumVnd hmaximum
  unfold formatPriceComparison
  simp only [hcomparison, hmin, hmax]
  exact ⟨_, rfl⟩

/-! ## The record -/

theorem textParameter_eq_ok (t t' : PyText) :
    textParameter t = .ok t' ↔ isStorable t = true ∧ t' = t := by
  unfold textParameter isStorable
  simp only [bind_eq_ok, require_eq_ok, List.all_eq_true, Bool.and_eq_true, decide_eq_true_eq]
  constructor
  · rintro ⟨_, hsurrogates, _, hnul, h⟩
    refine ⟨fun c hc => ⟨fun hzero => hnul (hzero ▸ hc), hsurrogates c hc⟩, ?_⟩
    exact (Except.ok.inj h).symm
  · rintro ⟨hall, rfl⟩
    exact ⟨(), fun c hc => (hall c hc).2, (), fun hzero => (hall 0 hzero).1 rfl, rfl⟩

/-- A column holds a positive figure when it fits. -/
theorem bigIntColumn_eq_ok (column constraint : String) (i : ℤ) (n : ℕ) :
    bigIntColumn column constraint i = .ok n ↔ i < 2 ^ 63 ∧ 0 < i ∧ i.toNat = n := by
  unfold bigIntColumn positiveBigInt require
  by_cases hfits : i < 2 ^ 63
  · by_cases hpos : 0 < i
    · rw [if_pos hfits, if_pos hpos]
      simp only [hfits, hpos, true_and]
      exact ⟨Except.ok.inj, fun h => congrArg Except.ok h⟩
    · rw [if_pos hfits, if_neg hpos]
      simp only [hpos, false_and, and_false, iff_false]
      exact fun h => by cases h
  · rw [if_neg hfits]
    simp only [hfits, false_and, iff_false]
    exact fun h => by cases h

/-- The record of a band, its amount being one. -/
theorem createPrediction_eq_ok (rows rows' : Table RecordedPrediction) (building case : ℕ)
    (category : CaseCategory) (amountVnd : ℤ) (band : PriceBand) (reasoning : PyText)
    (source : PredictionSource) (requestedBy now : ℕ) (hpos : 0 < amountVnd)
    (hfits : amountVnd < 2 ^ 63) (hband : 0 < band.minimumVnd ∧ band.minimumVnd ≤ band.centralVnd ∧
      band.centralVnd ≤ band.maximumVnd) :
    createPrediction rows building case category amountVnd band reasoning source requestedBy now =
        .ok rows' ↔
      (isStorable reasoning = true ∧ band.maximumVnd < 2 ^ 63) ∧
        rows' = rows.insert ⟨building, case, category, amountVnd.toNat, band.minimumVnd,
          band.centralVnd, band.maximumVnd, reasoning, source, requestedBy, none, now⟩ := by
  unfold createPrediction
  simp only [bind_eq_ok, textParameter_eq_ok, bigIntColumn_eq_ok]
  constructor
  · rintro ⟨_, ⟨hstorable, rfl⟩, _, ⟨_, _, rfl⟩, _, ⟨_, _, rfl⟩, _, ⟨_, _, rfl⟩, _, ⟨hmax, _, rfl⟩,
      h⟩
    exact ⟨⟨hstorable, by exact_mod_cast hmax⟩, (Except.ok.inj h).symm⟩
  · rintro ⟨⟨hstorable, hmax⟩, rfl⟩
    exact ⟨_, ⟨hstorable, rfl⟩, _, ⟨hfits, hpos, rfl⟩, _, ⟨by omega, by omega, rfl⟩, _,
      ⟨by omega, by omega, rfl⟩, _, ⟨by omega, by omega, rfl⟩, rfl⟩

/-- A blank is storable, so stripping blanks changes nothing. -/
theorem isStorable_pyStrip (t : PyText) : isStorable (pyStrip t) = isStorable t := by
  have hblank : ∀ c, isPySpace c = true → (c ≠ 0 && !(0xD800 ≤ c && c ≤ 0xDFFF)) = true := by
    intro c hc
    simp only [isPySpace, Bool.or_eq_true, Bool.and_eq_true, decide_eq_true_eq] at hc
    simp only [Bool.and_eq_true, Bool.not_eq_true', Bool.and_eq_false_iff, decide_eq_true_eq,
      decide_eq_false_iff_not, ne_eq]
    omega
  have hdrop : ∀ l : PyText, isStorable (l.dropWhile isPySpace) = isStorable l := by
    intro l
    induction l with
    | nil => rfl
    | cons c cs ih =>
      by_cases hc : isPySpace c = true
      · rw [List.dropWhile_cons_of_pos hc, ih, isStorable, isStorable, List.all_cons, hblank c hc,
          Bool.true_and]
      · rw [List.dropWhile_cons_of_neg hc]
  have hreverse : ∀ l : PyText, isStorable l.reverse = isStorable l := fun l => List.all_reverse
  rw [pyStrip, List.rdropWhile, hreverse, hdrop, hreverse, hdrop]

/-! ## The whole comparison -/

/-- **What a comparison has to leave**: a band in order, one record of the same figures, and the
source they come from. -/
structure Compared (ref : ReferencePrice) (answer : Except ProviderError Validated)
    (rows rows' : Table RecordedPrediction) (pk : ℕ) (case : MaintenanceCase) (membership : ℕ)
    (amountVnd : ℤ) (now : ℕ) (result : PriceResult) : Prop where
  positive : 0 < result.band.minimumVnd
  ordered : result.band.minimumVnd ≤ result.band.centralVnd ∧
    result.band.centralVnd ≤ result.band.maximumVnd
  recorded : rows' = rows.insert ⟨case.building, pk, case.category, amountVnd.toNat,
    result.band.minimumVnd, result.band.centralVnd, result.band.maximumVnd, result.reasoning,
    result.source, membership, none, now⟩
  source : match answer with
    | .ok v => result.source = .predicted ∧
        result.band = ⟨case.category, v.minimumVnd, v.centralVnd, v.maximumVnd⟩
    | .error _ => result.source = .fallback ∧ result.band = ref.toBand

/-- The columns hold what the provider answered, if it was accepted. -/
def FitsColumns (answer : Except ProviderError Validated) : Prop :=
  ∀ v, answer = .ok v → isStorable v.reasoning = true ∧ v.maximumVnd < 2 ^ 63

/-- What follows once the band is chosen. -/
theorem recordComparison_eq_ok (L : ActiveLocale) (rows : Table RecordedPrediction) (pk : ℕ)
    (case : MaintenanceCase) (membership : ℕ) (amountVnd : ℤ) (now : ℕ) (band : PriceBand)
    (reasoning : PyText) (source : PredictionSource) (hpos : 0 < amountVnd)
    (hfits : amountVnd < 2 ^ 63) (hband : 0 < band.minimumVnd ∧ band.minimumVnd ≤ band.centralVnd ∧
      band.centralVnd ≤ band.maximumVnd) (out : Evaluation × Table RecordedPrediction) :
    recordComparison L rows pk case membership amountVnd now band reasoning source = .ok out ↔
      (isStorable reasoning = true ∧ band.maximumVnd < 2 ^ 63) ∧
        ∃ formatted, formatPriceComparison L band amountVnd reasoning = .ok formatted ∧
          out = (.supported ⟨rows.next, case.category, amountVnd, band, reasoning, source,
            formatted⟩, rows.insert ⟨case.building, pk, case.category, amountVnd.toNat,
              band.minimumVnd, band.centralVnd, band.maximumVnd, reasoning, source, membership,
              none, now⟩) := by
  unfold recordComparison
  simp only [bind_eq_ok, createPrediction_eq_ok _ _ _ _ _ _ _ _ _ _ _ hpos hfits hband]
  constructor
  · rintro ⟨formatted, hformatted, _, ⟨hfit, rfl⟩, h⟩
    exact ⟨hfit, formatted, hformatted, (Except.ok.inj h).symm⟩
  · rintro ⟨hfit, formatted, hformatted, rfl⟩
    exact ⟨formatted, hformatted, _, ⟨hfit, rfl⟩, rfl⟩

section Evaluation

variable {U : Unicode} {L : ActiveLocale} {loads : PyText → Except LoadsError Decoded}
  {call : ProviderCall} {rows : Table RecordedPrediction} {pk : ℕ} {case : MaintenanceCase}
  {membership : ℕ} {amountVnd : ℤ} {now : ℕ} {ref : ReferencePrice}

/-- The evaluation, the category having a reference price. -/
theorem evaluate_eq (href : getReferencePrice U case.category = some ref) (hpos : 0 < amountVnd) :
    evaluateAndRecordPriceComparison U L loads call rows pk case membership amountVnd now =
      match providerAnswer loads call with
      | .ok v => recordComparison L rows pk case membership amountVnd now
          ⟨case.category, v.minimumVnd, v.centralVnd, v.maximumVnd⟩ (pyStrip v.reasoning) .predicted
      | .error _ => recordComparison L rows pk case membership amountVnd now ref.toBand
          fallbackReasoning .fallback := by
  unfold evaluateAndRecordPriceComparison getPriceBandForCase
  rw [require_true _ _ hpos, ok_bind, href]
  cases providerAnswer loads call <;> rfl

/-- Nothing comes out of an accepted answer that does not fit. -/
theorem fits_of_evaluate (href : getReferencePrice U case.category = some ref)
    (hpos : 0 < amountVnd) (hfits : amountVnd < 2 ^ 63) (out : Evaluation × Table RecordedPrediction)
    (h : evaluateAndRecordPriceComparison U L loads call rows pk case membership amountVnd now =
      .ok out) : FitsColumns (providerAnswer loads call) := by
  intro v hv
  have hband := providerAnswer_band loads call v hv
  rw [evaluate_eq href hpos, hv] at h
  have hfit := ((recordComparison_eq_ok L rows pk case membership amountVnd now
    ⟨case.category, v.minimumVnd, v.centralVnd, v.maximumVnd⟩ (pyStrip v.reasoning) .predicted
    hpos hfits hband out).mp h).1
  rwa [isStorable_pyStrip] at hfit

/-- A supported comparison comes out of all others. -/
theorem compared_of_fits (href : getReferencePrice U case.category = some ref)
    (hpos : 0 < amountVnd) (hfits : amountVnd < 2 ^ 63)
    (hanswer : FitsColumns (providerAnswer loads call)) :
    ∃ result rows', evaluateAndRecordPriceComparison U L loads call rows pk case membership
        amountVnd now = .ok (.supported result, rows') ∧
      Compared ref (providerAnswer loads call) rows rows' pk case membership amountVnd now
        result := by
  rw [evaluate_eq href hpos]
  cases hv : providerAnswer loads call with
  | ok v =>
    obtain ⟨hstorable, hmax⟩ := hanswer v hv
    have hband := providerAnswer_band loads call v hv
    obtain ⟨formatted, hformatted⟩ := formatPriceComparison_ok L
      ⟨case.category, v.minimumVnd, v.centralVnd, v.maximumVnd⟩ amountVnd (pyStrip v.reasoning)
      hpos hfits (Nat.lt_of_lt_of_le hband.1 hband.2.1)
      (Nat.lt_of_le_of_lt (Nat.le_trans hband.2.1 hband.2.2) hmax) hmax
    rw [← isStorable_pyStrip] at hstorable
    refine ⟨_, _, (recordComparison_eq_ok L rows pk case membership amountVnd now _ _ _ hpos hfits
      hband _).mpr ⟨⟨hstorable, hmax⟩, formatted, hformatted, rfl⟩, ?_⟩
    exact ⟨hband.1, hband.2, rfl, rfl, rfl⟩
  | error e =>
    obtain ⟨hmin, hcentral, hmaximum, hsmall⟩ := getReferencePrice_band U case.category ref href
    obtain ⟨formatted, hformatted⟩ := formatPriceComparison_ok L ref.toBand amountVnd
      fallbackReasoning hpos hfits (Nat.lt_of_lt_of_le hmin hcentral)
      (Nat.lt_of_le_of_lt (Nat.le_trans hcentral hmaximum) hsmall) hsmall
    refine ⟨_, _, (recordComparison_eq_ok L rows pk case membership amountVnd now _ _ _ hpos hfits
      ⟨hmin, hcentral, hmaximum⟩ _).mpr
      ⟨⟨isStorable_fallbackReasoning, hsmall⟩, formatted, hformatted, rfl⟩, ?_⟩
    exact ⟨hmin, ⟨hcentral, hmaximum⟩, rfl, rfl, rfl⟩

end Evaluation

/-- **When a price comparison comes out.** For a category with a reference price, a positive amount
that a proposal holds and whatever the provider did, the comparison is supported, in order,
recorded once with the figures it shows and from the right source, exactly when the provider's
answer, if it was accepted, fits the columns of the record. -/
theorem price_comparison_iff (U : Unicode) (L : ActiveLocale)
    (loads : PyText → Except LoadsError Decoded) (call : ProviderCall)
    (rows : Table RecordedPrediction) (pk : ℕ) (case : MaintenanceCase) (membership : ℕ)
    (amountVnd : ℤ) (now : ℕ) (ref : ReferencePrice)
    (href : getReferencePrice U case.category = some ref) (hpos : 0 < amountVnd)
    (hfits : amountVnd < 2 ^ 63) :
    (∃ result rows', evaluateAndRecordPriceComparison U L loads call rows pk case membership
        amountVnd now = .ok (.supported result, rows') ∧
      Compared ref (providerAnswer loads call) rows rows' pk case membership amountVnd now
        result) ↔
      FitsColumns (providerAnswer loads call) := by
  constructor
  · rintro ⟨result, rows', h, _⟩
    exact fits_of_evaluate href hpos hfits _ h
  · exact compared_of_fits href hpos hfits

/-! ## An answer that is too large -/

mutual
/-- A decoded value without lone surrogates. -/
def decodedOf : Json → Decoded
  | .null => .none
  | .bool b => .bool b
  | .int i => .int i
  | .float lit => .float ((lit.takeWhile fun c => c ≠ 'e' && c ≠ 'E').all fun c =>
      !('1' ≤ c && c ≤ '9'))
  | .str s => .str (s.map Char.toNat)
  | .arr xs => .list (decodedElements xs)
  | .obj ms => .dict (decodedMembers ms)
def decodedElements : List Json → List Decoded
  | [] => []
  | x :: xs => decodedOf x :: decodedElements xs
def decodedMembers : List (Text × Json) → List (PyText × Decoded)
  | [] => []
  | (k, v) :: ms => (k.map Char.toNat, decodedOf v) :: decodedMembers ms
end

/-- `json.loads` of a text without lone surrogates. -/
def scalarLoads (t : PyText) : Except LoadsError Decoded :=
  match Json.loads (t.map Char.ofNat) with
  | some j => .ok (decodedOf j)
  | none => .error .decode

def englishLocale : ActiveLocale where
  thousandSeparator := pyText ","
  equalText := pyText "Equal to the reference price"
  aboveText pct range := pct ++ pyText "% above the reference price (around " ++ range ++ pyText ")"
  belowText pct range := pct ++ pyText "% below the reference price (around " ++ range ++ pyText ")"
  unsupported _ := pyText "Price predictions not yet supported"

def elevatorCase : MaintenanceCase :=
  ⟨1, 1, .elevator, .high, 1, .elevator, 0, true, none, none, none⟩

/-- A failed call falls back. -/
theorem price_comparison_iff_failed :
    (∃ result rows', evaluateAndRecordPriceComparison asciiUnicode englishLocale scalarLoads
        (.error .raised) .empty 1 elevatorCase 1 450000000 0 = .ok (.supported result, rows') ∧
      Compared ⟨.elevator, 450000000, 380000000, 520000000, 12⟩
        (providerAnswer scalarLoads (.error .raised)) .empty rows' 1 elevatorCase 1 450000000 0
        result) :=
  (price_comparison_iff asciiUnicode englishLocale scalarLoads (.error .raised) .empty 1
    elevatorCase 1 450000000 0 ⟨.elevator, 450000000, 380000000, 520000000, 12⟩ (by decide)
    (by decide) (by decide)).mpr fun _ h => nomatch h

/-- The largest figure is one more than a column holds. -/
def largeContent : Json :=
  .obj [("minimum_vnd".toList, .int 1), ("central_vnd".toList, .int 1),
    ("maximum_vnd".toList, .int 9223372036854775808), ("reasoning".toList, .str "x".toList)]

def largeEnvelope : Json :=
  .obj [("id".toList, .str "a".toList), ("choices".toList, .arr [.obj [("message".toList,
    .obj [("content".toList, .str (Json.render largeContent))])]])]

def largeAnswer : Validated := ⟨1, 1, 9223372036854775808, pyText "x"⟩

/-- The answer is accepted, and the comparison raises. -/
theorem price_comparison_raises :
    getReferencePrice asciiUnicode elevatorCase.category =
        some ⟨.elevator, 450000000, 380000000, 520000000, 12⟩ ∧
      providerAnswer scalarLoads (.ok (Utf8.encode (Json.render largeEnvelope))) = .ok largeAnswer ∧
      ∀ out, evaluateAndRecordPriceComparison asciiUnicode englishLocale scalarLoads
        (.ok (Utf8.encode (Json.render largeEnvelope))) .empty 1 elevatorCase 1 450000000 0 ≠
          .ok out := by
  have href : getReferencePrice asciiUnicode elevatorCase.category =
      some ⟨.elevator, 450000000, 380000000, 520000000, 12⟩ := by decide
  have hanswer : providerAnswer scalarLoads (.ok (Utf8.encode (Json.render largeEnvelope))) =
      .ok largeAnswer := eq_ok_of_toOption _ _ (by decide +kernel)
  refine ⟨href, hanswer, fun out h => ?_⟩
  have hfits := (fits_of_evaluate href (by decide) (by decide) out h largeAnswer hanswer).2
  exact absurd hfits (by decide)

end LamTo.Analysis
