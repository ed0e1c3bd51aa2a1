import LamTo.Analysis.QueuedEvidence
import LamTo.Model.Plates
import Mathlib.Tactic.IntervalCases

/-!
# Letters that leave no trace

A plate is folded so that every way of writing it comes out alike. Characters that only decorate
may go, letters and digits must stay. The filter cannot tell the two apart: what the tables do
not take to ASCII is dropped, whatever it is.

* nothing is dropped exactly from the texts whose folding has no letter or decimal digit outside
  `A-Z` and `0-9`;
* among those, two texts have one plate exactly when their letters and digits agree;
* the result is such a text itself and is left as it is.

The stroke of `Đ` is no decoration to the tables: the letter has no decomposition, so the series
`MĐ` becomes `M`.

SOURCE: src/lamto/gate/plates.py:25-32
-/

set_option autoImplicit false

namespace LamTo.Analysis

open LamTo.Library LamTo.Model

variable (F : Folding)

/-- An alphabetic or decimal-digit character. -/
def isLetterOrDigit (c : Char) : Bool := F.isAlpha c || (F.decimal c).isSome

/-- The letters and digits of the folding, in order. -/
def plateLetters (raw : Option Text) : Text := (foldedPlate F raw).filter (isLetterOrDigit F)

/-- Every letter and digit of the folding is one of `A-Z` and `0-9`. -/
def FoldsToAscii (raw : Option Text) : Prop :=
  ∀ c ∈ foldedPlate F raw, isLetterOrDigit F c = true → isPlateCharacter c = true

/-! ## The characters that are kept -/

def plateAlphabet : Text := "ABCDEFGHIJKLMNOPQRSTUVWXYZ0123456789".toList

theorem mem_plateAlphabet (c : Char) (h : isPlateCharacter c = true) : c ∈ plateAlphabet := by
  have hchar : c = Char.ofNat c.toNat := (Char.ofNat_toNat c).symm
  simp only [isPlateCharacter, Bool.or_eq_true, Bool.and_eq_true, decide_eq_true_eq, Char.le_def,
    UInt32.le_iff_toNat_le] at h
  rcases h with ⟨hlo, hhi⟩ | ⟨hlo, hhi⟩
  · have hlo' : 65 ≤ c.toNat := hlo
    have hhi' : c.toNat ≤ 90 := hhi
    generalize c.toNat = n at hchar hlo' hhi'
    rw [hchar]
    interval_cases n <;> decide
  · have hlo' : 48 ≤ c.toNat := hlo
    have hhi' : c.toNat ≤ 57 := hhi
    generalize c.toNat = n at hchar hlo' hhi'
    rw [hchar]
    interval_cases n <;> decide

/-- They are ASCII letters and digits in upper case. -/
theorem plateAlphabet_plain : ∀ c ∈ plateAlphabet,
    c.toNat < 128 ∧ (c.isAlpha || c.isDigit) = true ∧ c.toUpper = c := by
  intro c hc
  have hall : plateAlphabet.all (fun c => decide (c.toNat < 128 ∧
      (c.isAlpha || c.isDigit) = true ∧ c.toUpper = c)) = true := by decide +kernel
  exact of_decide_eq_true (List.all_eq_true.mp hall c hc)

theorem isLetterOrDigit_of_plate (c : Char) (h : isPlateCharacter c = true) :
    isLetterOrDigit F c = true := by
  obtain ⟨hascii, hkind, _⟩ := plateAlphabet_plain c (mem_plateAlphabet c h)
  rw [isLetterOrDigit, F.isAlpha_ascii c hascii, F.decimal_ascii c hascii]
  cases halpha : c.isAlpha with
  | true => rfl
  | false =>
    rw [halpha, Bool.false_or] at hkind
    rw [if_pos hkind]
    rfl

/-- A text of such characters is its own folding. -/
theorem foldedPlate_of_plate (t : Text) (h : ∀ c ∈ t, isPlateCharacter c = true) :
    foldedPlate F (some t) = t := by
  have hplain := fun c hc => plateAlphabet_plain c (mem_plateAlphabet c (h c hc))
  have hascii : ∀ c ∈ t, c.toNat < 128 := fun c hc => (hplain c hc).1
  rw [foldedPlate, Option.getD_some, F.nfkd_ascii t hascii, F.upper_ascii t hascii]
  refine (List.map_congr_left fun c hc => (hplain c hc).2.2).trans (List.map_id t)

/-! ## What is dropped -/

theorem normalizePlate_eq_ok (raw : Option Text) (plate : Text) :
    normalizePlate F raw = .ok plate ↔
      plate = (foldedPlate F raw).filter isPlateCharacter ∧
        minPlateLength ≤ plate.length ∧ plate.length ≤ maxPlateLength := by
  simp only [normalizePlate, bind_eq_ok, require_eq_ok, pure_eq_ok]
  constructor
  · rintro ⟨_, hlength, rfl⟩
    exact ⟨rfl, hlength⟩
  · rintro ⟨rfl, hlength⟩
    exact ⟨(), hlength, rfl⟩

/-- **Nothing is dropped exactly when every letter and digit folds to ASCII.** -/
theorem plate_eq_letters_iff (raw : Option Text) :
    (foldedPlate F raw).filter isPlateCharacter = plateLetters F raw ↔ FoldsToAscii F raw := by
  constructor
  · intro h c hc hletter
    have hmem : c ∈ plateLetters F raw := List.mem_filter.mpr ⟨hc, hletter⟩
    rw [← h] at hmem
    exact (List.mem_filter.mp hmem).2
  · intro h
    refine List.filter_congr fun c hc => ?_
    exact Bool.eq_iff_iff.mpr ⟨isLetterOrDigit_of_plate F c, h c hc⟩

/-- An accepted plate is left as it is. -/
theorem normalizePlate_again (raw : Option Text) (plate : Text)
    (h : normalizePlate F raw = .ok plate) : normalizePlate F (some plate) = .ok plate := by
  obtain ⟨hplate, hlength⟩ := (normalizePlate_eq_ok F raw plate).mp h
  have hkept : ∀ c ∈ plate, isPlateCharacter c = true := by
    rw [hplate]
    exact fun c hc => (List.mem_filter.mp hc).2
  refine (normalizePlate_eq_ok F (some plate) plate).mpr ⟨?_, hlength⟩
  rw [foldedPlate_of_plate F plate hkept]
  exact (List.filter_eq_self.mpr hkept).symm

/-- **When different plates stay different.** An accepted text keeps all letters and digits of
its folding exactly when these are ASCII; two such texts have one plate exactly when their
letters and digits agree; and a plate is its own normal form. -/
theorem plates_kept_iff :
    (∀ raw plate, normalizePlate F raw = .ok plate →
      (plate = plateLetters F raw ↔ FoldsToAscii F raw)) ∧
    (∀ x y p q, normalizePlate F x = .ok p → normalizePlate F y = .ok q →
      FoldsToAscii F x → FoldsToAscii F y →
      (p = q ↔ plateLetters F x = plateLetters F y)) ∧
    (∀ raw plate, normalizePlate F raw = .ok plate →
      normalizePlate F (some plate) = .ok plate) := by
  refine ⟨?_, ?_, normalizePlate_again F⟩
  · intro raw plate h
    rw [((normalizePlate_eq_ok F raw plate).mp h).1]
    exact plate_eq_letters_iff F raw
  · intro x y p q hx hy hxascii hyascii
    rw [((normalizePlate_eq_ok F x p).mp hx).1, ((normalizePlate_eq_ok F y q).mp hy).1,
      (plate_eq_letters_iff F x).mpr hxascii, (plate_eq_letters_iff F y).mpr hyascii]

/-! ## The letter with a stroke -/

/-- The tables for ASCII and the letter `Đ`, which has no decomposition. -/
def vietnameseFolding : Folding where
  toUnicode := { asciiUnicode with
    upper := fun s => s.map fun c => if c = 'đ' then 'Đ' else c.toUpper }
  nfkd s := s
  isAlpha c := c.isAlpha || c = 'đ' || c = 'Đ'
  nfkd_ascii _ _ := rfl
  upper_ascii s hs := List.map_congr_left fun c hc => if_neg fun heq => by
    have hlt := hs c hc
    rw [heq] at hlt
    exact absurd hlt (by decide)
  isAlpha_ascii c hc := by
    have hsmall : c ≠ 'đ' := fun heq => by
      rw [heq] at hc
      exact absurd hc (by decide)
    have hcapital : c ≠ 'Đ' := fun heq => by
      rw [heq] at hc
      exact absurd hc (by decide)
    simp only [hsmall, hcapital, decide_false, Bool.or_false]

/-- The plate of an electric motorbike loses its `Đ` and becomes that of another bike. -/
theorem plates_collide :
    normalizePlate vietnameseFolding (some "29MĐ1-123.45".toList) = .ok "29M112345".toList ∧
      normalizePlate vietnameseFolding (some "29M1-123.45".toList) = .ok "29M112345".toList ∧
      "29M112345".toList ≠ plateLetters vietnameseFolding (some "29MĐ1-123.45".toList) ∧
      plateLetters vietnameseFolding (some "29MĐ1-123.45".toList) ≠
        plateLetters vietnameseFolding (some "29M1-123.45".toList) := by
  decide +kernel

end LamTo.Analysis
