import LamTo.Library.Outcome
import LamTo.Model.Canonical

/-!
# Licence plates

The embedding of `gate/plates.py`: a text is decomposed (NFKD), brought to upper case and
stripped of everything but the ASCII capitals and digits, and what is left must have from five to
twelve characters.

The Unicode tables are a parameter. Of their values the module relies on those for ASCII alone:
such text is decomposed already, upper case of capitals and digits is the text itself, and the
letters and decimal digits of ASCII are the usual ones.

SOURCE: src/lamto/gate/plates.py
-/

set_option autoImplicit false

namespace LamTo.Model

open LamTo.Library

/-- The tables with compatibility decomposition and `str.isalpha`. -/
structure Folding extends Unicode where
  nfkd : Text → Text
  isAlpha : Char → Bool
  nfkd_ascii : ∀ s, (∀ c ∈ s, c.toNat < 128) → nfkd s = s
  upper_ascii : ∀ s, (∀ c ∈ s, c.toNat < 128) → upper s = s.map Char.toUpper
  isAlpha_ascii : ∀ c, c.toNat < 128 → isAlpha c = c.isAlpha

/-- `[A-Z0-9]` -/
def isPlateCharacter (c : Char) : Bool := ('A' ≤ c && c ≤ 'Z') || ('0' ≤ c && c ≤ '9')

/-- `MIN_LENGTH`, `MAX_LENGTH` -/
def minPlateLength : ℕ := 5
def maxPlateLength : ℕ := 12

/-- `unicodedata.normalize("NFKD", raw or "").upper()` -/
def foldedPlate (F : Folding) (raw : Option Text) : Text := F.upper (F.nfkd (raw.getD []))

/-- `normalize_plate`; an error is the message of the `PlateFormatError`.
SOURCE: plates.py:25-32 -/
def normalizePlate (F : Folding) (raw : Option Text) : Except String Text := do
  let normalized := (foldedPlate F raw).filter isPlateCharacter
  require (minPlateLength ≤ normalized.length ∧ normalized.length ≤ maxPlateLength)
    "Plate must contain 5 to 12 letters or digits."
  return normalized

end LamTo.Model
