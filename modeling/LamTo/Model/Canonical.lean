import LamTo.Library.Hex
import LamTo.Library.Sha256
import LamTo.Library.Utf8

/-!
# Canonical payload bytes

The embedding of `evidence/canonical.py`. A payload is any Python object; what
`_normalize` accepts comes out as a JSON value, NFC applied to every string and key, and
`canonical_bytes` is the UTF-8 of its compact text with sorted keys.

Python's `unicodedata` is outside the program: `Unicode` carries the facts about NFC and
decimal digits the program rests on, and the tables its other modules read. `type(value) is int`
and `isinstance(value, bool)` are told apart by the constructors, every other type is `other`.

SOURCE: src/lamto/evidence/canonical.py
-/

set_option autoImplicit false

namespace LamTo.Model

open LamTo.Library

/-- A dictionary key: a `str`, or an object of another type. -/
inductive PyKey where
  | str (s : Text)
  | other (typeName : Text)
deriving DecidableEq

inductive PyValue where
  | none
  | bool (b : Bool)
  | int (i : Int)
  | str (s : Text)
  | list (xs : List PyValue)
  | dict (ms : List (PyKey × PyValue))
  | other (typeName : Text)

/-- What the program takes from the Unicode tables: normalization form C, decimal digits,
upper case and blanks. Applying NFC again changes nothing, ASCII text is in the form
already, and the ASCII decimals are the ten digits. -/
structure Unicode where
  nfc : Text → Text
  decimal : Char → Option ℕ
  upper : Text → Text
  isSpace : Char → Bool
  nfc_nfc : ∀ s, nfc (nfc s) = nfc s
  nfc_ascii : ∀ s, (∀ c ∈ s, c.toNat < 128) → nfc s = s
  decimal_ascii : ∀ c, c.toNat < 128 →
    decimal c = if c.isDigit then some (c.toNat - '0'.toNat) else none

/-- The exceptions of the two functions below, with their messages. -/
inductive CanonicalError where
  | typeError (message : Text)
  | valueError (message : Text)
deriving DecidableEq

mutual
/-- `_normalize`. SOURCE: canonical.py:6-23 -/
def normalize (U : Unicode) : PyValue → Except CanonicalError Json
  | .none => .ok .null
  | .bool b => .ok (.bool b)
  | .int i => .ok (.int i)
  | .str s => .ok (.str (U.nfc s))
  | .list xs => return .arr (← normalizeItems U xs)
  | .dict ms => return .obj (← normalizeMembers U [] ms)
  | .other typeName =>
    .error (.typeError ("Unsupported canonical value: ".toList ++ typeName))
def normalizeItems (U : Unicode) : List PyValue → Except CanonicalError (List Json)
  | [] => .ok []
  | x :: xs => return (← normalize U x) :: (← normalizeItems U xs)
/-- The loop over `value.items()`; `normalized` is the dictionary built so far. -/
def normalizeMembers (U : Unicode) (normalized : List (Text × Json)) :
    List (PyKey × PyValue) → Except CanonicalError (List (Text × Json))
  | [] => .ok normalized
  | (.other _, _) :: _ =>
    .error (.typeError "Canonical object keys must be strings.".toList)
  | (.str key, item) :: ms =>
    if U.nfc key ∈ normalized.map Prod.fst then
      .error (.valueError
        "Canonical object keys must remain unique after NFC normalization.".toList)
    else do
      let item ← normalize U item
      normalizeMembers U (normalized ++ [(U.nfc key, item)]) ms
end

/-- `str.encode("utf-8")`. -/
def encodeUtf8 (s : Text) : ByteArray := ⟨⟨Utf8.encode s⟩⟩

/-- `canonical_bytes`. SOURCE: canonical.py:26-31 -/
def canonicalBytes (U : Unicode) (payload : PyValue) : Except CanonicalError ByteArray :=
  match payload with
  | .dict _ | .list _ => return encodeUtf8 (Json.dumps (← normalize U payload))
  | _ => .error (.typeError "Canonical payload must be a dictionary or list.".toList)

/-- `json.loads` on bytes: UTF-8 decoding, then the parser. -/
def loadsBytes (b : ByteArray) : Option Json := do
  let s ← Utf8.decode b.data.toList
  Json.loads s

mutual
/-- A JSON value as the Python object `json.loads` makes of it. -/
def PyValue.ofJson : Json → PyValue
  | .null => .none
  | .bool b => .bool b
  | .int i => .int i
  | .float _ => .other "float".toList
  | .str s => .str s
  | .arr xs => .list (PyValue.ofItems xs)
  | .obj ms => .dict (PyValue.ofMembers ms)
def PyValue.ofItems : List Json → List PyValue
  | [] => []
  | x :: xs => PyValue.ofJson x :: PyValue.ofItems xs
def PyValue.ofMembers : List (Text × Json) → List (PyKey × PyValue)
  | [] => []
  | (k, v) :: ms => (.str k, PyValue.ofJson v) :: PyValue.ofMembers ms
end

/-- A digest with a hexadecimal text of 64 lower-case digits. -/
structure Hashing where
  sha256hex : ByteArray → Text
  sha256hex_length : ∀ b, (sha256hex b).length = 64
  sha256hex_digit : ∀ b, ∀ c ∈ sha256hex b, isLowerHex c = true

/-- `hashlib.sha256(...).hexdigest()`, the digest the program uses. -/
def sha256 : Hashing where
  sha256hex b := Sha256.hexdigest (b.data.toList.map UInt8.toNat)
  sha256hex_length _ := Sha256.hexdigest_length _
  sha256hex_digit _ := Sha256.isLowerHex_of_mem_hexdigest _

/-- `payload_hash`. SOURCE: canonical.py:34-35 -/
def payloadHash (U : Unicode) (H : Hashing) (payload : PyValue) :
    Except CanonicalError Text :=
  return H.sha256hex (← canonicalBytes U payload)

end LamTo.Model
