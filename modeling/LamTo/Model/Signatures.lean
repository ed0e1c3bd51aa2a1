import LamTo.Library.Hex
import LamTo.Library.Outcome
import LamTo.Model.Registry

/-!
# Signatures in normal form

The embedding of `normalize_signature` in `evidence/signatures.py`: a signature given as a
hexadecimal text or as bytes is brought to 65 bytes, its recovery byte to 27 or 28, and the two
numbers are held to the ranges of secp256k1.

`bytes.fromhex` passes over ASCII whitespace between two bytes, though not inside one, and takes
digits of either case; `bytes.hex` writes lower case.

SOURCE: src/lamto/evidence/signatures.py:9-10, 53-73
-/

set_option autoImplicit false

namespace LamTo.Model

open LamTo.Library

/-- `SECP256K1_N` -/
def secp256k1N : ℕ := 0xFFFFFFFFFFFFFFFFFFFFFFFFFFFFFFFEBAAEDCE6AF48A03BBFD25E8CD0364141

/-- What `normalize_signature` is called with: a `str`, a `bytes` or `bytearray`, or neither. -/
inductive SignatureValue where
  | str (text : Text)
  | bytes (raw : Bytes)
  | other
deriving DecidableEq

/-- The ASCII whitespace `bytes.fromhex` passes over. -/
def isHexSpace (c : Char) : Bool := c = ' ' || ('\t' ≤ c && c ≤ '\r')

/-- `bytes.fromhex`; `none` is its `ValueError`. -/
def fromHex : Text → Option Bytes
  | [] => some []
  | [a] => if isHexSpace a then some [] else none
  | a :: b :: cs =>
    if isHexSpace a then fromHex (b :: cs)
    else do
      let high ← Json.hexValue a
      let low ← Json.hexValue b
      let bs ← fromHex cs
      pure (BitVec.ofNat 8 (16 * high + low) :: bs)

/-- `value.removeprefix("0x")` -/
def bareHex (t : Text) : Text := if t.take 2 = ['0', 'x'] then t.drop 2 else t

/-- The bytes of the value, before any of them is looked at. SOURCE: signatures.py:54-63 -/
def SignatureValue.raw : SignatureValue → Except String Bytes
  | .str text => orRaise (fromHex (bareHex text)) "Signature must be hexadecimal."
  | .bytes raw => .ok raw
  | .other => .error "Signature must be bytes or hexadecimal."

/-- Some signers return the recovery id as 0 or 1. SOURCE: signatures.py:66-67 -/
def recoveryByte (v : BitVec 8) : BitVec 8 := if v = 0 ∨ v = 1 then v + 27 else v

/-- 65 bytes with the recovery byte rewritten. -/
def withRecoveryByte (raw : Bytes) : Bytes :=
  raw.take 64 ++ (raw.drop 64).map recoveryByte

/-- The range tests of `normalize_signature`. SOURCE: signatures.py:68-70 -/
def isCanonicalSecp256k1 (raw : Bytes) : Bool :=
  let r := bigEndian (raw.take 32)
  let s := bigEndian ((raw.drop 32).take 32)
  decide (0 < r ∧ r < secp256k1N) && decide (0 < s ∧ s ≤ secp256k1N / 2)
    && (raw.drop 64).all fun v => v = 27 || v = 28

/-- `normalize_signature`; an error is the message of the `ValueError`.
SOURCE: signatures.py:53-73 -/
def normalizeSignature (signature : SignatureValue) : Except String Text := do
  let raw ← signature.raw
  require (raw.length = 65) "Signature must be exactly 65 bytes."
  let raw := withRecoveryByte raw
  require (isCanonicalSecp256k1 raw = true) "Signature is not canonical secp256k1."
  return '0' :: 'x' :: byteText raw

end LamTo.Model
