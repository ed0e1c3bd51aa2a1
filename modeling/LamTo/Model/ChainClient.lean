import LamTo.Model.Outbox

/-!
# The chain client and the match test

`find` reads a record of the registry as texts, `recordEvidenceCall` is the call `submit`
builds from a row, and `recordMatchesEvent` is the worker's comparison of the two sides.

The address library is a parameter: `AddressCodec` says that the checksum text of an
address reads back as that address. A comparison that raises (the row's signer is no
address) is `none`.

SOURCE: src/lamto/evidence/chain.py, src/lamto/evidence/worker.py
-/

set_option autoImplicit false

namespace LamTo.Model

open LamTo.Library

/-- `to_checksum_address` in two halves: reading an address and writing its checksum
text. -/
structure AddressCodec where
  parse : Text → Option Address
  checksum : Address → Text
  parse_checksum : ∀ a, parse (checksum a) = some a

/-- `to_checksum_address`; `none` when the text is no address. -/
def AddressCodec.toChecksumAddress (A : AddressCodec) (t : Text) : Option Text :=
  (A.parse t).map A.checksum

/-- `str.lower` on the ASCII texts it is applied to. -/
def lower (t : Text) : Text := t.map Char.toLower

/-- `"0x" + bytes(value).hex()` of 32 bytes; `Web3.to_hex` writes hashes the same way. -/
def bytes32Text (b : Bytes32) : Text := '0' :: 'x' :: hexDigits 64 b.toNat

/-- The 32 bytes a `0x` text of 64 digits stands for. -/
def bytes32Value (t : Text) : Bytes32 := BitVec.ofNat 256 (hexNat (t.drop 2))

/-- SOURCE: chain.py:36-42 -/
structure ChainRecord where
  payloadHash : Text
  previousHash : Text
  eventType : ℕ
  signer : Text
  recordedAt : ℕ
deriving DecidableEq

/-- `_normalize_payload_hash`. SOURCE: worker.py:67-69 -/
def normalizePayloadHash (value : Text) : Text :=
  if (lower value).take 2 = ['0', 'x'] then (lower value).drop 2 else lower value

/-- `_payload_hash_for_chain`. SOURCE: chain.py:79-83 -/
def payloadHashForChain (payloadHash : Text) : Text :=
  if (lower payloadHash).take 2 = ['0', 'x'] then lower payloadHash
  else '0' :: 'x' :: lower payloadHash

/-- `_record_matches_event`: the comparisons in the source's order, the checksums last.
SOURCE: worker.py:72-80 -/
def recordMatchesEvent (A : AddressCodec) (record : ChainRecord) (event : Identity) :
    Option Bool :=
  if normalizePayloadHash record.payloadHash = normalizePayloadHash event.payloadHash ∧
      lower record.previousHash = lower event.previousHash ∧
      record.eventType = event.eventType then do
    let found ← A.toChecksumAddress record.signer
    let expected ← A.toChecksumAddress event.signerAddress
    some (decide (found = expected))
  else some false

/-- The text `_mark_mismatch` stores. SOURCE: worker.py:164-168 -/
def mismatchError (record : ChainRecord) : Text :=
  "On-chain record does not match outbox signed identity (payload=".toList
    ++ record.payloadHash ++ ", previous=".toList ++ record.previousHash ++ ", type=".toList
    ++ Nat.toDigits 10 record.eventType ++ ", signer=".toList ++ record.signer ++ ").".toList

/-- `EvidenceRegistryClient.find` against the storage of the moment.
SOURCE: chain.py:131-142 -/
def find (A : AddressCodec) (registry : Registry) (event : Identity) : Option ChainRecord :=
  let raw := registry.records (bytes32Value event.eventId)
  if raw.recordedAt = 0 then none
  else some {
    payloadHash := bytes32Text raw.payloadHash
    previousHash := bytes32Text raw.previousHash
    eventType := raw.eventType.toNat
    signer := A.checksum raw.signer
    recordedAt := raw.recordedAt.toNat }

/-- The bytes of a `0x` text, as the contract encoder reads a `bytes` argument. -/
def signatureBytes (t : Text) : Option Bytes :=
  hexBytes (if t.take 2 = ['0', 'x'] then t.drop 2 else t)

/-- The `recordEvidence` call `submit` builds; `none` when an argument does not encode, and
`submit` raises. SOURCE: chain.py:144-156 -/
def recordEvidenceCall (A : AddressCodec) (event : Identity) : Option Call := do
  let signer ← A.parse event.signerAddress
  let signature ← signatureBytes event.signature
  some (.recordEvidence (bytes32Value event.eventId)
    (bytes32Value (payloadHashForChain event.payloadHash)) (bytes32Value event.previousHash)
    (BitVec.ofNat 8 event.eventType) signer signature)

end LamTo.Model
