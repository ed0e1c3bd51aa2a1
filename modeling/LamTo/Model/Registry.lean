import LamTo.Library.Outcome
import Mathlib.Algebra.Group.Nat.Defs
import Mathlib.Data.Nat.Notation
import Mathlib.Logic.Function.Basic

/-!
# The EvidenceRegistry contract

The embedding of `EvidenceRegistry.sol` with the parts of the OpenZeppelin contracts it
runs: `Ownable` for the owner, `EIP712` for the digest and `ECDSA` for the recovery. A
transaction either returns the new storage or reverts with a reason, and a reverted one
leaves the storage as it was.

Keccak-256 and the `ecrecover` precompile are the machine's (`Evm`). A block's time is
positive and fits `uint64`, so the cast in `recordEvidence` loses nothing and the presence
test `recordedAt == 0` is exact. Event logs are left out: nothing on chain reads them.

SOURCE: chain/src/EvidenceRegistry.sol
-/

set_option autoImplicit false

namespace LamTo.Model

open LamTo.Library

abbrev Bytes32 := BitVec 256
abbrev Address := BitVec 160
abbrev Bytes := List (BitVec 8)

/-- What a contract takes from the machine it runs on. `ecrecover` is zero when the
precompile recovers nothing. -/
structure Evm where
  keccak256 : Bytes → Bytes32
  ecrecover : Bytes32 → BitVec 8 → Bytes32 → Bytes32 → Address
  chainId : BitVec 256
  contractAddress : Address

/-- Why a transaction reverted: a `require` message, or one of the library's errors. -/
inductive Revert where
  | message (text : String)
  | ownableUnauthorizedAccount (account : Address)
  | ownableInvalidOwner (owner : Address)
  | ecdsaInvalidSignature
  | ecdsaInvalidSignatureLength (length : ℕ)
  | ecdsaInvalidSignatureS (s : Bytes32)
deriving DecidableEq

/-- `struct Record`. SOURCE: EvidenceRegistry.sol:12-18 -/
structure Record where
  payloadHash : Bytes32
  previousHash : Bytes32
  eventType : BitVec 8
  signer : Address
  recordedAt : BitVec 64
deriving DecidableEq

/-- The contract's storage; a mapping holds zeros where nothing was written. -/
structure Registry where
  owner : Address
  authorizedSigners : Address → Bool
  records : Bytes32 → Record

/-! ## Digest and recovery -/

/-- The bytes of a word, most significant first. -/
def word (w : BitVec 256) : Bytes :=
  (List.range 32).map fun i => BitVec.ofNat 8 (w.toNat >>> (8 * (31 - i)))

/-- The word at the head of a byte string, as `mload` reads it. -/
def mload (bs : Bytes) : Bytes32 :=
  BitVec.ofNat 256 ((bs.take 32).foldl (fun n b => 256 * n + b.toNat) 0)

def stringBytes (s : String) : Bytes := s.toUTF8.toList.map UInt8.toBitVec

def evidenceTypehash (E : Evm) : Bytes32 :=
  E.keccak256 (stringBytes
    "Evidence(bytes32 eventId,bytes32 payloadHash,bytes32 previousHash,uint8 eventType)")

/-- `_buildDomainSeparator`; the cached value is the same, since neither the chain id nor
the address changes. SOURCE: EIP712.sol `_domainSeparatorV4` -/
def domainSeparatorV4 (E : Evm) : Bytes32 :=
  let typeHash := E.keccak256 (stringBytes
    "EIP712Domain(string name,string version,uint256 chainId,address verifyingContract)")
  E.keccak256 (word typeHash ++ word (E.keccak256 (stringBytes "LamToEvidence"))
    ++ word (E.keccak256 (stringBytes "1")) ++ word E.chainId
    ++ word (E.contractAddress.setWidth 256))

def hashTypedDataV4 (E : Evm) (structHash : Bytes32) : Bytes32 :=
  E.keccak256 ([0x19, 0x01] ++ word (domainSeparatorV4 E) ++ word structHash)

/-- SOURCE: EvidenceRegistry.sol:36-42 -/
def hashEvidence (E : Evm) (eventId payloadHash previousHash : Bytes32) (eventType : BitVec 8) :
    Bytes32 :=
  hashTypedDataV4 E (E.keccak256 (word (evidenceTypehash E) ++ word eventId
    ++ word payloadHash ++ word previousHash ++ word (eventType.setWidth 256)))

/-- The largest `s` of a signature that is not malleable. -/
def halfOrder : ℕ := 0x7FFFFFFFFFFFFFFFFFFFFFFFFFFFFFFF5D576E7357A4501DDFE92F46681B20A0

/-- `ECDSA.recover` on 65 signature bytes. SOURCE: ECDSA.sol `tryRecover`, `_throwError` -/
def recover (E : Evm) (hash : Bytes32) (signature : Bytes) : Except Revert Address :=
  if signature.length ≠ 65 then .error (.ecdsaInvalidSignatureLength signature.length)
  else
    let r := mload signature
    let s := mload (signature.drop 32)
    let v := (signature.drop 64).headD 0
    if halfOrder < s.toNat then .error (.ecdsaInvalidSignatureS s)
    else
      let signer := E.ecrecover hash v r s
      if signer = 0 then .error .ecdsaInvalidSignature else .ok signer

/-! ## Transactions -/

/-- The functions of the contract that write storage. -/
inductive Call where
  | setAuthorizedSigner (signer : Address) (authorized : Bool)
  | recordEvidence (eventId payloadHash previousHash : Bytes32) (eventType : BitVec 8)
      (signer : Address) (signature : Bytes)
  | transferOwnership (newOwner : Address)
  | renounceOwnership
deriving DecidableEq

/-- A block's `timestamp`. -/
structure BlockTime where
  seconds : ℕ
  positive : 0 < seconds
  bounded : seconds < 2 ^ 64

/-- A call as a block executes it. -/
structure Transaction where
  sender : Address
  call : Call
  time : BlockTime

/-- The constructor. SOURCE: EvidenceRegistry.sol:28, Ownable.sol `constructor` -/
def deploy (initialOwner : Address) : Except Revert Registry := do
  require (initialOwner ≠ 0) (Revert.ownableInvalidOwner 0)
  return {
    owner := initialOwner
    authorizedSigners := fun _ => false
    records := fun _ => ⟨0, 0, 0, 0, 0⟩ }

namespace Registry

/-- `onlyOwner`. -/
def checkOwner (s : Registry) (sender : Address) : Except Revert Unit :=
  require (s.owner = sender) (Revert.ownableUnauthorizedAccount sender)

/-- SOURCE: EvidenceRegistry.sol:30-34 -/
def setAuthorizedSigner (s : Registry) (sender signer : Address) (authorized : Bool) :
    Except Revert Registry := do
  s.checkOwner sender
  require (signer ≠ 0) (Revert.message "zero signer")
  return { s with authorizedSigners := Function.update s.authorizedSigners signer authorized }

/-- SOURCE: EvidenceRegistry.sol:44-63 -/
def recordEvidence (E : Evm) (s : Registry) (time : BlockTime)
    (eventId payloadHash previousHash : Bytes32) (eventType : BitVec 8) (signer : Address)
    (signature : Bytes) : Except Revert Registry := do
  require (eventId ≠ 0) (Revert.message "zero event")
  require (payloadHash ≠ 0) (Revert.message "zero payload")
  require (1 ≤ eventType.toNat ∧ eventType.toNat ≤ 11) (Revert.message "unknown event type")
  require ((s.records eventId).recordedAt = 0) (Revert.message "duplicate event")
  require (s.authorizedSigners signer = true) (Revert.message "unauthorized signer")
  let recovered ← recover E (hashEvidence E eventId payloadHash previousHash eventType) signature
  require (recovered = signer) (Revert.message "bad signature")
  return { s with
    records := Function.update s.records eventId
      ⟨payloadHash, previousHash, eventType, signer, BitVec.ofNat 64 time.seconds⟩ }

def transferOwnership (s : Registry) (sender newOwner : Address) : Except Revert Registry := do
  s.checkOwner sender
  require (newOwner ≠ 0) (Revert.ownableInvalidOwner 0)
  return { s with owner := newOwner }

def renounceOwnership (s : Registry) (sender : Address) : Except Revert Registry := do
  s.checkOwner sender
  return { s with owner := 0 }

/-- One call: the storage it leaves, or why it reverts. -/
def exec (E : Evm) (s : Registry) (tx : Transaction) : Except Revert Registry :=
  match tx.call with
  | .setAuthorizedSigner signer authorized => s.setAuthorizedSigner tx.sender signer authorized
  | .recordEvidence eventId payloadHash previousHash eventType signer signature =>
    s.recordEvidence E tx.time eventId payloadHash previousHash eventType signer signature
  | .transferOwnership newOwner => s.transferOwnership tx.sender newOwner
  | .renounceOwnership => s.renounceOwnership tx.sender

/-- The storage after a transaction: a reverted one changes nothing. -/
def apply (E : Evm) (s : Registry) (tx : Transaction) : Registry :=
  match s.exec E tx with
  | .ok s' => s'
  | .error _ => s

/-- The storage after a sequence of transactions. -/
def applyAll (E : Evm) : Registry → List Transaction → Registry
  | s, [] => s
  | s, tx :: txs => applyAll E (s.apply E tx) txs

/-- The presence test of the contract and of `find`. -/
def Present (s : Registry) (eventId : Bytes32) : Prop := (s.records eventId).recordedAt ≠ 0

instance (s : Registry) (eventId : Bytes32) : Decidable (s.Present eventId) :=
  inferInstanceAs (Decidable (_ ≠ _))

end Registry

end LamTo.Model
