import LamTo.Model.Integrity

/-!
# The steps of the public explorer

The embedding of what the explorer shows of one outbox event: a cascade of early returns over
the local check, the anchoring setting, the stored status and the answer of the chain.

* The explorer's own client is the one of the integrity check; building it and asking it stand
  in one `try`.
* A confirmation time is a moment in microseconds, like the stored ones; the time of a record is
  in seconds, and `fromTimestamp` fails after the year 9999.

SOURCE: src/lamto/explorer/views.py:36-183, src/lamto/evidence/models.py:95-103
-/

set_option autoImplicit false

namespace LamTo.Model

open LamTo.Library

/-- `EvidenceLevel`. -/
inductive EvidenceLevel where
  | chainConfirmed
  | localSigned
  | pending
  | mismatch
deriving DecidableEq

/-- `evidence_level` -/
def Status.evidenceLevel : Status → EvidenceLevel
  | .localSettled => .localSigned
  | .confirmed => .chainConfirmed
  | .mismatch => .mismatch
  | _ => .pending

/-- `EVIDENCE_LEVEL_LABELS` -/
def EvidenceLevel.label : EvidenceLevel → Text
  | .chainConfirmed => "Đã neo trên blockchain".toList
  | .localSigned => "Đã ký — chưa bật neo blockchain".toList
  | .pending => "Đang chờ neo blockchain".toList
  | .mismatch => "Phát hiện sai lệch dữ liệu".toList

/-- `EVIDENCE_LEVEL_TONES` -/
def EvidenceLevel.tone : EvidenceLevel → Text
  | .chainConfirmed => "verified".toList
  | .localSigned => "info".toList
  | .pending => "warning".toList
  | .mismatch => "mismatch".toList

/-- `_chain_explorer_tx_url`; `explorerUrl` is the setting. SOURCE: views.py:64-69 -/
def chainExplorerTxUrl (explorerUrl txHash : Text) : Text :=
  let baseUrl := explorerUrl.rdropWhile fun c => c = '/'
  if baseUrl = [] ∨ txHash = [] then [] else baseUrl ++ "/tx/".toList ++ txHash

structure ChainStep where
  evidenceLevel : EvidenceLevel
  evidenceLabel : Text
  evidenceTone : Text
  payloadHash : Text
  transactionHash : Text
  transactionUrl : Text
  confirmationTime : Option ℕ
deriving DecidableEq

/-- `_make_chain_step`. SOURCE: views.py:72-91 -/
def makeChainStep (level : EvidenceLevel) (payloadHash transactionHash transactionUrl : Text)
    (confirmationTime : Option ℕ) : ChainStep :=
  ⟨level, level.label, level.tone, payloadHash, transactionHash, transactionUrl, confirmationTime⟩

/-- The step of an event, with its own hashes and link. -/
def eventStep (explorerUrl : Text) (row : OutboxEvent) (level : EvidenceLevel)
    (confirmationTime : Option ℕ) : ChainStep :=
  makeChainStep level row.payloadHash row.transactionHash
    (chainExplorerTxUrl explorerUrl row.transactionHash) confirmationTime

/-- `event.chain_block_timestamp or event.confirmed_at` -/
def storedConfirmation (row : OutboxEvent) : Option ℕ := row.chainBlockTimestamp.or row.confirmedAt

/-- The client, and its `find` for the event: one `try` holds both. -/
def liveRecord (chain : ChainAccess) (event : Identity) : Except Text (Option ChainRecord) := do
  let answers ← chain.client
  answers event

/-- The time shown with a record. SOURCE: views.py:171-174 -/
def recordTime (record : ChainRecord) (stored : Option ℕ) : Except ServiceError (Option ℕ) :=
  if 0 < record.recordedAt then do
    let time ← orRaise (fromTimestamp record.recordedAt) (.value "year is out of range")
    return some time
  else return stored

/-- `_read_chain_step`: the step, and whether the chain could not be reached.
SOURCE: views.py:94-183 -/
def readChainStep (C : EvidenceConfig) (db : Db) (explorerUrl : Text) (chain : ChainAccess)
    (event : Option (ℕ × OutboxEvent)) : Except ServiceError (ChainStep × Bool) :=
  match event with
  | none => return (makeChainStep .pending [] [] [] none, false)
  | some (pk, row) => do
    let stored := storedConfirmation row
    let check ← checkLocalEvidence C db pk row.toIdentity
    if check.verified = false then
      return (eventStep explorerUrl row .mismatch stored, false)
    else if chain.backend = .disabled ∨ row.status = .localSettled then
      return (eventStep explorerUrl row .localSigned stored, false)
    else if row.status = .mismatch then
      return (eventStep explorerUrl row .mismatch stored, false)
    else
      match liveRecord chain row.toIdentity with
      | .error _ => return (eventStep explorerUrl row row.status.evidenceLevel stored, true)
      | .ok none => return (eventStep explorerUrl row row.status.evidenceLevel stored, false)
      | .ok (some record) =>
        let level := if lower (removePrefix record.payloadHash) ≠
          lower (removePrefix row.payloadHash) then EvidenceLevel.mismatch else .chainConfirmed
        let time ← recordTime record stored
        return (eventStep explorerUrl row level time, false)

end LamTo.Model
