import LamTo.Model.Settlements

/-!
# The integrity check

The embedding of `finance/integrity.py`: every outbox event is hashed again, once from its
stored payload and once from the rows that are published; every document is hashed again;
the chain is asked for every event; and one result is drawn from the three.

What lies outside is an argument. `Storage` is what reading a stored document gives, or the
text of the exception; `ChainAccess` is the anchoring setting, the outcome of building the
client, and what its `find` answers for an event.

The `details` of an observation are kept as JSON, with the keys the source gives them.

SOURCE: src/lamto/finance/integrity.py
-/

set_option autoImplicit false

namespace LamTo.Model

open LamTo.Library

/-! ## Outside -/

/-- The bytes of a document version, or why they cannot be read. -/
abbrev Storage := ℕ → Except Text ByteArray

/-- `EVIDENCE_ANCHORING_BACKEND`. -/
inductive Backend where
  | disabled
  | besu
deriving DecidableEq

/-- `EvidenceRegistryClient.find` for an event: a record, none, or an exception. -/
abbrev ChainAnswers := Identity → Except Text (Option ChainRecord)

structure ChainAccess where
  backend : Backend
  client : Except Text ChainAnswers

def Status.code : Status → Text
  | .pending => "PENDING".toList
  | .submitted => "SUBMITTED".toList
  | .confirmed => "CONFIRMED".toList
  | .localSettled => "LOCAL".toList
  | .failed => "FAILED".toList
  | .mismatch => "MISMATCH".toList

/-- `is_settled`. SOURCE: evidence/models.py:89-108 -/
def Status.isSettled : Status → Bool
  | .confirmed | .localSettled => true
  | _ => false

def VerificationResult.code : VerificationResult → Text
  | .verified => "VERIFIED".toList
  | .mismatch => "MISMATCH".toList
  | .unavailable => "UNAVAILABLE".toList

/-- `str.removeprefix("0x")` -/
def removePrefix (t : Text) : Text := if t.take 2 = ['0', 'x'] then t.drop 2 else t

/-! ## Local evidence -/

/-- `_CASE_PAYLOAD_FIELDS`. SOURCE: integrity.py:26-29 -/
def casePayloadFields : List Text :=
  ["case_id".toList, "case_snapshot_hash".toList, "report_id".toList,
    "report_snapshot_hash".toList, "estimated_amount_vnd".toList, "photo_hash".toList,
    "photo_hashes".toList]

/-- `dict.update`. -/
def updateMembers (members new : List (Text × Json)) : List (Text × Json) :=
  new.foldl (fun ms m => Json.assign m.1 m.2 ms) members

/-- What a stored version gives `_submission_snapshot`. -/
def ProposalVersion.terms (v : ProposalVersion) : Terms where
  amountVnd := v.amountVnd
  contractorName := v.contractorName
  purpose := v.purpose
  proposedAction := v.proposedAction
  schedule := ⟨v.expectedStart, v.expectedEnd, v.expectedSchedule⟩

/-- The quotations of a version, in the order of their links. SOURCE: integrity.py:41-47 -/
def quotationsOf (db : Db) (version : ℕ) : Except ServiceError (List (ℕ × DocumentVersion)) :=
  (db.proposalDocuments.select fun d => d.proposalVersion = version).mapM fun link =>
    (getRow "DocumentVersion" db.documentVersions link.2.documentVersion).map
      (link.2.documentVersion, ·)

/-- `_proposal_version_payload`. SOURCE: integrity.py:39-64 -/
def proposalVersionPayload (C : EvidenceConfig) (db : Db) (pk : ℕ) (version : ProposalVersion)
    (stored : List (Text × Json)) : Except ServiceError Json := do
  let quotations ← quotationsOf db pk
  let proposal ← getRow "Proposal" db.proposals version.proposal
  let (_, rebuilt) ← submissionSnapshot C db version.proposal proposal version.terms quotations
    version.number
  return .obj (updateMembers (rebuilt.filter fun m => !casePayloadFields.contains m.1)
    (stored.filter fun m => casePayloadFields.contains m.1))

/-- `published_payload`; `none` when the event belongs to no row. SOURCE: integrity.py:67-82 -/
def publishedPayload (C : EvidenceConfig) (db : Db) (event : ℕ) (row : Identity) :
    Except ServiceError (Option Json) :=
  let stored := match row.payload with
    | .obj ms => ms
    | _ => []
  match db.versions.first? fun v => v.outboxEvent = event with
  | some (pk, version) => return some (← proposalVersionPayload C db pk version stored)
  | none =>
    match db.settlements.first? fun s => s.outboxEvent = some event with
    | some (pk, settlement) => return some (← buildSettlementEvidencePayload db pk settlement)
    | none => return none

/-- The check of one event. -/
structure LocalCheck where
  eventId : Text
  localPayloadHash : Text
  storedPayloadRehash : Option Text
  error : Option Text
  publishedRowsRehash : Option Text
  verified : Bool

def CanonicalError.message : CanonicalError → Text
  | .typeError m | .valueError m => m

/-- `payload_hash(rebuilt) if rebuilt is not None else None` -/
def rowsRehash (C : EvidenceConfig) : Option Json → Except ServiceError (Option Text)
  | some payload => return some (← jsonHash C payload)
  | none => return none

/-- `check_local_evidence`: only the first of the two hashes may fail.
SOURCE: integrity.py:85-105 -/
def checkLocalEvidence (C : EvidenceConfig) (db : Db) (event : ℕ) (row : Identity) :
    Except ServiceError LocalCheck := do
  let storedHash := lower (removePrefix row.payloadHash)
  let (rehash, error) : Option Text × Option Text :=
    match payloadHash C.unicode C.hashing (.ofJson row.payload) with
    | .ok h => (some h, none)
    | .error e => (none, some e.message)
  let rebuilt ← publishedPayload C db event row
  let rows ← rowsRehash C rebuilt
  return { eventId := row.eventId, localPayloadHash := storedHash, storedPayloadRehash := rehash,
           error, publishedRowsRehash := rows,
           verified := rehash = some storedHash && (rebuilt.isNone || rows = some storedHash) }

/-- `_check_local_records`. SOURCE: integrity.py:108-111 -/
def checkLocalRecords (C : EvidenceConfig) (db : Db) (events : List (ℕ × OutboxEvent)) :
    Except ServiceError (Bool × List LocalCheck) := do
  let checks ← events.mapM fun e => checkLocalEvidence C db e.1 e.2.toIdentity
  return (checks.all (·.verified), checks)

/-- `_related_outbox_events`: the events of the versions by number, then the settlement's.
SOURCE: integrity.py:114-120 -/
def relatedOutboxEvents (db : Db) (proposal : ℕ) : Except ServiceError (List (ℕ × OutboxEvent)) := do
  let (_, settlement) ← loadExecutionChain db proposal
  let versions := (db.versions.select fun v => v.proposal = proposal).insertionSort
    fun a b => a.2.number ≤ b.2.number
  let keys := versions.map (fun v => v.2.outboxEvent) ++ settlement.outboxEvent.toList
  keys.mapM fun pk => (getRow "BlockchainOutboxEvent" db.outbox pk).map (pk, ·)

/-! ## The chain -/

inductive ChainResult where
  | skippedAnchoringDisabled
  | skippedLocal
  | unavailable
  | mismatch
  | verified
deriving DecidableEq

def ChainResult.code : ChainResult → Text
  | .skippedAnchoringDisabled => "SKIPPED_ANCHORING_DISABLED".toList
  | .skippedLocal => "SKIPPED_LOCAL".toList
  | .unavailable => "UNAVAILABLE".toList
  | .mismatch => "MISMATCH".toList
  | .verified => "VERIFIED".toList

/-- The check of one event on the chain; `local` holds its own payload hash when it was
asked for. -/
structure ChainCheck where
  eventId : Text
  localStatus : Status
  localPayloadHash : Option Text
  chainPayloadHash : Option Text
  result : ChainResult
  error : Option Text

/-- What the chain records say together: `chainOk` is `none` when nothing was decided. -/
structure ChainReport where
  chainOk : Option Bool
  unavailable : Bool
  backendDisabled : Bool
  chainError : Option Text
  checks : List ChainCheck

def skippedCheck (result : ChainResult) (event : OutboxEvent) : ChainCheck :=
  ⟨event.eventId, event.status, none, none, result, none⟩

/-- One round of the loop over the events that are asked for. SOURCE: integrity.py:168-201 -/
def chainCheck (answers : ChainAnswers) (event : OutboxEvent) : ChainCheck :=
  let asked (chain : Option Text) (result : ChainResult) (error : Option Text) : ChainCheck :=
    ⟨event.eventId, event.status, some event.payloadHash, chain, result, error⟩
  match answers event.toIdentity with
  | .error text => asked none .unavailable (some text)
  | .ok none => asked none .unavailable
      (if event.status = .confirmed then some "chain record missing".toList else none)
  | .ok (some record) =>
    asked (some (removePrefix record.payloadHash))
      (if removePrefix record.payloadHash = removePrefix event.payloadHash then .verified
        else .mismatch) none

/-- `_check_chain_records`. SOURCE: integrity.py:123-207 -/
def checkChainRecords (chain : ChainAccess) (events : List OutboxEvent) : ChainReport :=
  match chain.backend with
  | .disabled => ⟨none, true, true, none, events.map (skippedCheck .skippedAnchoringDisabled)⟩
  | .besu =>
    let skipped := (events.filter fun e => e.status = .localSettled).map
      (skippedCheck .skippedLocal)
    let chainEvents := events.filter fun e => e.status ≠ .localSettled
    if chainEvents = [] then ⟨none, true, false, none, skipped⟩
    else
      match chain.client with
      | .error text => ⟨none, true, false, some text, skipped⟩
      | .ok answers =>
        let checks := chainEvents.map (chainCheck answers)
        let (chainOk, unavailable) : Option Bool × Bool :=
          if checks.any fun c => c.result = .mismatch then (some false, false)
          else if checks.any fun c => c.result = .unavailable then (none, true)
          else (some true, false)
        ⟨chainOk, unavailable, false, none, skipped ++ checks⟩

/-! ## Documents -/

/-- The outcome of one document. -/
structure DocumentItem where
  documentVersion : ℕ
  gate : String
  expectedHash : Json
  storedSha256 : Text
  actualHash : Option Text
  result : VerificationResult
  error : Option Text

/-- `bool(value)` of a JSON value. -/
def truthy : Json → Bool
  | .null => false
  | .bool b => b
  | .int i => i ≠ 0
  | .float lit => (lit.takeWhile fun c => c ≠ 'e' && c ≠ 'E').any fun c => c.isDigit && c ≠ '0'
  | .str s => s ≠ []
  | .arr xs => !xs.isEmpty
  | .obj ms => !ms.isEmpty

/-- `expected_hash or doc_version.sha256` -/
def DocumentCheck.expected (c : DocumentCheck) : Json :=
  if truthy c.expectedHash then c.expectedHash else .str c.row.sha256

/-- The streamed hash of a document, or the exception's text. -/
def streamSha256 (C : EvidenceConfig) (storage : Storage) (pk : ℕ) : Except Text Text :=
  (storage pk).map C.hashing.sha256hex

/-- One document: its streamed hash is compared with both hashes. SOURCE: integrity.py:243-265 -/
def documentItem (C : EvidenceConfig) (storage : Storage) (c : DocumentCheck) : DocumentItem :=
  match streamSha256 C storage c.documentVersion with
  | .error text =>
    ⟨c.documentVersion, c.gate, c.expected, c.row.sha256, none, .unavailable, some text⟩
  | .ok actual =>
    ⟨c.documentVersion, c.gate, c.expected, c.row.sha256, some actual,
      if actual ≠ c.row.sha256 ∨ pyEq (.str actual) c.expected = false then .mismatch
      else .verified, none⟩

/-- What the loop over the documents carries. -/
structure DocumentLoop where
  docResult : VerificationResult
  checkedHashes : List Text
  items : List DocumentItem

/-- One round of the loop: a document that verifies leaves the result as it is, any other
overwrites it. SOURCE: integrity.py:240-265 -/
def documentStep (C : EvidenceConfig) (storage : Storage) (s : DocumentLoop) (c : DocumentCheck) :
    DocumentLoop :=
  let item := documentItem C storage c
  { docResult := if item.result = .verified then s.docResult else item.result
    checkedHashes := s.checkedHashes ++ item.actualHash.toList
    items := s.items ++ [item] }

def documentLoop (C : EvidenceConfig) (storage : Storage) (checks : List DocumentCheck) :
    DocumentLoop :=
  checks.foldl (documentStep C storage) ⟨.verified, [], []⟩

/-! ## The result -/

/-- The cascade of the decision. SOURCE: integrity.py:272-286 -/
def decideResult (docResult : VerificationResult) (localOk : Bool) (chain : ChainReport)
    (events : List OutboxEvent) : VerificationResult :=
  match docResult with
  | .mismatch => .mismatch
  | .unavailable => .unavailable
  | .verified =>
    if localOk = false ∨ chain.chainOk = some false then .mismatch
    else if chain.unavailable then
      if events.all fun e => e.status.isSettled then .verified else .unavailable
    else .verified

/-- The chain itself answered for every event. SOURCE: integrity.py:291-296 -/
def chainConsulted (chain : ChainReport) : Bool :=
  !chain.checks.isEmpty && chain.checks.all fun c => c.result = .verified || c.result = .mismatch

/-- An optional member. -/
def member (key : String) (value : Option Json) : List (Text × Json) :=
  (value.map fun v => (key.toList, v)).toList

def DocumentItem.json (i : DocumentItem) : Json :=
  .obj ([("document_version_id".toList, .int i.documentVersion),
    ("gate".toList, .str i.gate.toList), ("expected_hash".toList, i.expectedHash),
    ("stored_sha256".toList, .str i.storedSha256)]
    ++ member "actual_hash" (i.actualHash.map .str) ++ [("result".toList, .str i.result.code)]
    ++ member "error" (i.error.map .str))

def LocalCheck.json (c : LocalCheck) : Json :=
  .obj ([("event_id".toList, .str c.eventId),
    ("local_payload_hash".toList, .str c.localPayloadHash),
    ("stored_payload_rehash".toList, (c.storedPayloadRehash.map .str).getD .null)]
    ++ member "error" (c.error.map .str)
    ++ [("published_rows_rehash".toList, (c.publishedRowsRehash.map .str).getD .null),
      ("result".toList, .str (if c.verified then "VERIFIED" else "MISMATCH").toList)])

def ChainCheck.json (c : ChainCheck) : Json :=
  .obj ([("event_id".toList, .str c.eventId)]
    ++ member "local_payload_hash" (c.localPayloadHash.map .str)
    ++ [("local_status".toList, .str c.localStatus.code)]
    ++ member "chain_payload_hash" (c.chainPayloadHash.map .str)
    ++ [("result".toList, .str c.result.code)] ++ member "error" (c.error.map .str))

/-- SOURCE: integrity.py:297-302 -/
def detailsJson (documents : DocumentLoop) (locals : List LocalCheck) (chain : ChainReport) : Json :=
  .obj ([("documents".toList, .arr (documents.items.map DocumentItem.json)),
    ("local_checks".toList, .arr (locals.map LocalCheck.json))]
    ++ member "anchoring_backend" (if chain.backendDisabled then some (.str "disabled".toList)
        else none)
    ++ [("chain_checks".toList, .arr (chain.checks.map ChainCheck.json))]
    ++ member "chain_error" (chain.chainError.map .str)
    ++ [("document_result".toList, .str documents.docResult.code)])

/-- The part after the documents are collected: the observation, and for a mismatch the
audit record under the membership that settled. SOURCE: integrity.py:240-334 -/
def verifyDocuments (C : EvidenceConfig) (db : Db) (now entry : ℕ) (storage : Storage)
    (chain : ChainAccess) (row : PublishedLedgerEntry) (checks : List DocumentCheck) :
    Except ServiceError (ℕ × Db) := do
  let documents := documentLoop C storage checks
  let events ← relatedOutboxEvents db row.proposal
  let (localOk, locals) ← checkLocalRecords C db events
  let report := checkChainRecords chain (events.map Prod.snd)
  let result := decideResult documents.docResult localOk report (events.map Prod.snd)
  let details := detailsJson documents locals report
  let observation := db.observations.next
  let db := { db with observations := db.observations.insert {
    publishedEntry := entry, result, checkedDocumentHashes := documents.checkedHashes,
    checkedChainEventIds := events.map fun e => e.2.eventId,
    chainConsulted := chainConsulted report, details, observedAt := now } }
  if result = .mismatch then
    let settlement ← getRow "Settlement" db.settlements row.settlement
    let publisher ← getRow "ManagementMembership" db.memberships settlement.settledBy
    let db ← recordAudit db publisher.user settlement.settledBy "integrity.mismatch"
      "PublishedLedgerEntry" entry "mismatch" [("observation_id".toList, .int observation),
        ("action_item".toList, .str "integrity_mismatch".toList), ("details".toList, details)]
    return (observation, db)
  else return (observation, db)

/-- The published entry and its document checks. SOURCE: integrity.py:217-238 -/
def entryDocuments (db : Db) (entry : ℕ) :
    Except ServiceError (PublishedLedgerEntry × List DocumentCheck) := do
  let row ← orRaise (db.ledger.get? entry)
    (.validation "Published ledger entry does not exist.")
  let proposal ← getRow "Proposal" db.proposals row.proposal
  let (_, settlement) ← loadExecutionChain db row.proposal
  let current ← orRaise proposal.currentVersion
    (.attribute "'NoneType' object has no attribute 'snapshot'")
  let version ← getRow "ProposalVersion" db.versions current
  let checks ← collectDocumentChecks db version settlement
  return (row, checks)

/-- `verify_published_entry`: the key of the observation. SOURCE: integrity.py:210-334 -/
def verifyPublishedEntry (C : EvidenceConfig) (db : Db) (now entry : ℕ) (storage : Storage)
    (chain : ChainAccess) : Except ServiceError (ℕ × Db) := do
  let (row, checks) ← entryDocuments db entry
  verifyDocuments C db now entry storage chain row checks

end LamTo.Model
