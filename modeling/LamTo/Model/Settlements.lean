import LamTo.Model.Proposals

/-!
# The fund, settlements and the published ledger

The embedding of `finance/fund.py`, `finance/settlements.py` and `finance/publication.py`.
A settlement is recorded, anchored, posted to the fund and published in one transaction.

One transaction sees one time: the calls of `timezone.now()` inside it are a single `now`,
so that the test that a fund entry is not dated in the future never fails here.

SOURCE: src/lamto/finance/fund.py, settlements.py, publication.py
-/

set_option autoImplicit false

namespace LamTo.Model

open LamTo.Library

/-! ## The fund -/

/-- `SOURCE_ENTRY_TYPES`; the others are `FINALIZED_ENTRY_TYPES`. -/
def EntryType.source : EntryType → Bool
  | .openingBalance | .inflow => true
  | _ => false

/-- `get_or_create_fund`. SOURCE: fund.py:49-52 -/
def getOrCreateFund (db : Db) (building : ℕ) : ℕ × Db :=
  match db.funds.first? fun f => f.building = building with
  | some (fund, _) => (fund, db)
  | none => (db.funds.next, { db with funds := db.funds.insert ⟨building⟩ })

/-- `_require_evidence`. SOURCE: fund.py:55-72 -/
def requireEvidence (db : Db) (evidence : Option ℕ) (building : ℕ) :
    Except ServiceError (ℕ × DocumentVersion) := do
  let pk ← orRaise evidence (.validation "Fund source evidence document is required.")
  let version ← orRaise (db.documentVersions.get? pk)
    (.validation "Fund source evidence versions must still exist.")
  let document ← getRow "Document" db.documents version.document
  require (document.building = building ∧ version.clean = true)
    (ServiceError.validation "Fund evidence must be clean, safe, and in the fund building.")
  return (pk, version)

/-- The decimal text of a key. -/
def decimal (n : ℕ) : Text := Nat.toDigits 10 n

/-- `_source_key`. SOURCE: fund.py:82-83 -/
def sourceKey (entryType : EntryType) (fund : ℕ) (originalHash : Text) : Text :=
  entryType.code ++ ':' :: decimal fund ++ ':' :: originalHash

/-- The key of a settlement's outflow. SOURCE: fund.py:240 -/
def outflowKey (proposal : ℕ) : Text := "OUTFLOW:proposal:".toList ++ decimal proposal

/-- The sign an entry's amount has to have: `fund_entry_amount_sign`. -/
def EntryType.signOk : EntryType → ℤ → Bool
  | .openingBalance, i | .inflow, i => 0 < i
  | .outflow, i => i < 0
  | .reversal, i | .replacement, i => i ≠ 0

/-- `MaintenanceFundEntry.save(force_insert=True)` under a given key, with the constraints of
the table. -/
def insertFundEntry (db : Db) (pk : ℕ) (entry : MaintenanceFundEntry) : Except ServiceError Db := do
  require (pk < 2 ^ 63) (ServiceError.data "id")
  require (-2 ^ 63 ≤ entry.amountVnd ∧ entry.amountVnd < 2 ^ 63) (ServiceError.data "amount_vnd")
  require (entry.entryType.signOk entry.amountVnd = true)
    (ServiceError.integrity "fund_entry_amount_sign")
  let _ ← textColumn "source_key" (some 128) entry.sourceKey
  require (db.fundEntries.any (fun e => e.sourceKey = entry.sourceKey) = false)
    (ServiceError.integrity "maintenancefundentry_source_key_key")
  if h : 0 < pk ∧ ∀ r ∈ db.fundEntries.rows, r.1 ≠ pk then
    return { db with fundEntries := db.fundEntries.insertAt pk entry h }
  else .error (.integrity "maintenancefundentry_pkey")

/-- The key the caller gave, or the next one of the sequence. SOURCE: fund.py:131-134 -/
def fundEntryKey (db : Db) (fundEntryId : PyValue) : Except ServiceError (ℕ × Db) :=
  match fundEntryId with
  | .none => return (db.fundEntryIds, { db with fundEntryIds := db.fundEntryIds + 1 })
  | given => do
    let pk ← requiredPositive "Fund entry id must be a positive integer." given
    return (pk, db)

/-- `record_fund_source` without a source key: the key of the entry. `awareTimestamp` says
that the timestamp is absent or an aware `datetime`; it is used for nothing else.
SOURCE: fund.py:116-167 -/
def recordFundSource (db : Db) (now fund : ℕ) (entryType : EntryType) (amountVnd : PyValue)
    (evidence : Option ℕ) (recorder : ℕ) (fundEntryId : PyValue) (awareTimestamp : Bool) :
    Except ServiceError (ℕ × Db) := do
  let fundRow ← orRaise (db.funds.get? fund) (.validation "Maintenance fund does not exist.")
  let (actor, _) ← requireManagement db recorder fundRow.building
  require (entryType.source = true)
    (ServiceError.validation "Only opening balance and inflow sources may be recorded.")
  let amountVnd ← requiredPositive "Fund source amount must be a positive integer VND amount."
    amountVnd
  let (evidence, version) ← requireEvidence db evidence fundRow.building
  let (pk, db) ← fundEntryKey db fundEntryId
  require ((db.fundEntries.get? pk).isNone = true)
    (ServiceError.validation "Fund entry id is already used.")
  require (awareTimestamp = true)
    (ServiceError.validation "Fund entry timestamp must be timezone-aware.")
  let key := sourceKey entryType fund version.sha256
  require (db.fundEntries.any (fun e => e.sourceKey = key) = false)
    (ServiceError.validation "Fund source key already exists.")
  let entry : MaintenanceFundEntry := {
    fund, entryType, amountVnd := amountVnd, evidence := some evidence,
    evidenceHash := version.sha256, recorder := some actor, proposal := none, sourceKey := key,
    recordedAt := now }
  let db ← insertFundEntry db pk entry
  let db ← recordAudit db recorder actor "fund.record" "MaintenanceFundEntry" pk "accepted"
    [("entry_type".toList, .str entryType.code), ("amount_vnd".toList, .int amountVnd)]
  return (pk, db)

/-- `verify_fund_source`: the key of the verification. SOURCE: fund.py:170-200 -/
def verifyFundSource (db : Db) (now entry verifier : ℕ) : Except ServiceError (ℕ × Db) := do
  let row ← orRaise (db.fundEntries.get? entry) (.validation "Fund entry does not exist.")
  let fund ← getRow "MaintenanceFund" db.funds row.fund
  let (actor, _) ← requireManagement db verifier fund.building
  require (row.entryType.source = true)
    (ServiceError.validation "Only opening balance and inflow sources may be verified.")
  require (row.recorder ≠ none) (ServiceError.validation "Fund source has no recorder.")
  require (db.verifications.any (fun v => v.entry = entry) = false)
    (ServiceError.validation "Fund source has already been verified.")
  let verification := db.verifications.next
  let db := { db with verifications := db.verifications.insert ⟨entry, actor, now⟩ }
  let db ← recordAudit db verifier actor "fund.verify" "FundEntryVerification" verification
    "accepted" [("entry_id".toList, .int entry)]
  return (verification, db)

/-- `_source_verified_q`: a source with a verification. SOURCE: fund.py:203-207 -/
def sourceVerified (db : Db) (pk : ℕ) (e : MaintenanceFundEntry) : Bool :=
  e.entryType.source && db.verifications.any fun v => v.entry = pk

/-- `_finalized_posting_q`: a posting whose proposal has a published ledger entry.
SOURCE: fund.py:210-214 -/
def finalizedPosting (db : Db) (e : MaintenanceFundEntry) : Bool :=
  !e.entryType.source && e.proposal.any fun p => db.ledger.any fun l => l.proposal = p

/-- `fund_balance`. SOURCE: fund.py:217-235 -/
def fundBalance (db : Db) (building : ℕ) (verifiedOnly : Bool) : Except ServiceError ℤ := do
  require (0 < building) (ServiceError.validation "Building is required.")
  require ((db.buildings.get? building).isSome = true)
    (ServiceError.validation "Building does not exist.")
  match db.funds.first? fun f => f.building = building with
  | none => return 0
  | some (fund, _) =>
    let counted := db.fundEntries.rows.filter fun r => r.2.fund = fund &&
      ((if verifiedOnly then sourceVerified db r.1 r.2 else r.2.entryType.source)
        || finalizedPosting db r.2)
    return (counted.map fun r => r.2.amountVnd).sum

/-- `create_settlement_outflow`. The fund is looked up before the entry is.
SOURCE: fund.py:238-249 -/
def createSettlementOutflow (db : Db) (settlement : Settlement) : Except ServiceError Db := do
  let proposal ← getRow "Proposal" db.proposals settlement.proposal
  let (fund, db) := getOrCreateFund db proposal.building
  let key := outflowKey settlement.proposal
  if db.fundEntries.any fun e => e.sourceKey = key then return db
  else
    let entry : MaintenanceFundEntry := {
      fund, entryType := .outflow, amountVnd := -settlement.amountVnd, evidence := none,
      evidenceHash := [], recorder := none, proposal := some settlement.proposal,
      sourceKey := key, recordedAt := settlement.settledAt }
    insertFundEntry { db with fundEntryIds := db.fundEntryIds + 1 } db.fundEntryIds entry

/-! ## Publication -/

/-- The settlement of a proposal, complete. SOURCE: publication.py:11-18 -/
def loadExecutionChain (db : Db) (proposal : ℕ) : Except ServiceError (ℕ × Settlement) := do
  let settlement ← orRaise (db.settlements.first? fun s => s.proposal = proposal)
    (.validation "Settlement is required before publication.")
  require (settlement.2.outboxEvent ≠ none)
    (ServiceError.validation "Settlement must be completed before publication.")
  return settlement

/-- One document to be checked: its row, the hash it was published with, and where. -/
structure DocumentCheck where
  documentVersion : ℕ
  row : DocumentVersion
  expectedHash : Json
  gate : String

/-- The value of a key of a JSON object. -/
def lookup (key : String) : Json → Option Json
  | .obj ms => (ms.find? fun m => m.1 = key.toList).map Prod.snd
  | _ => none

/-- A primary key, read from JSON. -/
def readKey : Json → Except ServiceError ℕ
  | .int i => .ok i.toNat
  | _ => .error (.value "Field 'id' expected a number.")

/-- The quotations of a stored snapshot. SOURCE: publication.py:43 -/
def snapshotQuotations (snapshot : Json) : Except ServiceError (List Json) :=
  match snapshot with
  | .obj _ =>
    match lookup "quotation_versions" snapshot with
    | some (.arr items) => .ok items
    | some _ => .error (.type "quotation_versions is no list")
    | none => .ok []
  | _ => .error (.attribute "'get'")

/-- One item of the snapshot's quotations. SOURCE: publication.py:43-45 -/
def quotationCheck (db : Db) (item : Json) : Except ServiceError DocumentCheck := do
  let id ← orRaise (lookup "version_id" item) (.value "KeyError: 'version_id'")
  let pk ← readKey id
  let row ← getRow "DocumentVersion" db.documentVersions pk
  let expectedHash ← orRaise (lookup "sha256" item) (.value "KeyError: 'sha256'")
  return ⟨pk, row, expectedHash, "QUOTATION"⟩

/-- `_collect_document_checks`: the quotations of the snapshot, then the transfer.
SOURCE: publication.py:39-47 -/
def collectDocumentChecks (db : Db) (version : ProposalVersion) (settlement : Settlement) :
    Except ServiceError (List DocumentCheck) := do
  let items ← snapshotQuotations version.snapshot
  let quotations ← items.mapM (quotationCheck db)
  let transfer ← getRow "DocumentVersion" db.documentVersions settlement.transfer
  return quotations ++ [⟨settlement.transfer, transfer, .str transfer.sha256, "SETTLEMENT_TRANSFER"⟩]

/-- `case.decision.report_id if case else None` -/
def caseReportId (db : Db) : Option ℕ → Except ServiceError (Option ℕ)
  | none => return none
  | some case => do
    let c ← getRow "MaintenanceCase" db.cases case
    let decision ← getRow "TriageDecision" db.decisions c.decision
    return some decision.report

/-- `_resident_payload`. SOURCE: publication.py:21-36 -/
def residentPayload (db : Db) (proposal : ℕ) (row : Proposal) (version : ProposalVersion)
    (settlement : ℕ) (settlementRow : Settlement) (eventHash : Text) (hashes : List Text) :
    Except ServiceError Json := do
  let report ← caseReportId db row.case
  return .obj [("report_id".toList, keyJson report), ("case_id".toList, keyJson row.case),
    ("proposal_id".toList, .int proposal), ("proposal_version".toList, .int version.number),
    ("proposed_amount_vnd".toList, .int version.amountVnd),
    ("actual_cost_vnd".toList, .int settlementRow.amountVnd),
    ("contractor_name".toList, .str version.contractorName),
    ("document_hashes".toList, .arr (hashes.map .str)),
    ("settlement".toList, .obj [("settlement_id".toList, .int settlement),
      ("settlement_event_hash".toList, .str eventHash)])]

/-- `publish_settlement_entry`. SOURCE: publication.py:50-75 -/
def publishSettlementEntry (C : EvidenceConfig) (db : Db) (now settlement : ℕ) :
    Except ServiceError Db := do
  let settlementRow ← getRow "Settlement" db.settlements settlement
  if db.ledger.any fun l => l.settlement = settlement then return db
  else
    let event ← orRaise settlementRow.outboxEvent
      (.validation "Settlement must be completed before publication.")
    let eventRow ← getRow "BlockchainOutboxEvent" db.outbox event
    let proposal ← getRow "Proposal" db.proposals settlementRow.proposal
    let current ← orRaise proposal.currentVersion
      (.validation "A current proposal version is required.")
    let version ← getRow "ProposalVersion" db.versions current
    let checks ← collectDocumentChecks db version settlementRow
    let hashes := (checks.map fun c => c.row.sha256).dedup.insertionSort fun a b => ¬ Json.textLt b a
    let payload ← residentPayload db settlementRow.proposal proposal version settlement
      settlementRow eventRow.payloadHash hashes
    let stored ← orRaise (C.jsonb.column payload) (.data "resident_payload")
    let actualCostVnd ← positiveBigInt "actual_cost_vnd" "published_ledger_actual_cost_positive"
      settlementRow.amountVnd
    require (db.ledger.any (fun l => l.proposal = settlementRow.proposal) = false)
      (ServiceError.integrity "publishedledgerentry_proposal_id_key")
    let entry := db.ledger.next
    let db := { db with ledger := db.ledger.insert {
      residentPayload := stored, case := proposal.case, proposal := settlementRow.proposal,
      settlement, actualCostVnd, contractorName := version.contractorName, publishedAt := now } }
    let settledBy ← getRow "ManagementMembership" db.memberships settlementRow.settledBy
    recordAudit db settledBy.user settlementRow.settledBy "ledger.published"
      "PublishedLedgerEntry" entry "accepted" []

/-! ## Settlement -/

/-- `_require_proof`. SOURCE: settlements.py:17-24 -/
def requireProof (db : Db) (proof : Option ℕ) (building : ℕ) :
    Except ServiceError (ℕ × DocumentVersion) := do
  let required := ServiceError.validation
    "Settlement evidence requires a clean payment proof in the proposal building."
  let pk ← orRaise proof required
  let version ← orRaise (db.documentVersions.get? pk) required
  let document ← getRow "Document" db.documents version.document
  require (document.kind = .paymentProof ∧ document.building = building ∧ version.clean = true)
    required
  return (pk, version)

/-- `build_settlement_evidence_payload`: the payload of a stored settlement, from the rows of
the moment. SOURCE: settlements.py:27-29 -/
def buildSettlementEvidencePayload (db : Db) (settlement : ℕ) (row : Settlement) :
    Except ServiceError Json := do
  let proposal ← getRow "Proposal" db.proposals row.proposal
  let current ← orRaise proposal.currentVersion
    (.attribute "'NoneType' object has no attribute 'number'")
  let version ← getRow "ProposalVersion" db.versions current
  let transfer ← getRow "DocumentVersion" db.documentVersions row.transfer
  let settledAt ← orRaise (utcText row.settledAt) (.value "year is out of range")
  return .obj [("schema".toList, .str "settlement.v2".toList),
    ("settlement_id".toList, .int settlement), ("proposal_id".toList, .int row.proposal),
    ("proposal_version".toList, .int version.number), ("amount_vnd".toList, .int row.amountVnd),
    ("transfer_sha256".toList, .str transfer.sha256), ("settled_at".toList, .str settledAt)]

/-- The settlement row before its event exists. SOURCE: settlements.py:49-52 -/
def createSettlement (db : Db) (now proposal amountVnd transfer settledBy : ℕ) :
    Except ServiceError (ℕ × Settlement × Db) := do
  let amountVnd ← positiveBigInt "amount_vnd" "settlement_amount_positive" amountVnd
  require (db.settlements.any (fun s => s.proposal = proposal) = false)
    (ServiceError.integrity "settlement_proposal_id_key")
  let row : Settlement := ⟨proposal, amountVnd, transfer, settledBy, now, none⟩
  return (db.settlements.next, row, { db with settlements := db.settlements.insert row })

/-- `settlement.save(update_fields=["outbox_event"])` -/
def saveSettlementEvent (db : Db) (settlement event : ℕ) : Except ServiceError Db := do
  require (db.settlements.any (fun s => s.outboxEvent = some event) = false)
    (ServiceError.integrity "settlement_outbox_event_id_key")
  return { db with settlements := db.settlements.update settlement fun s =>
    { s with outboxEvent := some event } }

/-- `record_settlement`: the key of the settlement. SOURCE: settlements.py:32-65 -/
def recordSettlement (C : EvidenceConfig) (db : Db) (now proposal member : ℕ)
    (transfer : Option ℕ) (eventId : Text) : Except ServiceError (ℕ × Db) := do
  let row ← getRow "Proposal" db.proposals proposal
  let (actor, _) ← requireManagement db member row.building
  require (row.status = .completed)
    (ServiceError.validation "Only completed proposals can be settled.")
  require (db.settlements.any (fun s => s.proposal = proposal) = false)
    (ServiceError.validation "Settlement already exists for this proposal.")
  let current ← orRaise row.currentVersion
    (.validation "A current proposal version is required.")
  let version ← getRow "ProposalVersion" db.versions current
  let (original, _) ← requireProof db transfer row.building
  let (settlement, settlementRow, db) ←
    createSettlement db now proposal version.amountVnd original actor
  let payload ← buildSettlementEvidencePayload db settlement settlementRow
  let previousHash ← anchoredHash db version
  let (event, outbox) ← queuePlatformEvent C now eventId settlementType (.ofJson payload)
    previousHash row.building db.outbox
  let db := { db with outbox }
  let db ← saveSettlementEvent db settlement event
  let db ← createSettlementOutflow db settlementRow
  let db ← publishSettlementEntry C db now settlement
  let db ← recordAudit db member actor "settlement.settled" "Settlement" settlement "accepted"
    [("event_id".toList, .str (lower eventId))]
  return (settlement, db)

end LamTo.Model
