import LamTo.Model.Maintenance

/-!
# Proposals and their published versions

The embedding of `finance/proposals.py`. A publication queues its evidence event and stores
the version it anchors in one transaction; the payload is built from the arguments, not from
the rows. `build_proposal_evidence_payload`, which no service calls, is left out.

Arguments whose type the code tests are Python objects (`PyValue`); a date argument is
absent, a text or a date.

SOURCE: src/lamto/finance/proposals.py
-/

set_option autoImplicit false

namespace LamTo.Model

open LamTo.Library

/-! ## Creating -/

/-- A proposal as `Proposal.objects.create` stores it. -/
def Proposal.draft (now : ℕ) (case : Option ℕ) (building creatorMembership : ℕ) : Proposal where
  case := case
  building := building
  creatorMembership := creatorMembership
  status := .draft
  currentVersion := none
  decidedBy := none
  decidedAt := none
  decisionNote := []
  publicToken := none
  completedAt := none
  closedAt := none
  createdAt := now

/-- `create_proposal`: the key of the proposal. SOURCE: proposals.py:199-240 -/
def createProposal (db : Db) (now case creator : ℕ) : Except ServiceError (ℕ × Db) := do
  let required := ServiceError.validation "An active uncompleted case is required."
  let caseRow ← orRaise (db.cases.get? case) required
  require (caseRow.active = true ∧ caseRow.completedAt = none) required
  let (membership, _) ← requireManagement db creator caseRow.building
  require (hasReport db case (·.isPrivate) = false)
    (ServiceError.validation "Private requests cannot become community proposals.")
  require (hasReport db case (fun r => r.status = .inProgress) = false)
    (ServiceError.validation "Cases already proceeding without spending cannot add a proposal.")
  require (db.proposals.any (fun p => p.case = some case) = false)
    (ServiceError.validation "A proposal already exists for this case.")
  let proposal := db.proposals.next
  let db := { db with
    proposals := db.proposals.insert (.draft now (some case) caseRow.building membership) }
  let db := updateReports db case (fun s => !s.terminal) .proposed
  let db ← recordAudit db creator membership "proposal.create" "Proposal" proposal "accepted"
    [("case_id".toList, .int case)]
  return (proposal, db)

/-- `create_standalone_proposal`. SOURCE: proposals.py:243-258 -/
def createStandaloneProposal (db : Db) (now building creator : ℕ) :
    Except ServiceError (ℕ × Db) := do
  let (membership, _) ← requireManagement db creator building
  let proposal := db.proposals.next
  let db := { db with proposals := db.proposals.insert (.draft now none building membership) }
  let db ← recordAudit db creator membership "proposal.create" "Proposal" proposal "accepted"
    [("case_id".toList, .null)]
  return (proposal, db)

/-! ## Deciding -/

/-- What a decision writes. SOURCE: proposals.py:270-276 -/
def Proposal.decide (now membership : ℕ) (proceed : Bool) (note : Text) (p : Proposal) : Proposal :=
  { p with
    status := if proceed then .inProgress else .notProceeding
    decidedBy := some membership
    decidedAt := some now
    decisionNote := note
    closedAt := if proceed then none else some now }

/-- `decide_proposal`. SOURCE: proposals.py:261-295 -/
def decideProposal (U : Unicode) (db : Db) (now proposal manager : ℕ) (proceed : PyValue)
    (note : Text) : Except ServiceError Db := do
  let row ← getRow "Proposal" db.proposals proposal
  let (membership, _) ← requireManagement db manager row.building
  require (row.status = .published)
    (ServiceError.validation "Only published proposals can be decided.")
  let proceed ← requiredBool "Proceed must be a boolean." proceed
  let note ← textColumn "decision_note" none (strip U note)
  let db := { db with
    proposals := db.proposals.update proposal (Proposal.decide now membership proceed note) }
  recordAudit db manager membership "proposal.decided" "Proposal" proposal "accepted"
    [("proceed".toList, .bool proceed)]

/-! ## Schedules and quotations -/

/-- A date argument. -/
inductive DateArg where
  | none
  | text (t : Text)
  | date (d : Date)

/-- The value an argument has after the first conversion; a text left over is blank.
SOURCE: proposals.py:41-49 -/
def DateArg.resolve (U : Unicode) : DateArg → Except ServiceError DateArg
  | .text t =>
    if strip U t ≠ [] then
      (orRaise (Date.fromIsoFormat (strip U t)) (.value "Invalid isoformat string")).map .date
    else if t = [] then .ok .none
    else .ok (.text t)
  | a => .ok a

/-- `bool(value)` after the conversion. -/
def DateArg.given : DateArg → Bool
  | .none => false
  | _ => true

/-- What a publication does with its three schedule arguments. -/
structure Schedule where
  start : Option Date
  finish : Option Date
  text : Text

/-- `_resolve_schedule_and_dates`. SOURCE: proposals.py:40-63 -/
def resolveScheduleAndDates (U : Unicode) (expectedStart expectedEnd : DateArg)
    (expectedSchedule : Text) : Except ServiceError Schedule := do
  let start ← expectedStart.resolve U
  let finish ← expectedEnd.resolve U
  require (start.given = finish.given)
    (ServiceError.validation "Expected start and end dates must be provided together.")
  let precedes := ServiceError.validation "Expected end date cannot precede expected start date."
  match start, finish with
  | .date a, .date b => do
    require (b.before a = false) precedes
    return ⟨some a, some b, a.dayMonthYear ++ " – ".toList ++ b.dayMonthYear⟩
  | .text a, .text b => do
    require (¬ Json.textLt b a) precedes
    .error (.attribute "'str' object has no attribute 'strftime'")
  | .none, .none =>
    return ⟨none, none, if strip U expectedSchedule ≠ [] then strip U expectedSchedule
      else "To be scheduled".toList⟩
  | _, _ => .error (.type "'<' not supported between instances of 'str' and 'datetime.date'")

/-- `_quotation_versions`: the rows in the order they were supplied. An object without a key
is `none`. SOURCE: proposals.py:66-90 -/
def quotationVersions (db : Db) (building : ℕ) (supplied : List (Option ℕ)) :
    Except ServiceError (List (ℕ × DocumentVersion)) := do
  let distinct := ServiceError.validation "At least one distinct quotation is required."
  let ids ← orRaise (supplied.mapM id) distinct
  require (ids ≠ [] ∧ ids.Nodup) distinct
  let versions ← orRaise (ids.mapM fun pk => (db.documentVersions.get? pk).map (pk, ·))
    (.validation "Every quotation version must still exist.")
  versions.forM fun v => do
    let document ← getRow "Document" db.documents v.2.document
    require (document.kind = .quotation ∧ document.building = building ∧ v.2.clean = true)
      (ServiceError.validation "Quotations must be clean, safe, and in the work-order building.")
  return versions

/-! ## Payloads -/

def dateJson (d : Option Date) : Json :=
  match d with
  | some d => .str d.isoformat
  | none => .null

/-- `payload_hash` of a JSON value. -/
def jsonHash (C : EvidenceConfig) (j : Json) : Except ServiceError Text :=
  liftCanonical (payloadHash C.unicode C.hashing (.ofJson j))

/-- What `_submission_snapshot` reads of the version, given or stored. -/
structure Terms where
  amountVnd : ℕ
  contractorName : Text
  purpose : Text
  proposedAction : Text
  schedule : Schedule

/-- The snapshot. SOURCE: proposals.py:105-126 -/
def snapshot (proposal : ℕ) (row : Proposal) (terms : Terms)
    (versions : List (ℕ × DocumentVersion)) (number : ℕ) : Json :=
  .obj [("proposal_id".toList, .int proposal), ("proposal_version".toList, .int number),
    ("case_id".toList, keyJson row.case), ("building_id".toList, .int row.building),
    ("amount_vnd".toList, .int terms.amountVnd),
    ("contractor_name".toList, .str terms.contractorName),
    ("purpose".toList, .str terms.purpose),
    ("proposed_action".toList, .str terms.proposedAction),
    ("expected_start".toList, dateJson terms.schedule.start),
    ("expected_end".toList, dateJson terms.schedule.finish),
    ("expected_schedule".toList, .str terms.schedule.text),
    ("quotation_versions".toList, .arr (versions.map fun v =>
      .obj [("version_id".toList, .int v.1), ("sha256".toList, .str v.2.sha256)]))]

/-- The snapshot of the case. SOURCE: proposals.py:139-146 -/
def caseSnapshot (pk : ℕ) (c : MaintenanceCase) : Json :=
  .obj [("case_id".toList, .int pk), ("category".toList, .str c.category.code),
    ("management_queue".toList, .str c.managementQueue.code),
    ("location_id".toList, .int c.location)]

/-- The payload's fields about the spend. SOURCE: proposals.py:127-135 -/
def spendFields (proposal : ℕ) (row : Proposal) (amountVnd number : ℕ)
    (snapshotHash quotationHash : Text) : List (Text × Json) :=
  [("proposal_id".toList, .int proposal), ("proposal_version".toList, .int number),
    ("record_id".toList, .int proposal), ("building_id".toList, .int row.building),
    ("amount_vnd".toList, .int amountVnd), ("proposal_snapshot_hash".toList, .str snapshotHash),
    ("quotation_hash".toList, .str quotationHash)]

/-- The payload's fields about the case. SOURCE: proposals.py:136-147 -/
def caseFields (C : EvidenceConfig) (db : Db) (row : Proposal) :
    Except ServiceError (List (Text × Json)) :=
  match row.case with
  | none => return []
  | some case => do
    let c ← getRow "MaintenanceCase" db.cases case
    let hash ← jsonHash C (caseSnapshot case c)
    return [("case_id".toList, .int case), ("case_snapshot_hash".toList, .str hash)]

/-- `_submission_snapshot`: the snapshot and the members of the evidence payload.
SOURCE: proposals.py:93-148 -/
def submissionSnapshot (C : EvidenceConfig) (db : Db) (proposal : ℕ) (row : Proposal)
    (terms : Terms) (versions : List (ℕ × DocumentVersion)) (number : ℕ) :
    Except ServiceError (Json × List (Text × Json)) := do
  let snap := snapshot proposal row terms versions number
  let snapshotHash ← jsonHash C snap
  let quotationHash ← jsonHash C (.arr (versions.map fun v => .str v.2.sha256))
  let caseMembers ← caseFields C db row
  return (snap,
    spendFields proposal row terms.amountVnd number snapshotHash quotationHash ++ caseMembers)

/-! ## Publishing -/

/-- `ZERO_HASH`. -/
def zeroHash : Text := '0' :: 'x' :: List.replicate 64 '0'

/-- `versions.order_by("-number").first()`. -/
def latestVersion (db : Db) (proposal : ℕ) : Option (ℕ × ProposalVersion) :=
  (db.versions.select fun v => v.proposal = proposal).foldl
    (fun best r => match best with
      | none => some r
      | some b => if b.2.number < r.2.number then some r else some b) none

/-- `"0x" + version.outbox_event.payload_hash` -/
def anchoredHash (db : Db) (version : ProposalVersion) : Except ServiceError Text := do
  let event ← getRow "BlockchainOutboxEvent" db.outbox version.outboxEvent
  return '0' :: 'x' :: event.payloadHash

/-- The hash a new version links to. SOURCE: proposals.py:362 -/
def previousHash (db : Db) : Option (ℕ × ProposalVersion) → Except ServiceError Text
  | some (_, version) => anchoredHash db version
  | none => return zeroHash

/-- The arguments of a publication; `publicToken` is the token a first publication draws. -/
structure Publication where
  amountVnd : PyValue
  contractorName : PyValue
  purpose : PyValue
  proposedAction : PyValue
  expectedStart : DateArg
  expectedEnd : DateArg
  expectedSchedule : Text
  quotationVersions : List (Option ℕ)
  eventId : Text
  pricePredictionId : Option ℕ
  publicToken : Text

/-- The tests of the arguments, in the source's order. SOURCE: proposals.py:322-341 -/
def Publication.terms (U : Unicode) (status : ProposalStatus) (args : Publication) :
    Except ServiceError Terms := do
  let amountVnd ← requiredPositive "Proposal amount must be a positive integer." args.amountVnd
  let contractorName ← requiredText U "Contractor name is required." args.contractorName
  require (status = .draft ∨ status = .published ∨ status = .inProgress)
    (ServiceError.validation "This proposal cannot receive another version.")
  let purpose ← requiredText U "Problem or need is required." args.purpose
  let proposedAction ← requiredText U "Proposed action is required." args.proposedAction
  let schedule ← resolveScheduleAndDates U args.expectedStart args.expectedEnd args.expectedSchedule
  return ⟨amountVnd, contractorName, purpose, proposedAction, schedule⟩

/-- `ProposalVersion.objects.create`, with the constraints of the table. -/
def createVersion (C : EvidenceConfig) (db : Db) (now proposal number : ℕ) (terms : Terms)
    (snap : Json) (creatorMembership event : ℕ) : Except ServiceError (ℕ × Db) := do
  let snapshotHash ← jsonHash C snap
  let amountVnd ← positiveBigInt "amount_vnd" "proposal_amount_positive" terms.amountVnd
  let contractorName ← textColumn "contractor_name" (some 255) terms.contractorName
  let purpose ← textColumn "purpose" none terms.purpose
  let proposedAction ← textColumn "proposed_action" none terms.proposedAction
  let expectedSchedule ← textColumn "expected_schedule" (some 200) terms.schedule.text
  let stored ← orRaise (C.jsonb.column snap) (.data "snapshot")
  require (number < 2 ^ 31) (ServiceError.data "number")
  require (db.versions.any (fun v => v.proposal = proposal && v.number = number) = false)
    (ServiceError.integrity "proposal_version_once")
  require (db.versions.any (fun v => v.outboxEvent = event) = false)
    (ServiceError.integrity "proposal_version_outbox_event_key")
  let version : ProposalVersion := {
    proposal, number, amountVnd, contractorName, purpose, proposedAction,
    expectedStart := terms.schedule.start, expectedEnd := terms.schedule.finish,
    expectedSchedule, snapshot := stored, snapshotHash, creatorMembership, outboxEvent := event,
    createdAt := now }
  return (db.versions.next, { db with versions := db.versions.insert version })

/-- `ProposalDocument.objects.bulk_create`: one row each, keys in the order of the list. -/
def createProposalDocuments (db : Db) (version : ℕ) (documents : List ℕ) : Db :=
  { db with proposalDocuments :=
      documents.foldl (fun t d => t.insert ⟨version, d⟩) db.proposalDocuments }

/-- The prediction takes the version when it was made for this proposal.
SOURCE: proposals.py:392-409 -/
def attachPrediction (db : Db) (prediction : Option ℕ) (row : Proposal) (amountVnd version : ℕ) :
    Db :=
  match prediction with
  | none => db
  | some pk =>
    { db with predictions := db.predictions.update pk fun p =>
        if p.building = row.building ∧ p.case = row.case ∧ p.amountVnd = amountVnd ∧
            p.proposalVersion = none then { p with proposalVersion := some version } else p }

/-- The save at the end of a publication. SOURCE: proposals.py:410-412 -/
def saveCurrentVersion (db : Db) (proposal version : ℕ) (publicToken : Option Text) :
    Except ServiceError Db := do
  require (publicToken.all fun t => !db.proposals.rows.any fun r =>
    r.1 ≠ proposal && r.2.publicToken = some t) (ServiceError.integrity "proposal_public_token_key")
  return { db with proposals := db.proposals.update proposal fun p =>
    { p with currentVersion := some version, status := .published,
             publicToken := publicToken.or p.publicToken } }

/-- `publish_proposal_version`: the key of the version. SOURCE: proposals.py:298-426 -/
def publishProposalVersion (C : EvidenceConfig) (db : Db) (now proposal creator : ℕ)
    (args : Publication) : Except ServiceError (ℕ × Db) := do
  let row ← getRow "Proposal" db.proposals proposal
  let (membership, _) ← requireManagement db creator row.building
  let terms ← args.terms C.unicode row.status
  let versions ← quotationVersions db row.building args.quotationVersions
  let previous := latestVersion db proposal
  let number := (previous.map fun v => v.2.number).getD 0 + 1
  let (snap, members) ← submissionSnapshot C db proposal row terms versions number
  let previousHash ← previousHash db previous
  let (event, outbox) ← queuePlatformEvent C now args.eventId proposalCreated
    (.ofJson (.obj members)) previousHash row.building db.outbox
  let db := { db with outbox }
  let (version, db) ← createVersion C db now proposal number terms snap membership event
  let db := createProposalDocuments db version (versions.map Prod.fst)
  let db := attachPrediction db args.pricePredictionId row terms.amountVnd version
  let db ← saveCurrentVersion db proposal version
    (if previous.isNone then some args.publicToken else none)
  let db ← recordAudit db creator membership "proposal.version.publish" "ProposalVersion" version
    "accepted" [("proposal_id".toList, .int proposal), ("number".toList, .int number),
      ("event_id".toList, .str (lower args.eventId))]
  return (version, db)

end LamTo.Model
