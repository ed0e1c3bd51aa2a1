import LamTo.Library.Outcome
import LamTo.Model.Evidence

/-!
# The database

One table per model of the applications, with the columns the services read or write. A row
is found by its primary key; a foreign key is the key of the row it names. Times are
microseconds since 1970.

Left out, because no modelled function reads them: names and addresses of buildings and
users, the storage keys of documents, the `created_at` columns of all but proposals and
their versions, and `creator_signature`, which is always empty. A report carries the building
of its unit, which `save` copies into the row, and an occupancy the building of its unit.

A service is a function from a database to a database or an exception. It runs in one
transaction, so an exception leaves the database as it was, apart from the keys its inserts
drew.

SOURCE: src/lamto/{accounts,documents,maintenance,finance,audit}/models
-/

set_option autoImplicit false

namespace LamTo.Model

open LamTo.Library

/-! ## Accounts and documents -/

/-- `ManagementMembership`. -/
structure Membership where
  user : ℕ
  building : ℕ
  active : Bool
deriving DecidableEq

/-- `ResidentOccupancy`; `building` is the building of its unit. -/
structure Occupancy where
  user : ℕ
  building : ℕ
  active : Bool
deriving DecidableEq

/-- `Document.Kind`. -/
inductive DocumentKind where
  | reportPhoto
  | quotation
  | invoice
  | acceptanceReport
  | paymentProof
  | contract
  | residentBill
deriving DecidableEq

structure Document where
  building : ℕ
  kind : DocumentKind
deriving DecidableEq

/-- `DocumentVersion`; `clean` is `scan_status = CLEAN`. -/
structure DocumentVersion where
  document : ℕ
  sha256 : Text
  clean : Bool
deriving DecidableEq

/-! ## Maintenance -/

/-- `CaseCategory`. -/
inductive CaseCategory where
  | elevator
  | waterLeak
  | electricalFault
  | heatingCooling
  | lighting
  | doorLock
  | appliance
  | structural
  | cleanliness
  | noise
  | other
deriving DecidableEq

def CaseCategory.code : CaseCategory → Text
  | .elevator => "ELEVATOR".toList
  | .waterLeak => "WATER_LEAK".toList
  | .electricalFault => "ELECTRICAL_FAULT".toList
  | .heatingCooling => "HEATING_COOLING".toList
  | .lighting => "LIGHTING".toList
  | .doorLock => "DOOR_LOCK".toList
  | .appliance => "APPLIANCE".toList
  | .structural => "STRUCTURAL".toList
  | .cleanliness => "CLEANLINESS".toList
  | .noise => "NOISE".toList
  | .other => "OTHER".toList

def CaseCategory.values : List CaseCategory :=
  [.elevator, .waterLeak, .electricalFault, .heatingCooling, .lighting, .doorLock, .appliance,
    .structural, .cleanliness, .noise, .other]

/-- `ManagementQueue`. -/
inductive ManagementQueue where
  | maintenance
  | plumbing
  | electrical
  | elevator
  | hvac
  | cleaning
  | security
  | landscaping
  | pestControl
  | general
deriving DecidableEq

def ManagementQueue.code : ManagementQueue → Text
  | .maintenance => "MAINTENANCE".toList
  | .plumbing => "PLUMBING".toList
  | .electrical => "ELECTRICAL".toList
  | .elevator => "ELEVATOR".toList
  | .hvac => "HVAC".toList
  | .cleaning => "CLEANING".toList
  | .security => "SECURITY".toList
  | .landscaping => "LANDSCAPING".toList
  | .pestControl => "PEST_CONTROL".toList
  | .general => "GENERAL".toList

def ManagementQueue.values : List ManagementQueue :=
  [.maintenance, .plumbing, .electrical, .elevator, .hvac, .cleaning, .security, .landscaping,
    .pestControl, .general]

/-- `URGENCIES`. -/
inductive Urgency where
  | low
  | medium
  | high
deriving DecidableEq

def Urgency.code : Urgency → Text
  | .low => "LOW".toList
  | .medium => "MEDIUM".toList
  | .high => "HIGH".toList

def Urgency.values : List Urgency := [.low, .medium, .high]

/-- `BuildingLocation`. -/
structure Location where
  building : ℕ
  parent : Option ℕ
  active : Bool
deriving DecidableEq

/-- `IssueReport.Status`. -/
inductive ReportStatus where
  | submitted
  | inReview
  | needsInfo
  | declined
  | inProgress
  | proposed
  | completed
  | closed
deriving DecidableEq

/-- `TERMINAL_STATUSES`. SOURCE: cases.py:19-21 -/
def ReportStatus.terminal : ReportStatus → Bool
  | .declined | .completed | .closed => true
  | _ => false

/-- `IssueReport`; `building` is the building of its unit. -/
structure IssueReport where
  reporter : ℕ
  building : ℕ
  isPrivate : Bool
  status : ReportStatus
  declinedReason : Text
  declinedBy : Option ℕ
  declinedAt : Option ℕ
deriving DecidableEq

/-- `TriageSuggestion`, under the report of its job. -/
structure TriageSuggestion where
  report : ℕ
  category : CaseCategory
  urgency : Urgency
  managementQueue : ManagementQueue
  deadlineMinutes : ℕ
deriving DecidableEq

structure TriageDecision where
  report : ℕ
  suggestion : Option ℕ
  operator : ℕ
  category : CaseCategory
  urgency : Urgency
  location : ℕ
  managementQueue : ManagementQueue
  deadlineMinutes : ℕ
  differences : Json

structure MaintenanceCase where
  decision : ℕ
  building : ℕ
  category : CaseCategory
  urgency : Urgency
  location : ℕ
  managementQueue : ManagementQueue
  deadlineAt : ℕ
  active : Bool
  startedAt : Option ℕ
  completedAt : Option ℕ
  closedAt : Option ℕ
deriving DecidableEq

structure CaseReport where
  case : ℕ
  report : ℕ
  groupedBy : ℕ
deriving DecidableEq

/-- `InfoRequest`: a question to the reporter, open until it is resolved. -/
structure InfoRequest where
  report : ℕ
  message : Text
  createdBy : ℕ
  replyText : Text
  resolvedAt : Option ℕ
deriving DecidableEq

/-- `CompletionRating`, of a case or of a standalone proposal. -/
structure CompletionRating where
  resident : ℕ
  case : Option ℕ
  proposal : Option ℕ
  satisfied : Bool
  comment : Text
  createdAt : ℕ
deriving DecidableEq

structure WorkUpdate where
  case : Option ℕ
  proposal : Option ℕ
  author : ℕ
  cause : Text
  result : Text
deriving DecidableEq

/-! ## Finance -/

/-- `Proposal.Status`. -/
inductive ProposalStatus where
  | draft
  | published
  | notProceeding
  | inProgress
  | completed
  | closed
deriving DecidableEq

structure Proposal where
  case : Option ℕ
  building : ℕ
  creatorMembership : ℕ
  status : ProposalStatus
  currentVersion : Option ℕ
  decidedBy : Option ℕ
  decidedAt : Option ℕ
  decisionNote : Text
  publicToken : Option Text
  completedAt : Option ℕ
  closedAt : Option ℕ
  createdAt : ℕ
deriving DecidableEq

structure ProposalVersion where
  proposal : ℕ
  number : ℕ
  amountVnd : ℕ
  contractorName : Text
  purpose : Text
  proposedAction : Text
  expectedStart : Option Date
  expectedEnd : Option Date
  expectedSchedule : Text
  snapshot : Json
  snapshotHash : Text
  creatorMembership : ℕ
  outboxEvent : ℕ
  createdAt : ℕ

structure ProposalDocument where
  proposalVersion : ℕ
  documentVersion : ℕ
deriving DecidableEq

/-- `PricePrediction`, as far as a publication reads it. -/
structure PricePrediction where
  building : ℕ
  case : Option ℕ
  amountVnd : ℕ
  proposalVersion : Option ℕ
deriving DecidableEq

structure Settlement where
  proposal : ℕ
  amountVnd : ℕ
  transfer : ℕ
  settledBy : ℕ
  settledAt : ℕ
  outboxEvent : Option ℕ
deriving DecidableEq

structure MaintenanceFund where
  building : ℕ
deriving DecidableEq

/-- `MaintenanceFundEntry.EntryType`. -/
inductive EntryType where
  | openingBalance
  | inflow
  | outflow
  | reversal
  | replacement
deriving DecidableEq

def EntryType.code : EntryType → Text
  | .openingBalance => "OPENING_BALANCE".toList
  | .inflow => "INFLOW".toList
  | .outflow => "OUTFLOW".toList
  | .reversal => "REVERSAL".toList
  | .replacement => "REPLACEMENT".toList

structure MaintenanceFundEntry where
  fund : ℕ
  entryType : EntryType
  amountVnd : ℤ
  evidence : Option ℕ
  evidenceHash : Text
  recorder : Option ℕ
  proposal : Option ℕ
  sourceKey : Text
  recordedAt : ℕ
deriving DecidableEq

structure FundEntryVerification where
  entry : ℕ
  membership : ℕ
  verifiedAt : ℕ
deriving DecidableEq

structure PublishedLedgerEntry where
  residentPayload : Json
  case : Option ℕ
  proposal : ℕ
  settlement : ℕ
  actualCostVnd : ℕ
  contractorName : Text
  publishedAt : ℕ

/-- `VerificationObservation.Result`. -/
inductive VerificationResult where
  | verified
  | mismatch
  | unavailable
deriving DecidableEq

structure VerificationObservation where
  publishedEntry : ℕ
  result : VerificationResult
  checkedDocumentHashes : List Text
  checkedChainEventIds : List Text
  chainConsulted : Bool
  details : Json
  observedAt : ℕ

/-! ## Audit -/

structure AuditEvent where
  actor : ℕ
  membership : Option ℕ
  action : String
  targetType : String
  targetId : ℕ
  metadata : Json
  result : String

/-! ## The tables -/

structure AccountTables where
  buildings : Table Unit
  memberships : Table Membership
  occupancies : Table Occupancy

structure DocumentTables where
  documents : Table Document
  documentVersions : Table DocumentVersion

structure MaintenanceTables where
  locations : Table Location
  reports : Table IssueReport
  suggestions : Table TriageSuggestion
  decisions : Table TriageDecision
  cases : Table MaintenanceCase
  caseReports : Table CaseReport
  workUpdates : Table WorkUpdate
  infoRequests : Table InfoRequest
  ratings : Table CompletionRating

/-- `fundEntryIds` is the sequence of the fund entries, which a caller may draw from without
inserting, and whose next value a row may already have. -/
structure FinanceTables where
  proposals : Table Proposal
  versions : Table ProposalVersion
  proposalDocuments : Table ProposalDocument
  predictions : Table PricePrediction
  settlements : Table Settlement
  funds : Table MaintenanceFund
  fundEntries : Table MaintenanceFundEntry
  fundEntryIds : ℕ
  verifications : Table FundEntryVerification
  ledger : Table PublishedLedgerEntry
  observations : Table VerificationObservation

structure Db extends AccountTables, DocumentTables, MaintenanceTables, FinanceTables where
  outbox : OutboxTable
  audit : Table AuditEvent

def Db.empty : Db where
  buildings := .empty
  memberships := .empty
  occupancies := .empty
  documents := .empty
  documentVersions := .empty
  locations := .empty
  reports := .empty
  suggestions := .empty
  decisions := .empty
  cases := .empty
  caseReports := .empty
  workUpdates := .empty
  infoRequests := .empty
  ratings := .empty
  proposals := .empty
  versions := .empty
  proposalDocuments := .empty
  predictions := .empty
  settlements := .empty
  funds := .empty
  fundEntries := .empty
  fundEntryIds := 1
  verifications := .empty
  ledger := .empty
  observations := .empty
  outbox := .empty
  audit := .empty

/-! ## Columns -/

/-- The character `\x00`, which no text column holds. -/
def nul : Char := Char.ofNat 0

/-- A text column with its length limit. -/
def textColumn (column : String) (limit : Option ℕ) (t : Text) : Except ServiceError Text := do
  require (nul ∉ t)
    (ServiceError.value "A string literal cannot contain NUL (0x00) characters.")
  require (limit.all (t.length ≤ ·)) (ServiceError.data column)
  return t

/-- A `BigIntegerField` that a check constraint keeps positive. -/
def positiveBigInt (column constraint : String) (i : ℤ) : Except ServiceError ℕ := do
  require (i < 2 ^ 63) (ServiceError.data column)
  require (0 < i) (ServiceError.integrity constraint)
  return i.toNat

/-- The row of a `get`, or `DoesNotExist`. -/
def getRow {α : Type} (model : String) (t : Table α) (pk : ℕ) : Except ServiceError α :=
  orRaise (t.get? pk) (.doesNotExist model)

/-- A foreign key as a JSON value. -/
def keyJson (pk : Option ℕ) : Json :=
  match pk with
  | some n => .int n
  | none => .null

/-! ## Permissions and the audit trail -/

/-- `require_management`: the user's active membership of the building.
SOURCE: accounts/services.py:3-11 -/
def requireManagement (db : Db) (user building : ℕ) : Except ServiceError (ℕ × Membership) :=
  orRaise (db.memberships.first? fun m => m.user = user && m.building = building && m.active)
    (.permissionDenied "management")

/-- `record_audit` under a membership: it has to be the actor's and active.
SOURCE: audit/services.py:8-40 -/
def recordAudit (db : Db) (actor membership : ℕ) (action targetType : String) (targetId : ℕ)
    (result : String) (metadata : List (Text × Json)) : Except ServiceError Db := do
  require ((db.memberships.get? membership).any fun m => m.user = actor && m.active)
    (ServiceError.permissionDenied "Audit membership attribution is invalid.")
  let event := ⟨actor, some membership, action, targetType, targetId, .obj metadata, result⟩
  return { db with audit := db.audit.insert event }

/-- What a resident may be recorded for without a membership. SOURCE: audit/services.py:11-16 -/
def residentAction (action targetType : String) : Bool :=
  [("report.submit", "IssueReport"), ("request.info_replied", "InfoRequest"),
    ("work.rate", "CompletionRating"), ("document.upload", "DocumentVersion")].contains
    (action, targetType)

/-- `record_audit` without a membership: a resident's own action needs an active occupancy of
the actor; `occupancy` is the `occupancy_id` of the metadata. SOURCE: audit/services.py:9-27 -/
def recordAuditWithoutMembership (db : Db) (actor : ℕ) (action targetType : String)
    (targetId : ℕ) (result : String) (occupancy : Option ℕ) (metadata : List (Text × Json)) :
    Except ServiceError Db := do
  let validOccupancy := occupancy.any fun pk =>
    (db.occupancies.get? pk).any fun o => o.user = actor && o.active
  let billPayment := action = "bill.payment_recorded" && targetType = "Bill"
  let download := action = "document.download" && targetType = "DocumentVersion"
  require ((billPayment || residentAction action targetType && validOccupancy ||
      download && !(db.memberships.any fun m => m.user = actor && m.active) &&
        (occupancy.isNone || validOccupancy)) = true)
    (ServiceError.permissionDenied "Audit membership attribution is invalid.")
  let event := ⟨actor, none, action, targetType, targetId, .obj metadata, result⟩
  return { db with audit := db.audit.insert event }

end LamTo.Model
