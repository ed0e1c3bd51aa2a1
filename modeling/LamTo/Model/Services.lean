import LamTo.Library.Transition
import LamTo.Model.Integrity
import LamTo.Model.Requests

/-!
# The services as one system

A state of the system is a database, a step is one call that returns. A call that raises is
rolled back, which is no step; the keys its inserts drew are lost (`loseKeys`).

Besides the services there are the rows other parts of the application create: buildings,
memberships, occupancies, locations, documents, reports, suggestions and predictions. The
upload of a document stores the hexadecimal SHA-256 digest of its bytes. A worker's write to an
outbox row is `deliver`: whatever it writes, the identity of the row stays.

Transactions run one after another here. The services lock the rows they decide on before
they read them, so that concurrent calls on one proposal take effect in the order of the
locks.
-/

set_option autoImplicit false

namespace LamTo.Model

open LamTo.Library

/-- The keys lost by calls that were rolled back, for every table they insert into. -/
structure LostKeys where
  proposals : ℕ
  versions : ℕ
  proposalDocuments : ℕ
  settlements : ℕ
  funds : ℕ
  fundEntryIds : ℕ
  verifications : ℕ
  ledger : ℕ
  observations : ℕ
  decisions : ℕ
  cases : ℕ
  caseReports : ℕ
  workUpdates : ℕ
  infoRequests : ℕ
  ratings : ℕ
  outbox : ℕ
  audit : ℕ

/-- A report as it is submitted. -/
def IssueReport.submitted (reporter building : ℕ) (isPrivate : Bool) : IssueReport :=
  ⟨reporter, building, isPrivate, .submitted, [], none, none⟩

inductive Command where
  | createBuilding
  | createMembership (user building : ℕ)
  | setMembershipActive (membership : ℕ) (active : Bool)
  | createOccupancy (user building : ℕ)
  | setOccupancyActive (occupancy : ℕ) (active : Bool)
  | createLocation (row : Location)
  | createDocument (row : Document)
  | createDocumentVersion (row : DocumentVersion)
  | submitReport (reporter building : ℕ) (isPrivate : Bool)
  | suggest (row : TriageSuggestion)
  | reviewSubmitted (report : ℕ)
  | predict (row : PricePrediction)
  | loseKeys (lost : LostKeys)
  | deliver (event : ℕ) (delivery : Delivery)
  | confirmTriage (now report operator : ℕ) (category urgency : PyValue) (location : ℕ)
      (managementQueue deadlineMinutes : PyValue)
  | groupReport (case report operator : ℕ)
  | startCaseWork (now case manager : ℕ)
  | publishProgress (case : Option ℕ) (manager : ℕ) (cause result : Text) (proposal : Option ℕ)
  | completeProposalWork (now proposal manager : ℕ) (cause result : Text)
  | completeCaseWork (now case manager : ℕ) (cause result : Text)
  | closeExpiredCompletedCases (now : ℕ)
  | declineReport (now report manager : ℕ) (reason : Text)
  | requestInformation (report manager : ℕ) (message : Text)
  | replyInformation (now resident report : ℕ) (text : Text)
  | rateCompletedCase (now resident case : ℕ) (satisfied comment : PyValue)
  | rateCompletedProposal (now resident proposal : ℕ) (satisfied comment : PyValue)
  | createProposal (now case creator : ℕ)
  | createStandaloneProposal (now building creator : ℕ)
  | decideProposal (now proposal manager : ℕ) (proceed : PyValue) (note : Text)
  | decideAndStart (now proposal manager : ℕ) (proceed : Bool) (note : Text)
  | publishProposalVersion (now proposal creator : ℕ) (args : Publication)
  | getOrCreateFund (building : ℕ)
  | recordFundSource (now fund : ℕ) (entryType : EntryType) (amountVnd : PyValue)
      (evidence : Option ℕ) (recorder : ℕ) (fundEntryId : PyValue) (awareTimestamp : Bool)
  | verifyFundSource (now entry verifier : ℕ)
  | recordSettlement (now proposal member : ℕ) (transfer : Option ℕ) (eventId : Text)
  | verifyPublishedEntry (now entry : ℕ) (storage : Storage) (chain : ChainAccess)

/-- The database after a call that returns. -/
def returned {α : Type} : Except ServiceError (α × Db) → Option Db
  | .ok (_, db) => some db
  | .error _ => none

def returnedDb : Except ServiceError Db → Option Db
  | .ok db => some db
  | .error _ => none

/-- The database when a condition on it holds. -/
def guardDb (p : Bool) (db : Db) : Option Db := if p then some db else none

def Db.loseKeys (db : Db) (lost : LostKeys) : Db :=
  { db with
    proposals := db.proposals.skip lost.proposals
    versions := db.versions.skip lost.versions
    proposalDocuments := db.proposalDocuments.skip lost.proposalDocuments
    settlements := db.settlements.skip lost.settlements
    funds := db.funds.skip lost.funds
    fundEntryIds := db.fundEntryIds + lost.fundEntryIds
    verifications := db.verifications.skip lost.verifications
    ledger := db.ledger.skip lost.ledger
    observations := db.observations.skip lost.observations
    decisions := db.decisions.skip lost.decisions
    cases := db.cases.skip lost.cases
    caseReports := db.caseReports.skip lost.caseReports
    workUpdates := db.workUpdates.skip lost.workUpdates
    infoRequests := db.infoRequests.skip lost.infoRequests
    ratings := db.ratings.skip lost.ratings
    outbox := db.outbox.skip lost.outbox
    audit := db.audit.skip lost.audit }

/-- One step of the system; `none` when the call raises. -/
def Db.step (C : EvidenceConfig) (db : Db) : Command → Option Db
  | .createBuilding => some { db with buildings := db.buildings.insert () }
  | .createMembership user building =>
    guardDb ((db.buildings.get? building).isSome &&
        !db.memberships.any fun m => m.user = user && m.building = building)
      { db with memberships := db.memberships.insert ⟨user, building, true⟩ }
  | .setMembershipActive membership active =>
    some { db with memberships := db.memberships.update membership ({ · with active }) }
  | .createOccupancy user building =>
    guardDb (db.buildings.get? building).isSome
      { db with occupancies := db.occupancies.insert ⟨user, building, true⟩ }
  | .setOccupancyActive occupancy active =>
    some { db with occupancies := db.occupancies.update occupancy ({ · with active }) }
  | .createLocation row => some { db with locations := db.locations.insert row }
  | .createDocument row =>
    guardDb (db.buildings.get? row.building).isSome
      { db with documents := db.documents.insert row }
  | .createDocumentVersion row =>
    guardDb ((db.documents.get? row.document).isSome && isHash64 row.sha256)
      { db with documentVersions := db.documentVersions.insert row }
  | .submitReport reporter building isPrivate =>
    guardDb (db.buildings.get? building).isSome
      { db with reports := db.reports.insert (.submitted reporter building isPrivate) }
  | .suggest row => some { db with suggestions := db.suggestions.insert row }
  | .reviewSubmitted report => some (reviewSubmitted db report)
  | .predict row => some { db with predictions := db.predictions.insert row }
  | .loseKeys lost => some (db.loseKeys lost)
  | .deliver event delivery =>
    some { db with outbox := db.outbox.update event (OutboxEvent.deliver fun _ => delivery) }
  | .confirmTriage now report operator category urgency location queue minutes =>
    returned (confirmTriage C.unicode db now report operator category urgency location queue minutes)
  | .groupReport case report operator => returned (groupReport db case report operator)
  | .startCaseWork now case manager => returnedDb (startCaseWork db now case manager)
  | .publishProgress case manager cause result proposal =>
    returnedDb (publishProgress C.unicode db case manager cause result proposal)
  | .completeProposalWork now proposal manager cause result =>
    returnedDb (completeProposalWork C.unicode db now proposal manager cause result)
  | .completeCaseWork now case manager cause result =>
    returnedDb (completeCaseWork C.unicode db now case manager cause result)
  | .closeExpiredCompletedCases now => some (closeExpiredCompletedCases db now).2
  | .declineReport now report manager reason =>
    returnedDb (declineReport C.unicode db now report manager reason)
  | .requestInformation report manager message =>
    returned (requestInformation C.unicode db report manager message)
  | .replyInformation now resident report text =>
    returned (replyInformation C.unicode db now resident report text)
  | .rateCompletedCase now resident case satisfied comment =>
    returned (rateCompletedCase C.unicode db now resident case satisfied comment)
  | .rateCompletedProposal now resident proposal satisfied comment =>
    returned (rateCompletedProposal C.unicode db now resident proposal satisfied comment)
  | .createProposal now case creator => returned (createProposal db now case creator)
  | .createStandaloneProposal now building creator =>
    returned (createStandaloneProposal db now building creator)
  | .decideProposal now proposal manager proceed note =>
    returnedDb (decideProposal C.unicode db now proposal manager proceed note)
  | .decideAndStart now proposal manager proceed note =>
    returnedDb (decideAndStart C.unicode db now proposal manager proceed note)
  | .publishProposalVersion now proposal creator args =>
    returned (publishProposalVersion C db now proposal creator args)
  | .getOrCreateFund building =>
    guardDb (db.buildings.get? building).isSome (getOrCreateFund db building).2
  | .recordFundSource now fund entryType amountVnd evidence recorder fundEntryId aware =>
    returned (recordFundSource db now fund entryType amountVnd evidence recorder fundEntryId aware)
  | .verifyFundSource now entry verifier => returned (verifyFundSource db now entry verifier)
  | .recordSettlement now proposal member transfer eventId =>
    returned (recordSettlement C db now proposal member transfer eventId)
  | .verifyPublishedEntry now entry storage chain =>
    returned (verifyPublishedEntry C db now entry storage chain)

/-- The states of the system: those reached from the empty database. -/
def Db.Reachable (C : EvidenceConfig) (db : Db) : Prop :=
  Reaches (Db.step C) Always Db.empty db

end LamTo.Model
