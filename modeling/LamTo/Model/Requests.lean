import LamTo.Model.Proposals

/-!
# Questions to the reporter, ratings, and the decision of the web view

The embedding of `request_information` and `reply_information` of `maintenance/cases.py`, of
`maintenance/ratings.py`, and of the decide action of the proposal page, which decides and
starts the work of the case in one transaction. The reply of a triage job reaches a report
only through the last statement of `maintenance/ai.py`, which is `reviewSubmitted` here.

SOURCE: src/lamto/maintenance/cases.py, ratings.py, ai.py, src/lamto/web/views/proposals.py
-/

set_option autoImplicit false

namespace LamTo.Model

open LamTo.Library

/-! ## Triage jobs -/

/-- The report of a triage job that has ended, with a suggestion or without, is in review.
SOURCE: ai.py:149-151, 281-283 -/
def reviewSubmitted (db : Db) (report : ℕ) : Db :=
  { db with reports := db.reports.update report fun r =>
      if r.status = .submitted then { r with status := .inReview } else r }

/-! ## Information requests -/

/-- `request_information`: the key of the request. SOURCE: cases.py:192-213 -/
def requestInformation (U : Unicode) (db : Db) (report manager : ℕ) (message : Text) :
    Except ServiceError (ℕ × Db) := do
  let row ← orRaise (db.reports.get? report) (.validation "Report is required.")
  let (membership, _) ← requireManagement db manager row.building
  require (row.status.terminal = false)
    (ServiceError.validation "Closed or declined requests cannot ask for information.")
  require (strip U message ≠ [])
    (ServiceError.validation "An information request needs a message.")
  require (db.infoRequests.any (fun i => i.report = report && i.resolvedAt = none) = false)
    (ServiceError.validation "An information request is already open for this report.")
  let message ← textColumn "message" none (strip U message)
  let info := db.infoRequests.next
  let db := { db with infoRequests := db.infoRequests.insert ⟨report, message, manager, [], none⟩ }
  let db := { db with reports := db.reports.update report fun r => { r with status := .needsInfo } }
  let db ← recordAudit db manager membership "request.info_requested" "InfoRequest" info "accepted"
    [("report_id".toList, .int report)]
  return (info, db)

/-- A resident's active occupancy in a building. -/
def requireOccupancy (db : Db) (resident building : ℕ) (message : String) :
    Except ServiceError (ℕ × Occupancy) :=
  orRaise (db.occupancies.first? fun o => o.user = resident && o.active && o.building = building)
    (.permissionDenied message)

/-- `reply_information`: the key of the request. SOURCE: cases.py:216-241 -/
def replyInformation (U : Unicode) (db : Db) (now resident report : ℕ) (text : Text) :
    Except ServiceError (ℕ × Db) := do
  let row ← orRaise (db.reports.get? report) (.validation "Report is required.")
  require (row.reporter = resident)
    (ServiceError.permissionDenied "Only the reporter may reply to an information request.")
  let (info, _) ← orRaise
    (db.infoRequests.first? fun i => i.report = report && i.resolvedAt = none)
    (.validation "No open information request for this report.")
  require (strip U text ≠ [])
    (ServiceError.validation "A reply needs text (photos may be attached separately).")
  let (occupancy, _) ← requireOccupancy db resident row.building
    "Active occupancy in the building is required."
  let replyText ← textColumn "reply_text" none (strip U text)
  let db := { db with infoRequests := db.infoRequests.update info fun i =>
    { i with replyText, resolvedAt := some now } }
  let db := { db with reports := db.reports.update report fun r => { r with status := .inReview } }
  let db ← recordAuditWithoutMembership db resident "request.info_replied" "InfoRequest" info
    "accepted" (some occupancy)
    [("report_id".toList, .int report), ("occupancy_id".toList, .int occupancy)]
  return (info, db)

/-! ## Ratings -/

/-- The comment of a rating, stripped; the two services word the same tests differently. -/
def ratingComment (U : Unicode) (notText tooLong : String) : PyValue → Except ServiceError Text
  | .none => .ok []
  | .str s => do
    require ((strip U s).length ≤ 500) (ServiceError.validation tooLong)
    textColumn "comment" (some 500) (strip U s)
  | _ => .error (.validation notText)

/-- The case closes with its last open report. SOURCE: ratings.py:64-67 -/
def closeRatedCase (db : Db) (now case : ℕ) : Db :=
  if hasReport db case fun r => !r.status.terminal then db
  else
    { db with cases := db.cases.update case fun c =>
        { c with active := false, closedAt := some now } }

/-- The resident's own reports of the case close. SOURCE: ratings.py:61-63 -/
def closeRatedReports (db : Db) (resident case : ℕ) : Db :=
  { db with reports := db.reports.mapRows fun pk r =>
      if linkedTo db case pk && r.reporter = resident && r.status = .completed then
        { r with status := .closed }
      else r }

/-- `rate_completed_case`: the key of the rating. SOURCE: ratings.py:12-68 -/
def rateCompletedCase (U : Unicode) (db : Db) (now resident case : ℕ)
    (satisfied comment : PyValue) : Except ServiceError (ℕ × Db) := do
  let row ← orRaise (db.cases.get? case) (.validation "Case is required.")
  require (row.completedAt ≠ none) (ServiceError.validation "Only completed cases can be rated.")
  let satisfied ← requiredBool "Satisfied must be a boolean." satisfied
  let comment ← ratingComment U "Rating comment must be text."
    "Rating comment must be at most 500 characters." comment
  require (hasReport db case fun r => r.reporter = resident)
    (ServiceError.permissionDenied "Only residents who reported this case may rate the work.")
  let (occupancy, _) ← requireOccupancy db resident row.building
    "Active occupancy in the building is required to rate work."
  require (db.ratings.any (fun r => r.resident = resident && r.case = some case) = false)
    (ServiceError.validation "This case has already been rated by this resident.")
  let rating := db.ratings.next
  let db := { db with
    ratings := db.ratings.insert ⟨resident, some case, none, satisfied, comment, now⟩ }
  let db ← recordAuditWithoutMembership db resident "work.rate" "CompletionRating" rating
    "accepted" (some occupancy)
    [("occupancy_id".toList, .int occupancy), ("case_id".toList, .int case)]
  return (rating, closeRatedCase (closeRatedReports db resident case) now case)

/-- `rate_completed_proposal`: the key of the rating. SOURCE: ratings.py:71-100 -/
def rateCompletedProposal (U : Unicode) (db : Db) (now resident proposal : ℕ)
    (satisfied comment : PyValue) : Except ServiceError (ℕ × Db) := do
  let required := ServiceError.validation "Standalone proposal is required."
  let row ← orRaise (db.proposals.get? proposal) required
  require (row.case = none) required
  require (row.status = .completed ∧ row.completedAt ≠ none)
    (ServiceError.validation "Only completed proposals can be rated.")
  let satisfied ← requiredBool "Satisfied must be a boolean." satisfied
  let tooLong := "Rating comment must be text of at most 500 characters."
  let comment ← ratingComment U tooLong tooLong comment
  let (occupancy, _) ← requireOccupancy db resident row.building
    "Active occupancy in the building is required to rate work."
  require (db.ratings.any (fun r => r.resident = resident && r.proposal = some proposal) = false)
    (ServiceError.validation "This proposal has already been rated by this resident.")
  let rating := db.ratings.next
  let db := { db with
    ratings := db.ratings.insert ⟨resident, none, some proposal, satisfied, comment, now⟩ }
  let db ← recordAuditWithoutMembership db resident "work.rate" "CompletionRating" rating
    "accepted" (some occupancy)
    [("occupancy_id".toList, .int occupancy), ("proposal_id".toList, .int proposal)]
  return (rating, db)

/-! ## The decision of the web view -/

/-- The decide action of `proposal_detail`: a decision to proceed starts the work of the
proposal's case in the same transaction. SOURCE: web/views/proposals.py:218-236 -/
def decideAndStart (U : Unicode) (db : Db) (now proposal manager : ℕ) (proceed : Bool)
    (note : Text) : Except ServiceError Db := do
  let row ← getRow "Proposal" db.proposals proposal
  let db ← decideProposal U db now proposal manager (.bool proceed) note
  match proceed, row.case with
  | true, some case => startCaseWork db now case manager
  | _, _ => return db

end LamTo.Model
