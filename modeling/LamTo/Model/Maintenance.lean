import LamTo.Model.Database
import Mathlib.Data.List.DropRight

/-!
# Cases and the work on them

The embedding of `maintenance/triage.py` and `maintenance/cases.py`, the two modules whose
services move a case and, with it, the status of its proposal. A user or a row is given by
its key. The notifications these services send after their writes are not modelled: a hook
that fails is ignored by the caller.

SOURCE: src/lamto/maintenance/triage.py, src/lamto/maintenance/cases.py
-/

set_option autoImplicit false

namespace LamTo.Model

open LamTo.Library

/-- `str.strip()` -/
def strip (U : Unicode) (t : Text) : Text := (t.dropWhile U.isSpace).rdropWhile U.isSpace

def day : ℕ := 86400 * second

/-- `RATING_WINDOW_DAYS`. -/
def ratingWindow : ℕ := 14 * day

/-! ## Triage -/

/-- `re.sub(r"[^A-Z0-9]+", "_", …)`; the flag says that the run before was replaced. -/
def underscored : Bool → Text → Text
  | _, [] => []
  | inRun, c :: cs =>
    if c.isUpper || c.isDigit then c :: underscored false cs
    else if inRun then underscored true cs
    else '_' :: underscored true cs

/-- The code a free text stands for. SOURCE: maintenance/models.py:45-54 -/
def codeText (U : Unicode) (value : Text) : Text :=
  ((underscored false (U.upper value)).dropWhile (· = '_')).rdropWhile (· = '_')

def normalizeCategory (U : Unicode) (value : Text) : CaseCategory :=
  (CaseCategory.values.find? fun c => c.code = codeText U value).getD .other

def normalizeManagementQueue (U : Unicode) (value : Text) : ManagementQueue :=
  (ManagementQueue.values.find? fun q => q.code = codeText U value).getD .general

/-- The walk of `_active_location` to the root. No location is visited twice, so one more
step than there are locations is enough. SOURCE: triage.py:24-37 -/
def locationWalk (db : Db) (building : ℕ) : ℕ → List ℕ → ℕ → Location → Except ServiceError Unit
  | 0, _, _, _ => .error (.validation "Case location hierarchy is invalid.")
  | fuel + 1, seen, pk, location => do
    require (pk ∉ seen ∧ location.active = true ∧ location.building = building)
      (ServiceError.validation "Case location must be active and belong to the report building.")
    match location.parent with
    | none => return ()
    | some parent =>
      let next ← orRaise (db.locations.get? parent)
        (.validation "Case location hierarchy is invalid.")
      locationWalk db building fuel (pk :: seen) parent next

/-- `_active_location`. -/
def activeLocation (db : Db) (location building : ℕ) : Except ServiceError Unit := do
  let target ← orRaise (db.locations.get? location)
    (.validation "Case location must be active and belong to the report building.")
  locationWalk db building (db.locations.rows.length + 1) [] location target

/-- A `str` that is not blank, stripped; anything else raises. -/
def requiredText (U : Unicode) (message : String) : PyValue → Except ServiceError Text
  | .str s => do
    require (strip U s ≠ []) (ServiceError.validation message)
    return strip U s
  | _ => .error (.validation message)

/-- A positive `int`; a `bool` is none. -/
def requiredPositive (message : String) : PyValue → Except ServiceError ℕ
  | .int i => do
    require (0 < i) (ServiceError.validation message)
    return i.toNat
  | _ => .error (.validation message)

/-- A `bool`. -/
def requiredBool (message : String) : PyValue → Except ServiceError Bool
  | .bool b => .ok b
  | _ => .error (.validation message)

def readUrgency : PyValue → Except ServiceError Urgency
  | .str s => orRaise (Urgency.values.find? fun u => u.code = s)
    (.validation "Case urgency is invalid.")
  | .list _ => .error (.type "unhashable type: 'list'")
  | .dict _ => .error (.type "unhashable type: 'dict'")
  | _ => .error (.validation "Case urgency is invalid.")

/-- What the operator chose. -/
structure Choice where
  category : CaseCategory
  urgency : Urgency
  managementQueue : ManagementQueue
  deadlineMinutes : ℕ

/-- `_decision_values`. SOURCE: triage.py:40-51 -/
def decisionValues (U : Unicode) (category urgency managementQueue deadlineMinutes : PyValue) :
    Except ServiceError Choice := do
  let category ← requiredText U "Case category is required." category
  let urgency ← readUrgency urgency
  let queue ← requiredText U "Management queue is required." managementQueue
  let minutes ← requiredPositive "Case deadline must be a positive number of minutes."
    deadlineMinutes
  return ⟨normalizeCategory U category, urgency, normalizeManagementQueue U queue, minutes⟩

/-- The fields in which the choice differs from the suggestion. SOURCE: triage.py:77-87 -/
def differences (suggestion : Option TriageSuggestion) (chosen : Choice) : Json :=
  match suggestion with
  | none => .obj []
  | some s =>
    let pair (a b : Json) : Json := .obj [("suggested".toList, a), ("chosen".toList, b)]
    .obj ((if s.category = chosen.category then [] else
        [("category".toList, pair (.str s.category.code) (.str chosen.category.code))])
      ++ (if s.urgency = chosen.urgency then [] else
        [("urgency".toList, pair (.str s.urgency.code) (.str chosen.urgency.code))])
      ++ (if s.managementQueue = chosen.managementQueue then [] else
        [("management_queue".toList,
          pair (.str s.managementQueue.code) (.str chosen.managementQueue.code))])
      ++ (if s.deadlineMinutes = chosen.deadlineMinutes then [] else
        [("deadline_minutes".toList,
          pair (.int s.deadlineMinutes) (.int chosen.deadlineMinutes))]))

/-- `CaseReport.objects.create`, with the trigger that keeps a report in one active case.
SOURCE: maintenance/migrations/0005 -/
def createCaseReport (db : Db) (case report operator : ℕ) : Except ServiceError (ℕ × Db) := do
  require (db.caseReports.any (fun l => l.report = report && l.case ≠ case &&
    (db.cases.get? l.case).any (·.active)) = false)
    (ServiceError.integrity "report already belongs to another active case")
  require (db.caseReports.any (fun l => l.case = case && l.report = report) = false)
    (ServiceError.integrity "case_report_once")
  return (db.caseReports.next,
    { db with caseReports := db.caseReports.insert ⟨case, report, operator⟩ })

/-- `confirm_triage`: the key of the case. SOURCE: triage.py:54-123 -/
def confirmTriage (U : Unicode) (db : Db) (now report operator : ℕ)
    (category urgency : PyValue) (location : ℕ) (managementQueue deadlineMinutes : PyValue) :
    Except ServiceError (ℕ × Db) := do
  let row ← orRaise (db.reports.get? report) (.validation "Report is required.")
  let (membership, _) ← requireManagement db operator row.building
  activeLocation db location row.building
  let chosen ← decisionValues U category urgency managementQueue deadlineMinutes
  let suggestion := db.suggestions.first? fun s => s.report = report
  match db.decisions.first? fun d => d.report = report with
  | some (decision, _) =>
    let (case, _) ← orRaise (db.cases.first? fun c => c.decision = decision)
      (.doesNotExist "MaintenanceCase")
    return (case, db)
  | none =>
    let changes := differences (suggestion.map Prod.snd) chosen
    require (chosen.deadlineMinutes < 2 ^ 31) (ServiceError.data "deadline_minutes")
    let decision := db.decisions.next
    let decisionRow : TriageDecision := {
      report, suggestion := suggestion.map Prod.fst, operator, category := chosen.category,
      urgency := chosen.urgency, location, managementQueue := chosen.managementQueue,
      deadlineMinutes := chosen.deadlineMinutes, differences := changes }
    let case := db.cases.next
    let caseRow : MaintenanceCase := {
      decision, building := row.building, category := chosen.category,
      urgency := chosen.urgency, location, managementQueue := chosen.managementQueue,
      deadlineAt := now + chosen.deadlineMinutes * 60 * second, active := true,
      startedAt := none, completedAt := none, closedAt := none }
    let db := { db with decisions := db.decisions.insert decisionRow,
                        cases := db.cases.insert caseRow }
    let (_, db) ← createCaseReport db case report operator
    let db ← recordAudit db operator membership "triage.confirm" "MaintenanceCase" case "accepted"
      [("report_id".toList, .int report), ("differences".toList, changes)]
    return (case, db)

/-- The reports linked to a case. -/
def linkedTo (db : Db) (case report : ℕ) : Bool :=
  db.caseReports.any fun l => l.case = case && l.report = report

/-- A linked report has this status. -/
def hasReport (db : Db) (case : ℕ) (p : IssueReport → Bool) : Bool :=
  db.reports.rows.any fun r => linkedTo db case r.1 && p r.2

/-- The linked reports of a kind take a status. -/
def updateReports (db : Db) (case : ℕ) (p : ReportStatus → Bool) (status : ReportStatus) : Db :=
  { db with reports := db.reports.mapRows fun pk r =>
      if linkedTo db case pk && p r.status then { r with status } else r }

/-- `group_report`: the key of the link. SOURCE: triage.py:126-172 -/
def groupReport (db : Db) (case report operator : ℕ) : Except ServiceError (ℕ × Db) := do
  let required := ServiceError.validation "An active case and report are required."
  let caseRow ← orRaise (db.cases.get? case) required
  let row ← orRaise (db.reports.get? report) required
  require (caseRow.active = true) required
  let (membership, _) ← requireManagement db operator caseRow.building
  require (row.building = caseRow.building)
    (ServiceError.validation "Report must belong to the case building.")
  match db.caseReports.first? fun l => l.report = report && (db.cases.get? l.case).any (·.active)
  with
  | some (link, existing) =>
    require (existing.case = case)
      (ServiceError.validation "Report already belongs to another active case.")
    return (link, db)
  | none =>
    let status : ReportStatus :=
      if hasReport db case fun r => r.status = .inProgress then .inProgress
      else if db.proposals.any fun p => p.case = some case then .proposed
      else .inReview
    require (¬ (row.isPrivate = true ∧ status = .proposed)) (ServiceError.validation
      "Private requests cannot join a case with a community proposal.")
    let (link, db) ← createCaseReport db case report operator
    let db := { db with reports := db.reports.update report fun r => { r with status } }
    let db ← recordAudit db operator membership "case.group" "CaseReport" link "accepted"
      [("case_id".toList, .int case), ("report_id".toList, .int report)]
    return (link, db)

/-! ## Work -/

/-- `_locked_case`. SOURCE: cases.py:25-29 -/
def lockedCase (db : Db) (case : ℕ) : Except ServiceError MaintenanceCase := do
  let required := ServiceError.validation "An active, uncompleted case is required."
  let row ← orRaise (db.cases.get? case) required
  require (row.active = true ∧ row.completedAt = none) required
  return row

/-- `_started_case`. SOURCE: cases.py:32-42 -/
def startedCase (db : Db) (case : ℕ) : Except ServiceError MaintenanceCase := do
  let row ← lockedCase db case
  require (row.startedAt ≠ none)
    (ServiceError.validation "Work must be started on this case first.")
  return row

/-- `_append_update`: the key of the update. SOURCE: cases.py:45-48 -/
def appendUpdate (U : Unicode) (db : Db) (case : Option ℕ) (manager : ℕ) (cause result : Text)
    (proposal : Option ℕ) : Except ServiceError (ℕ × Db) := do
  require (strip U cause ≠ [] ∧ strip U result ≠ [])
    (ServiceError.validation "Progress updates need both a cause and a result.")
  let cause ← textColumn "cause" none (strip U cause)
  let result ← textColumn "result" none (strip U result)
  return (db.workUpdates.next,
    { db with workUpdates := db.workUpdates.insert ⟨case, proposal, manager, cause, result⟩ })

/-- `proposal_awaiting_decision`. SOURCE: cases.py:51-55 -/
def proposalAwaitingDecision (db : Db) (case : ℕ) : Option (ℕ × Proposal) :=
  db.proposals.first? fun p => p.case = some case && p.status = .published

/-- `start_case_work`. SOURCE: cases.py:58-75 -/
def startCaseWork (db : Db) (now case manager : ℕ) : Except ServiceError Db := do
  let row ← lockedCase db case
  let (membership, _) ← requireManagement db manager row.building
  require ((proposalAwaitingDecision db case).isNone = true) (ServiceError.validation
    "This case's spending proposal needs a Proceed decision before work can start.")
  let db := { db with cases := db.cases.update case fun c =>
    { c with startedAt := c.startedAt.or (some now) } }
  let db := updateReports db case (fun s => !s.terminal) .inProgress
  recordAudit db manager membership "case.work_started" "MaintenanceCase" case "accepted" []

/-- The standalone proposal that progress may be reported on. SOURCE: cases.py:84-88 -/
def standaloneInProgress (db : Db) (proposal : ℕ) : Except ServiceError Proposal := do
  let required := ServiceError.validation "An in-progress standalone proposal is required."
  let row ← orRaise (db.proposals.get? proposal) required
  require (row.case = none ∧ row.status = .inProgress) required
  return row

/-- The building of the case or proposal that progress is reported on. SOURCE: cases.py:79-90 -/
def progressBuilding (db : Db) : Option ℕ → Option ℕ → Except ServiceError ℕ
  | some case, none => (startedCase db case).map fun c => c.building
  | none, some proposal => (standaloneInProgress db proposal).map fun p => p.building
  | _, _ => .error (.validation "Progress requires exactly one case or proposal.")

/-- `publish_progress`. SOURCE: cases.py:77-100 -/
def publishProgress (U : Unicode) (db : Db) (case : Option ℕ) (manager : ℕ) (cause result : Text)
    (proposal : Option ℕ) : Except ServiceError Db := do
  let building ← progressBuilding db case proposal
  let (membership, _) ← requireManagement db manager building
  let (update, db) ← appendUpdate U db case manager cause result proposal
  recordAudit db manager membership "case.progress_published" "WorkUpdate" update "accepted"
    [("case_id".toList, keyJson case), ("proposal_id".toList, keyJson proposal)]

/-- A proposal whose work is done. -/
def completeProposal (db : Db) (proposal completedAt : ℕ) : Db :=
  { db with proposals := db.proposals.update proposal fun p =>
      { p with status := .completed, completedAt := some completedAt } }

/-- `complete_proposal_work`. SOURCE: cases.py:103-116 -/
def completeProposalWork (U : Unicode) (db : Db) (now proposal manager : ℕ) (cause result : Text) :
    Except ServiceError Db := do
  let row ← standaloneInProgress db proposal
  let (membership, _) ← requireManagement db manager row.building
  let (update, db) ← appendUpdate U db none manager cause result (some proposal)
  let db := completeProposal db proposal now
  recordAudit db manager membership "proposal.work_completed" "Proposal" proposal "accepted"
    [("work_update_id".toList, .int update)]

/-- `complete_case_work`. SOURCE: cases.py:119-147 -/
def completeCaseWork (U : Unicode) (db : Db) (now case manager : ℕ) (cause result : Text) :
    Except ServiceError Db := do
  let row ← startedCase db case
  let (membership, _) ← requireManagement db manager row.building
  let (update, db) ← appendUpdate U db (some case) manager cause result none
  let db := { db with cases := db.cases.update case fun c => { c with completedAt := some now } }
  let db := match db.proposals.first? fun p => p.case = some case && p.status = .inProgress with
    | some (proposal, _) => completeProposal db proposal now
    | none => db
  let db := updateReports db case (fun s => !s.terminal) .completed
  recordAudit db manager membership "case.work_completed" "MaintenanceCase" case "accepted"
    [("work_update_id".toList, .int update)]

/-- One round of the first loop. SOURCE: cases.py:156-162 -/
def closeCase (now : ℕ) (db : Db) (case : ℕ) : Db :=
  let db := updateReports db case (· = .completed) .closed
  { db with cases := db.cases.update case fun c => { c with active := false, closedAt := some now } }

/-- The time from which a completed proposal may close: the rating window is over, and a
settlement is not later. SOURCE: cases.py:170-173 -/
def closeAt (db : Db) (proposal completedAt : ℕ) : ℕ :=
  match db.settlements.first? fun s => s.proposal = proposal with
  | some (_, s) => max (completedAt + ratingWindow) s.settledAt
  | none => completedAt + ratingWindow

/-- The proposals of the second loop. SOURCE: cases.py:164-167 -/
def expiredProposal (now : ℕ) (p : Proposal) : Bool :=
  p.case = none && p.status = .completed && p.completedAt.any (· + ratingWindow ≤ now)
    && p.closedAt = none

/-- One round of the second loop. SOURCE: cases.py:174-179 -/
def closeProposal (now : ℕ) (db : Db) (proposal : ℕ) : Db :=
  { db with proposals := db.proposals.update proposal fun p =>
      { p with status := .closed, closedAt := some now } }

/-- `close_expired_completed_cases`: the number of rows closed. SOURCE: cases.py:150-180 -/
def closeExpiredCompletedCases (db : Db) (now : ℕ) : ℕ × Db :=
  let cases := db.cases.select fun c =>
    c.completedAt.any (· + ratingWindow ≤ now) && c.closedAt = none
  let db := (cases.map Prod.fst).foldl (closeCase now) db
  let proposals := (db.proposals.select (expiredProposal now)).filter fun r =>
    r.2.completedAt.any fun completedAt => closeAt db r.1 completedAt ≤ now
  (cases.length + proposals.length, (proposals.map Prod.fst).foldl (closeProposal now) db)

/-- The linked cases a declined report leaves with no open report. SOURCE: cases.py:258-264 -/
def emptiedCase (db : Db) (report case : ℕ) : Bool :=
  linkedTo db case report &&
    (db.caseReports.any fun l => l.case = case && l.report ≠ report &&
      (db.reports.get? l.report).any fun r => !r.status.terminal) = false

/-- `decline_report`. SOURCE: cases.py:244-275 -/
def declineReport (U : Unicode) (db : Db) (now report manager : ℕ) (reason : Text) :
    Except ServiceError Db := do
  let row ← orRaise (db.reports.get? report) (.validation "Report is required.")
  let (membership, _) ← requireManagement db manager row.building
  require (row.status.terminal = false) (ServiceError.validation "This request is already closed.")
  require (strip U reason ≠ [])
    (ServiceError.validation "Declining a request requires a reason the resident can read.")
  let reason ← textColumn "declined_reason" none (strip U reason)
  let db := { db with reports := db.reports.update report fun r =>
    { r with status := .declined, declinedReason := reason, declinedBy := some manager,
             declinedAt := some now } }
  let db := { db with cases := db.cases.mapRows fun case c =>
    if c.active && emptiedCase db report case then { c with active := false, closedAt := some now }
    else c }
  recordAudit db manager membership "request.declined" "IssueReport" report "accepted"
    [("reason_length".toList, .int reason.length)]

end LamTo.Model
