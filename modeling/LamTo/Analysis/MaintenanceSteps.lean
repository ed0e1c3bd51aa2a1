import LamTo.Analysis.QueuedEvidence
import LamTo.Model.Services

/-!
# Steps of the maintenance side

`WorkStep` reads a successful call of a maintenance service backwards: the guards it passed
and the tables it wrote. Every invariant of reports, cases and proposals is proved from it.

These services write no version, no settlement, no fund entry and no evidence; what they may
do to a proposal is create a draft or move its status forward. `Quiet` says so
(`WorkStep.quiet`). The services that keep books are read in `FinanceSteps`.

SOURCE: src/lamto/maintenance/triage.py, cases.py, ratings.py, src/lamto/finance/proposals.py
-/

set_option autoImplicit false

namespace LamTo.Analysis

open LamTo.Library LamTo.Model

/-! ## What a quiet step may do -/

/-- The status changes that are not publications. -/
inductive StatusMove : ProposalStatus → ProposalStatus → Prop where
  | stay (s : ProposalStatus) : StatusMove s s
  | proceed : StatusMove .published .inProgress
  | decline : StatusMove .published .notProceeding
  | complete : StatusMove .inProgress .completed
  | close : StatusMove .completed .closed

/-- A proposal before and after a step that does not publish. -/
structure Moved (p p' : Proposal) : Prop where
  case_eq : p'.case = p.case
  building_eq : p'.building = p.building
  currentVersion_eq : p'.currentVersion = p.currentVersion
  status : StatusMove p.status p'.status

theorem Moved.refl (p : Proposal) : Moved p p := ⟨rfl, rfl, rfl, .stay _⟩

/-- A proposal as it is created: a draft without a version, for a case that exists. -/
structure Fresh (db : Db) (p : Proposal) : Prop where
  status_eq : p.status = .draft
  currentVersion_eq : p.currentVersion = none
  case_exists : ∀ case, p.case = some case → (db.cases.get? case).isSome = true

/-- Every proposal afterwards is one from before, moved, or a fresh one; none is lost. -/
structure ProposalsMoved (db db' : Db) : Prop where
  kept : ∀ pk p, db.proposals.get? pk = some p →
    ∃ p', db'.proposals.get? pk = some p' ∧ Moved p p'
  found : ∀ pk p', db'.proposals.get? pk = some p' →
    (∃ p, db.proposals.get? pk = some p ∧ Moved p p') ∨
      (db.proposals.get? pk = none ∧ Fresh db p')

/-- Row by row: a proposal is as it was, or moved. -/
theorem ProposalsMoved.of_rows (db db' : Db)
    (h : ∀ pk, db'.proposals.get? pk = db.proposals.get? pk ∨
      ∃ p p', db.proposals.get? pk = some p ∧ db'.proposals.get? pk = some p' ∧ Moved p p') :
    ProposalsMoved db db' := by
  constructor
  · intro pk p hp
    rcases h pk with heq | ⟨q, q', hq, hq', hmoved⟩
    · exact ⟨p, heq.trans hp, Moved.refl p⟩
    · cases hp.symm.trans hq
      exact ⟨q', hq', hmoved⟩
  · intro pk p' hp'
    rcases h pk with heq | ⟨q, q', hq, hq', hmoved⟩
    · exact .inl ⟨p', heq.symm.trans hp', Moved.refl p'⟩
    · cases hp'.symm.trans hq'
      exact .inl ⟨q, hq, hmoved⟩

theorem ProposalsMoved.of_eq (db db' : Db)
    (h : ∀ pk, db'.proposals.get? pk = db.proposals.get? pk) : ProposalsMoved db db' :=
  .of_rows db db' fun pk => .inl (h pk)

/-- One proposal is rewritten by a function that moves it. -/
theorem ProposalsMoved.of_update (db db' : Db) (proposal : ℕ) (row : Proposal)
    (f : Proposal → Proposal) (hrow : db.proposals.get? proposal = some row) (hf : Moved row (f row))
    (h : db'.proposals = db.proposals.update proposal f) : ProposalsMoved db db' := by
  refine .of_rows db db' fun pk => ?_
  rw [h, Table.get?_update]
  split
  · next hpk =>
    rw [hpk, hrow, Option.map_some]
    exact .inr ⟨row, f row, rfl, rfl, hf⟩
  · exact .inl rfl

/-- One proposal is added. -/
theorem ProposalsMoved.of_insert (db db' : Db) (row : Proposal) (hfresh : Fresh db row)
    (h : db'.proposals = db.proposals.insert row) : ProposalsMoved db db' := by
  constructor
  · intro pk p hp
    exact ⟨p, by rw [h]; exact Table.get?_insert_of_some _ _ _ _ hp, Moved.refl p⟩
  · intro pk p' hp
    rw [h, Table.get?_insert] at hp
    split at hp
    · next hpk =>
      cases hp
      exact .inr ⟨by rw [hpk, Table.get?_next], hfresh⟩
    · exact .inl ⟨p', hp, Moved.refl p'⟩

/-- **A quiet step** keeps the books: versions, quotation links, settlements, fund, ledger
and the identity of every outbox event. Rows other modules add are only added. -/
structure Quiet (db db' : Db) : Prop where
  versions : db'.versions.rows = db.versions.rows := by rfl
  proposalDocuments : db'.proposalDocuments.rows = db.proposalDocuments.rows := by rfl
  settlements : db'.settlements.rows = db.settlements.rows := by rfl
  funds : db'.funds.rows = db.funds.rows := by rfl
  fundEntries : db'.fundEntries.rows = db.fundEntries.rows := by rfl
  verifications : db'.verifications.rows = db.verifications.rows := by rfl
  ledger : db'.ledger.rows = db.ledger.rows := by rfl
  identities : ∀ pk, (db'.outbox.get? pk).map OutboxEvent.toIdentity =
    (db.outbox.get? pk).map OutboxEvent.toIdentity := by exact fun _ => rfl
  documentVersions : ∀ pk v, db.documentVersions.get? pk = some v →
    db'.documentVersions.get? pk = some v := by exact fun _ _ h => h
  documents : ∀ pk d, db.documents.get? pk = some d →
    db'.documents.get? pk = some d := by exact fun _ _ h => h
  buildings : ∀ pk, (db.buildings.get? pk).isSome = true →
    (db'.buildings.get? pk).isSome = true := by exact fun _ h => h
  cases : ∀ pk, (db.cases.get? pk).isSome = true →
    (db'.cases.get? pk).isSome = true := by exact fun _ h => h
  proposals : ProposalsMoved db db' := by exact ProposalsMoved.of_eq _ _ fun _ => rfl

/-- A step that writes maintenance rows, proposals, observations and the audit trail only. -/
theorem Quiet.of_frame (db : Db) (maintenance : MaintenanceTables) (proposals : Table Proposal)
    (observations : Table VerificationObservation) (audit : Table AuditEvent)
    (hcases : ∀ pk, (db.cases.get? pk).isSome = true → (maintenance.cases.get? pk).isSome = true)
    (hproposals : ProposalsMoved db { db with proposals }) :
    Quiet db { db with
      toMaintenanceTables := maintenance, proposals, observations, audit } :=
  { cases := hcases, proposals := ⟨hproposals.kept, hproposals.found⟩ }

/-- The same, when no proposal is touched. -/
theorem Quiet.of_maintenance (db : Db) (maintenance : MaintenanceTables)
    (observations : Table VerificationObservation) (audit : Table AuditEvent)
    (hcases : ∀ pk, (db.cases.get? pk).isSome = true → (maintenance.cases.get? pk).isSome = true) :
    Quiet db { db with toMaintenanceTables := maintenance, observations, audit } :=
  .of_frame db maintenance db.proposals observations audit hcases (.of_eq _ _ fun _ => rfl)

theorem isSome_get?_insert {α : Type} (t : Table α) (a : α) (pk : ℕ)
    (h : (t.get? pk).isSome = true) : ((t.insert a).get? pk).isSome = true := by
  rw [Table.get?_insert]
  split
  · rfl
  · exact h

theorem isSome_get?_update {α : Type} (t : Table α) (key : ℕ) (f : α → α) (pk : ℕ)
    (h : (t.get? pk).isSome = true) : ((t.update key f).get? pk).isSome = true := by
  rw [Table.get?_update]
  split
  · rwa [Option.isSome_map]
  · exact h

/-! ## Reading calls backwards -/

theorem getRow_eq_ok {α : Type} (model : String) (t : Table α) (pk : ℕ) (a : α) :
    getRow model t pk = .ok a ↔ t.get? pk = some a := orRaise_eq_ok _ _ _

/-- The user is an active manager of the building. -/
def ActiveManager (db : Db) (building user : ℕ) : Prop :=
  ∃ pk m, db.memberships.get? pk = some m ∧ m.building = building ∧ m.active = true ∧ m.user = user

/-- The membership a service acts under. -/
theorem requireManagement_eq_ok (db : Db) (user building pk : ℕ) (m : Membership)
    (h : requireManagement db user building = .ok (pk, m)) :
    db.memberships.get? pk = some m ∧ m.user = user ∧ m.building = building ∧ m.active = true := by
  rw [requireManagement, orRaise_eq_ok] at h
  obtain ⟨hget, hmember⟩ := Table.first?_eq_some _ _ _ _ h
  simp only [Bool.and_eq_true, decide_eq_true_eq] at hmember
  exact ⟨hget, hmember.1.1, hmember.1.2, hmember.2⟩

/-- Writing the audit trail changes nothing else. -/
theorem recordAudit_eq_ok (db db' : Db) (actor membership : ℕ) (action targetType : String)
    (targetId : ℕ) (result : String) (metadata : List (Text × Json))
    (h : recordAudit db actor membership action targetType targetId result metadata = .ok db') :
    ∃ audit, db' = { db with audit } := by
  simp only [recordAudit, bind_eq_ok, pure_eq_ok] at h
  obtain ⟨_, _, rfl⟩ := h
  exact ⟨_, rfl⟩

theorem recordAuditWithoutMembership_eq_ok (db db' : Db) (actor : ℕ) (action targetType : String)
    (targetId : ℕ) (result : String) (occupancy : Option ℕ) (metadata : List (Text × Json))
    (h : recordAuditWithoutMembership db actor action targetType targetId result occupancy metadata
      = .ok db') : ∃ audit, db' = { db with audit } := by
  simp only [recordAuditWithoutMembership, bind_eq_ok, pure_eq_ok] at h
  obtain ⟨_, _, rfl⟩ := h
  exact ⟨_, rfl⟩

/-- The report is in no other active case. -/
def Unattached (db : Db) (case report : ℕ) : Prop :=
  ∀ pk l, db.caseReports.get? pk = some l → l.report = report → l.case ≠ case →
    (db.cases.get? l.case).any (·.active) = false

theorem createCaseReport_eq_ok (db db' : Db) (case report operator pk : ℕ)
    (h : createCaseReport db case report operator = .ok (pk, db')) :
    Unattached db case report ∧ linkedTo db case report = false ∧
      db' = { db with caseReports := db.caseReports.insert ⟨case, report, operator⟩ } := by
  simp only [createCaseReport, bind_eq_ok, require_eq_ok, pure_eq_ok, Prod.mk.injEq] at h
  obtain ⟨_, hother, _, honce, _, rfl⟩ := h
  refine ⟨fun key l hl hreport hcase => ?_, honce, rfl⟩
  have hfalse := (Table.any_eq_false _ _).mp hother key l hl
  simpa [hreport, hcase] using hfalse

theorem appendUpdate_eq_ok (U : Unicode) (db db' : Db) (case : Option ℕ) (manager : ℕ)
    (cause result : Text) (proposal : Option ℕ) (pk : ℕ)
    (h : appendUpdate U db case manager cause result proposal = .ok (pk, db')) :
    ∃ workUpdates, db' = { db with workUpdates } := by
  simp only [appendUpdate, bind_eq_ok, pure_eq_ok, Prod.mk.injEq] at h
  obtain ⟨_, _, _, _, _, _, _, rfl⟩ := h
  exact ⟨_, rfl⟩

theorem lockedCase_eq_ok (db : Db) (case : ℕ) (row : MaintenanceCase)
    (h : lockedCase db case = .ok row) :
    db.cases.get? case = some row ∧ row.active = true ∧ row.completedAt = none := by
  simp only [lockedCase, bind_eq_ok, orRaise_eq_ok, require_eq_ok, pure_eq_ok] at h
  obtain ⟨_, hrow, _, hopen, rfl⟩ := h
  exact ⟨hrow, hopen⟩

theorem startedCase_eq_ok (db : Db) (case : ℕ) (row : MaintenanceCase)
    (h : startedCase db case = .ok row) :
    db.cases.get? case = some row ∧ row.active = true ∧ row.completedAt = none ∧
      row.startedAt ≠ none := by
  simp only [startedCase, bind_eq_ok, require_eq_ok, pure_eq_ok] at h
  obtain ⟨_, hrow, _, hstarted, rfl⟩ := h
  obtain ⟨hget, hactive, hopen⟩ := lockedCase_eq_ok db case _ hrow
  exact ⟨hget, hactive, hopen, hstarted⟩

theorem standaloneInProgress_eq_ok (db : Db) (proposal : ℕ) (row : Proposal)
    (h : standaloneInProgress db proposal = .ok row) :
    db.proposals.get? proposal = some row ∧ row.case = none ∧ row.status = .inProgress := by
  simp only [standaloneInProgress, bind_eq_ok, orRaise_eq_ok, require_eq_ok, pure_eq_ok] at h
  obtain ⟨_, hrow, _, hstatus, rfl⟩ := h
  exact ⟨hrow, hstatus.1, hstatus.2⟩

/-! ## What a step of the maintenance side does -/

/-- The status a report takes when it joins a case. SOURCE: triage.py:150-155 -/
def groupedStatus (db : Db) (case : ℕ) : ReportStatus :=
  if hasReport db case fun r => r.status = .inProgress then .inProgress
  else if db.proposals.any fun p => p.case = some case then .proposed
  else .inReview

/-- A case that work may be started on. -/
structure Workable (c : MaintenanceCase) : Prop where
  active : c.active = true
  uncompleted : c.completedAt = none

/-- The proposal a completed case completes with it. SOURCE: cases.py:128-135 -/
def completeCaseProposal (db : Db) (case now : ℕ) : Db :=
  match db.proposals.first? fun p => p.case = some case && p.status = .inProgress with
  | some (proposal, _) => completeProposal db proposal now
  | none => db

/-- The calls that may write a note, a rating or an observation and nothing else. -/
def notesOnly : Command → Bool
  | .confirmTriage .. | .groupReport .. | .publishProgress .. | .rateCompletedProposal ..
  | .verifyPublishedEntry .. => true
  | _ => false

/-- **What a service of the maintenance side does**, with the guards it passed. -/
inductive WorkStep : Db → Command → Db → Prop where
  | noted (db : Db) (a : Command) (workUpdates : Table WorkUpdate)
      (ratings : Table CompletionRating) (observations : Table VerificationObservation)
      (audit : Table AuditEvent) (note : notesOnly a = true) :
      WorkStep db a { db with workUpdates, ratings, observations, audit }
  | reviewed (db : Db) (report : ℕ) :
      WorkStep db (.reviewSubmitted report) (reviewSubmitted db report)
  | opened (db : Db) (now report operator : ℕ) (category urgency : PyValue) (location : ℕ)
      (queue minutes : PyValue) (row : IssueReport) (decision : TriageDecision)
      (caseRow : MaintenanceCase) (audit : Table AuditEvent)
      (row_get : db.reports.get? report = some row)
      (undecided : ∀ pk d, db.decisions.get? pk = some d → d.report ≠ report)
      (unattached : Unattached db db.cases.next report)
      (decision_report : decision.report = report)
      (fresh : Workable caseRow) (unstarted : caseRow.startedAt = none)
      (building_eq : caseRow.building = row.building)
      (decision_eq : caseRow.decision = db.decisions.next) (unclosed : caseRow.closedAt = none) :
      WorkStep db (.confirmTriage now report operator category urgency location queue minutes)
        { db with
          decisions := db.decisions.insert decision
          cases := db.cases.insert caseRow
          caseReports := db.caseReports.insert ⟨db.cases.next, report, operator⟩
          audit }
  | grouped (db : Db) (case report operator : ℕ) (caseRow : MaintenanceCase) (row : IssueReport)
      (audit : Table AuditEvent) (case_get : db.cases.get? case = some caseRow)
      (row_get : db.reports.get? report = some row) (active : caseRow.active = true)
      (building_eq : row.building = caseRow.building)
      (unattached : ∀ pk l, db.caseReports.get? pk = some l → l.report = report →
        (db.cases.get? l.case).any (·.active) = false)
      (unlinked : linkedTo db case report = false)
      (allowed : ¬ (row.isPrivate = true ∧ groupedStatus db case = .proposed)) :
      WorkStep db (.groupReport case report operator)
        { db with
          caseReports := db.caseReports.insert ⟨case, report, operator⟩
          reports := db.reports.update report fun r => { r with status := groupedStatus db case }
          audit }
  | started (db : Db) (now case manager : ℕ) (row : MaintenanceCase) (audit : Table AuditEvent)
      (case_get : db.cases.get? case = some row) (workable : Workable row)
      (decided : proposalAwaitingDecision db case = none) :
      WorkStep db (.startCaseWork now case manager)
        { updateReports { db with cases := db.cases.update case fun c =>
            { c with startedAt := c.startedAt.or (some now) } } case (fun s => !s.terminal)
            .inProgress with audit }
  | finishedProposal (db : Db) (now proposal manager : ℕ) (cause result : Text) (row : Proposal)
      (workUpdates : Table WorkUpdate) (audit : Table AuditEvent)
      (row_get : db.proposals.get? proposal = some row) (standalone : row.case = none)
      (inProgress : row.status = .inProgress) :
      WorkStep db (.completeProposalWork now proposal manager cause result)
        { completeProposal db proposal now with workUpdates, audit }
  | finishedCase (db : Db) (now case manager : ℕ) (cause result : Text) (row : MaintenanceCase)
      (workUpdates : Table WorkUpdate) (audit : Table AuditEvent)
      (case_get : db.cases.get? case = some row) (workable : Workable row)
      (started : row.startedAt ≠ none) :
      WorkStep db (.completeCaseWork now case manager cause result)
        { updateReports (completeCaseProposal { db with
            cases := db.cases.update case fun c => { c with completedAt := some now } } case now)
            case (fun s => !s.terminal) .completed with workUpdates, audit }
  | expired (db : Db) (now : ℕ) :
      WorkStep db (.closeExpiredCompletedCases now) (closeExpiredCompletedCases db now).2
  | declined (db : Db) (now report manager : ℕ) (reason stored : Text) (row : IssueReport)
      (audit : Table AuditEvent) (row_get : db.reports.get? report = some row)
      (unfinished : row.status.terminal = false) :
      WorkStep db (.declineReport now report manager reason)
        { db with
          reports := db.reports.update report fun r =>
            { r with status := .declined, declinedReason := stored, declinedBy := some manager,
                     declinedAt := some now }
          cases := db.cases.mapRows fun case c =>
            if c.active && emptiedCase { db with reports := db.reports.update report fun r =>
                { r with status := .declined, declinedReason := stored,
                         declinedBy := some manager, declinedAt := some now } } report case
            then { c with active := false, closedAt := some now } else c
          audit }
  | asked (db : Db) (report manager : ℕ) (message : Text) (row : IssueReport) (info : InfoRequest)
      (audit : Table AuditEvent) (row_get : db.reports.get? report = some row)
      (unfinished : row.status.terminal = false) (report_eq : info.report = report)
      (unresolved : info.resolvedAt = none)
      (noneOpen : ∀ pk i, db.infoRequests.get? pk = some i → i.report = report →
        i.resolvedAt ≠ none) :
      WorkStep db (.requestInformation report manager message)
        { db with
          infoRequests := db.infoRequests.insert info
          reports := db.reports.update report fun r => { r with status := .needsInfo }
          audit }
  | replied (db : Db) (now resident report : ℕ) (text stored : Text) (row : IssueReport) (key : ℕ)
      (info : InfoRequest) (audit : Table AuditEvent) (row_get : db.reports.get? report = some row)
      (info_get : db.infoRequests.get? key = some info) (report_eq : info.report = report)
      (unresolved : info.resolvedAt = none) :
      WorkStep db (.replyInformation now resident report text)
        { db with
          infoRequests := db.infoRequests.update key fun i =>
            { i with replyText := stored, resolvedAt := some now }
          reports := db.reports.update report fun r => { r with status := .inReview }
          audit }
  | rated (db : Db) (now resident case : ℕ) (satisfied comment : PyValue) (row : MaintenanceCase)
      (ratings : Table CompletionRating) (audit : Table AuditEvent)
      (case_get : db.cases.get? case = some row) (completed : row.completedAt ≠ none) :
      WorkStep db (.rateCompletedCase now resident case satisfied comment)
        (closeRatedCase (closeRatedReports { db with ratings, audit } resident case) now case)
  | proposed (db : Db) (now case creator : ℕ) (row : MaintenanceCase) (membership : ℕ)
      (audit : Table AuditEvent) (case_get : db.cases.get? case = some row)
      (workable : Workable row) (community : hasReport db case (·.isPrivate) = false)
      (unspent : hasReport db case (fun r => r.status = .inProgress) = false)
      (first : ∀ pk p, db.proposals.get? pk = some p → p.case ≠ some case) :
      WorkStep db (.createProposal now case creator)
        { updateReports { db with
            proposals := db.proposals.insert (.draft now (some case) row.building membership) }
            case (fun s => !s.terminal) .proposed with audit }
  | drafted (db : Db) (now building creator membership : ℕ) (member : Membership)
      (audit : Table AuditEvent) (member_get : db.memberships.get? membership = some member)
      (building_eq : member.building = building) :
      WorkStep db (.createStandaloneProposal now building creator)
        { db with
          proposals := db.proposals.insert (.draft now none building membership)
          audit }
  | decided (db : Db) (now proposal manager : ℕ) (proceed : Bool) (note stored : Text)
      (row : Proposal) (membership : ℕ) (audit : Table AuditEvent)
      (row_get : db.proposals.get? proposal = some row) (published : row.status = .published) :
      WorkStep db (.decideProposal now proposal manager (.bool proceed) note)
        { db with
          proposals := db.proposals.update proposal (Proposal.decide now membership proceed stored)
          audit }
  | decidedOnly (db db' : Db) (now proposal manager : ℕ) (proceed : Bool) (note : Text)
      (row : Proposal) (row_get : db.proposals.get? proposal = some row)
      (nothing : proceed = false ∨ row.case = none)
      (decided : WorkStep db (.decideProposal now proposal manager (.bool proceed) note) db') :
      WorkStep db (.decideAndStart now proposal manager proceed note) db'
  | decidedAndStarted (db mid db' : Db) (now proposal manager case : ℕ) (note : Text)
      (row : Proposal) (row_get : db.proposals.get? proposal = some row)
      (row_case : row.case = some case)
      (decided : WorkStep db (.decideProposal now proposal manager (.bool true) note) mid)
      (started : WorkStep mid (.startCaseWork now case manager) db') :
      WorkStep db (.decideAndStart now proposal manager true note) db'

/-- Nothing was written. -/
theorem WorkStep.unchanged (db : Db) (a : Command) (h : notesOnly a = true) : WorkStep db a db :=
  .noted db a db.workUpdates db.ratings db.observations db.audit h

/-- Two states with the same cases, links, reports and decisions. -/
structure SameCases (db db' : Db) : Prop where
  cases : db'.cases = db.cases
  caseReports : db'.caseReports = db.caseReports
  reports : db'.reports = db.reports
  decisions : db'.decisions = db.decisions

/-- Deciding on a proposal writes no case. -/
theorem WorkStep.decided_sameCases (db db' : Db) (now proposal manager : ℕ) (proceed : PyValue)
    (note : Text) (h : WorkStep db (.decideProposal now proposal manager proceed note) db') :
    SameCases db db' := by
  cases h with
  | noted _ _ _ _ _ _ hnote => cases hnote
  | decided => exact ⟨rfl, rfl, rfl, rfl⟩

theorem confirmTriage_step (U : Unicode) (db db' : Db) (now report operator : ℕ)
    (category urgency : PyValue) (location : ℕ) (queue minutes : PyValue) (pk : ℕ)
    (h : confirmTriage U db now report operator category urgency location queue minutes
      = .ok (pk, db')) :
    WorkStep db (.confirmTriage now report operator category urgency location queue minutes)
      db' := by
  simp only [confirmTriage, bind_eq_ok, orRaise_eq_ok] at h
  obtain ⟨row, hrow, ⟨_, _⟩, _, _, _, chosen, _, h⟩ := h
  split at h
  · simp only [bind_eq_ok, pure_eq_ok, Prod.mk.injEq] at h
    obtain ⟨_, _, _, rfl⟩ := h
    exact .unchanged db _ rfl
  · next hnone =>
    simp only [bind_eq_ok, pure_eq_ok, Prod.mk.injEq] at h
    obtain ⟨_, _, ⟨_, db₁⟩, hlink, db₂, haudit, _, rfl⟩ := h
    obtain ⟨hunattached, _, rfl⟩ := createCaseReport_eq_ok _ _ _ _ _ _ hlink
    obtain ⟨audit, rfl⟩ := recordAudit_eq_ok _ _ _ _ _ _ _ _ _ haudit
    have hundecided : ∀ key d, db.decisions.get? key = some d → d.report ≠ report := by
      intro key d hd heq
      have hfalse := (Table.first?_eq_none _ _).mp hnone key d hd
      simp [heq] at hfalse
    -- The trigger is evaluated with the new case in the table; older links do not name it.
    have hold : Unattached db db.cases.next report := by
      intro key l hl hreport hcase
      have hfalse := hunattached key l hl hreport hcase
      rwa [Table.get?_insert, if_neg hcase] at hfalse
    exact .opened db now report operator category urgency location queue minutes row _ _ audit hrow
      hundecided hold rfl ⟨rfl, rfl⟩ rfl rfl rfl rfl

theorem groupReport_step (db db' : Db) (case report operator pk : ℕ)
    (h : groupReport db case report operator = .ok (pk, db')) :
    WorkStep db (.groupReport case report operator) db' := by
  simp only [groupReport, bind_eq_ok, orRaise_eq_ok, require_eq_ok] at h
  obtain ⟨caseRow, hcase, row, hrow, _, hactive, ⟨_, _⟩, _, _, hbuilding, h⟩ := h
  split at h
  · simp only [bind_eq_ok, pure_eq_ok, Prod.mk.injEq] at h
    obtain ⟨_, _, _, rfl⟩ := h
    exact .unchanged db _ rfl
  · next hnone =>
    simp only [bind_eq_ok, require_eq_ok, pure_eq_ok, Prod.mk.injEq] at h
    obtain ⟨_, hallowed, ⟨_, db₁⟩, hlink, db₂, haudit, _, rfl⟩ := h
    obtain ⟨_, hunlinked, rfl⟩ := createCaseReport_eq_ok _ _ _ _ _ _ hlink
    obtain ⟨audit, rfl⟩ := recordAudit_eq_ok _ _ _ _ _ _ _ _ _ haudit
    have hunattached : ∀ key l, db.caseReports.get? key = some l → l.report = report →
        (db.cases.get? l.case).any (·.active) = false := by
      intro key l hl hreport
      have hfalse := (Table.first?_eq_none _ _).mp hnone key l hl
      simpa [hreport] using hfalse
    exact .grouped db case report operator caseRow row audit hcase hrow hactive hbuilding
      hunattached hunlinked hallowed

theorem startCaseWork_step (db db' : Db) (now case manager : ℕ)
    (h : startCaseWork db now case manager = .ok db') :
    WorkStep db (.startCaseWork now case manager) db' := by
  simp only [startCaseWork, bind_eq_ok, require_eq_ok, Option.isNone_iff_eq_none] at h
  obtain ⟨row, hrow, ⟨_, _⟩, _, _, hdecided, haudit⟩ := h
  obtain ⟨hget, hactive, hopen⟩ := lockedCase_eq_ok db case row hrow
  obtain ⟨audit, rfl⟩ := recordAudit_eq_ok _ _ _ _ _ _ _ _ _ haudit
  exact .started db now case manager row audit hget ⟨hactive, hopen⟩ hdecided

theorem publishProgress_step (U : Unicode) (db db' : Db) (case : Option ℕ) (manager : ℕ)
    (cause result : Text) (proposal : Option ℕ)
    (h : publishProgress U db case manager cause result proposal = .ok db') :
    WorkStep db (.publishProgress case manager cause result proposal) db' := by
  simp only [publishProgress, bind_eq_ok] at h
  obtain ⟨_, _, ⟨_, _⟩, _, ⟨_, db₁⟩, hupdate, haudit⟩ := h
  obtain ⟨workUpdates, rfl⟩ := appendUpdate_eq_ok _ _ _ _ _ _ _ _ _ hupdate
  obtain ⟨audit, rfl⟩ := recordAudit_eq_ok _ _ _ _ _ _ _ _ _ haudit
  exact .noted db _ workUpdates db.ratings db.observations audit rfl

theorem completeProposalWork_step (U : Unicode) (db db' : Db) (now proposal manager : ℕ)
    (cause result : Text)
    (h : completeProposalWork U db now proposal manager cause result = .ok db') :
    WorkStep db (.completeProposalWork now proposal manager cause result) db' := by
  simp only [completeProposalWork, bind_eq_ok] at h
  obtain ⟨row, hrow, ⟨_, _⟩, _, ⟨_, db₁⟩, hupdate, haudit⟩ := h
  obtain ⟨hget, hcase, hstatus⟩ := standaloneInProgress_eq_ok db proposal row hrow
  obtain ⟨workUpdates, rfl⟩ := appendUpdate_eq_ok _ _ _ _ _ _ _ _ _ hupdate
  obtain ⟨audit, rfl⟩ := recordAudit_eq_ok _ _ _ _ _ _ _ _ _ haudit
  exact .finishedProposal db now proposal manager cause result row workUpdates audit hget hcase
    hstatus

theorem completeCaseWork_step (U : Unicode) (db db' : Db) (now case manager : ℕ)
    (cause result : Text)
    (h : completeCaseWork U db now case manager cause result = .ok db') :
    WorkStep db (.completeCaseWork now case manager cause result) db' := by
  simp only [completeCaseWork, bind_eq_ok] at h
  obtain ⟨row, hrow, ⟨_, _⟩, _, ⟨_, db₁⟩, hupdate, haudit⟩ := h
  obtain ⟨hget, hactive, hopen, hstarted⟩ := startedCase_eq_ok db case row hrow
  obtain ⟨workUpdates, rfl⟩ := appendUpdate_eq_ok _ _ _ _ _ _ _ _ _ hupdate
  obtain ⟨audit, rfl⟩ := recordAudit_eq_ok _ _ _ _ _ _ _ _ _ haudit
  have hstep := WorkStep.finishedCase db now case manager cause result row workUpdates audit hget
    ⟨hactive, hopen⟩ hstarted
  unfold completeCaseProposal at hstep
  split
  · next hfind =>
    rw [hfind] at hstep
    exact hstep
  · next hfind =>
    rw [hfind] at hstep
    exact hstep

theorem declineReport_step (U : Unicode) (db db' : Db) (now report manager : ℕ) (reason : Text)
    (h : declineReport U db now report manager reason = .ok db') :
    WorkStep db (.declineReport now report manager reason) db' := by
  simp only [declineReport, bind_eq_ok, orRaise_eq_ok, require_eq_ok] at h
  obtain ⟨row, hrow, ⟨_, _⟩, _, _, hstatus, _, _, stored, _, haudit⟩ := h
  obtain ⟨audit, rfl⟩ := recordAudit_eq_ok _ _ _ _ _ _ _ _ _ haudit
  exact .declined db now report manager reason stored row audit hrow hstatus

/-! ## Questions and ratings -/

theorem requestInformation_step (U : Unicode) (db db' : Db) (report manager : ℕ) (message : Text)
    (pk : ℕ) (h : requestInformation U db report manager message = .ok (pk, db')) :
    WorkStep db (.requestInformation report manager message) db' := by
  simp only [requestInformation, bind_eq_ok, orRaise_eq_ok, require_eq_ok, pure_eq_ok,
    Prod.mk.injEq] at h
  obtain ⟨row, hrow, ⟨_, _⟩, _, _, hstatus, _, _, _, hnone, stored, _, db₁, haudit, _, rfl⟩ := h
  obtain ⟨audit, rfl⟩ := recordAudit_eq_ok _ _ _ _ _ _ _ _ _ haudit
  refine .asked db report manager message row ⟨report, stored, manager, [], none⟩ audit hrow hstatus
    rfl rfl fun key i hi hreport hresolved => ?_
  have hfalse := (Table.any_eq_false _ _).mp hnone key i hi
  simp [hreport, hresolved] at hfalse

theorem replyInformation_step (U : Unicode) (db db' : Db) (now resident report : ℕ) (text : Text)
    (pk : ℕ) (h : replyInformation U db now resident report text = .ok (pk, db')) :
    WorkStep db (.replyInformation now resident report text) db' := by
  simp only [replyInformation, bind_eq_ok, orRaise_eq_ok, require_eq_ok, pure_eq_ok,
    Prod.mk.injEq] at h
  obtain ⟨row, hrow, _, _, ⟨key, info⟩, hinfo, _, _, ⟨_, _⟩, _, stored, _, db₁, haudit, _, rfl⟩ := h
  obtain ⟨hget, hopen⟩ := Table.first?_eq_some _ _ _ _ hinfo
  obtain ⟨audit, rfl⟩ := recordAuditWithoutMembership_eq_ok _ _ _ _ _ _ _ _ _ haudit
  have hinfo' : info.report = report ∧ info.resolvedAt = none := by simpa using hopen
  exact .replied db now resident report text stored row key info audit hrow hget hinfo'.1 hinfo'.2

theorem rateCompletedCase_step (U : Unicode) (db db' : Db) (now resident case : ℕ)
    (satisfied comment : PyValue) (pk : ℕ)
    (h : rateCompletedCase U db now resident case satisfied comment = .ok (pk, db')) :
    WorkStep db (.rateCompletedCase now resident case satisfied comment) db' := by
  simp only [rateCompletedCase, bind_eq_ok, orRaise_eq_ok, require_eq_ok, pure_eq_ok,
    Prod.mk.injEq] at h
  obtain ⟨row, hrow, _, hcompleted, _, _, _, _, _, _, ⟨_, _⟩, _, _, _, db₁, haudit, _, rfl⟩ := h
  obtain ⟨audit, rfl⟩ := recordAuditWithoutMembership_eq_ok _ _ _ _ _ _ _ _ _ haudit
  exact .rated db now resident case satisfied comment row _ audit hrow hcompleted

theorem rateCompletedProposal_step (U : Unicode) (db db' : Db) (now resident proposal : ℕ)
    (satisfied comment : PyValue) (pk : ℕ)
    (h : rateCompletedProposal U db now resident proposal satisfied comment = .ok (pk, db')) :
    WorkStep db (.rateCompletedProposal now resident proposal satisfied comment) db' := by
  simp only [rateCompletedProposal, bind_eq_ok, pure_eq_ok, Prod.mk.injEq] at h
  obtain ⟨_, _, _, _, _, _, _, _, _, _, ⟨_, _⟩, _, _, _, db₁, haudit, _, rfl⟩ := h
  obtain ⟨audit, rfl⟩ := recordAuditWithoutMembership_eq_ok _ _ _ _ _ _ _ _ _ haudit
  exact .noted db _ db.workUpdates _ db.observations audit rfl

/-! ## Drafts and decisions -/

theorem createProposal_step (db db' : Db) (now case creator pk : ℕ)
    (h : createProposal db now case creator = .ok (pk, db')) :
    WorkStep db (.createProposal now case creator) db' := by
  simp only [createProposal, bind_eq_ok, orRaise_eq_ok, require_eq_ok, pure_eq_ok,
    Prod.mk.injEq] at h
  obtain ⟨row, hrow, _, hopen, ⟨membership, _⟩, _, _, hcommunity, _, hunspent, _, hfirst, db₁, haudit,
    _, rfl⟩ := h
  obtain ⟨audit, rfl⟩ := recordAudit_eq_ok _ _ _ _ _ _ _ _ _ haudit
  refine .proposed db now case creator row membership audit hrow ⟨hopen.1, hopen.2⟩ hcommunity
    hunspent fun key p hp heq => ?_
  have hfalse := (Table.any_eq_false _ _).mp hfirst key p hp
  simp [heq] at hfalse

theorem createStandaloneProposal_step (db db' : Db) (now building creator pk : ℕ)
    (h : createStandaloneProposal db now building creator = .ok (pk, db')) :
    WorkStep db (.createStandaloneProposal now building creator) db' := by
  simp only [createStandaloneProposal, bind_eq_ok, pure_eq_ok, Prod.mk.injEq] at h
  obtain ⟨⟨membership, member⟩, hmember, db₁, haudit, _, rfl⟩ := h
  obtain ⟨hget, _, hbuilding, _⟩ := requireManagement_eq_ok _ _ _ _ _ hmember
  obtain ⟨audit, rfl⟩ := recordAudit_eq_ok _ _ _ _ _ _ _ _ _ haudit
  exact .drafted db now building creator membership member audit hget hbuilding

theorem requiredBool_eq_ok (message : String) (v : PyValue) (b : Bool)
    (h : requiredBool message v = .ok b) : v = .bool b := by
  unfold requiredBool at h
  split at h
  · cases h
    rfl
  · cases h

theorem decideProposal_step (U : Unicode) (db db' : Db) (now proposal manager : ℕ)
    (proceed : PyValue) (note : Text)
    (h : decideProposal U db now proposal manager proceed note = .ok db') :
    WorkStep db (.decideProposal now proposal manager proceed note) db' := by
  simp only [decideProposal, bind_eq_ok, getRow_eq_ok, require_eq_ok] at h
  obtain ⟨row, hrow, ⟨membership, _⟩, _, _, hstatus, decision, hproceed, stored, _, haudit⟩ := h
  obtain ⟨audit, rfl⟩ := recordAudit_eq_ok _ _ _ _ _ _ _ _ _ haudit
  obtain rfl := requiredBool_eq_ok _ _ _ hproceed
  exact .decided db now proposal manager decision note stored row membership audit hrow hstatus

theorem decideAndStart_step (U : Unicode) (db db' : Db) (now proposal manager : ℕ) (proceed : Bool)
    (note : Text) (h : decideAndStart U db now proposal manager proceed note = .ok db') :
    WorkStep db (.decideAndStart now proposal manager proceed note) db' := by
  simp only [decideAndStart, bind_eq_ok, getRow_eq_ok] at h
  obtain ⟨row, hrow, mid, hdecide, h⟩ := h
  have hdecided := decideProposal_step U db mid now proposal manager _ note hdecide
  cases proceed with
  | false =>
    cases h
    exact .decidedOnly db _ now proposal manager false note row hrow (.inl rfl) hdecided
  | true =>
    cases hcase : row.case with
    | none =>
      rw [hcase] at h
      cases h
      exact .decidedOnly db _ now proposal manager true note row hrow (.inr hcase) hdecided
    | some case =>
      rw [hcase] at h
      exact .decidedAndStarted db mid db' now proposal manager case note row hrow hcase hdecided
        (startCaseWork_step mid db' now case manager h)

/-! ## The integrity check -/

/-- A check writes observations and the audit trail only. -/
theorem verifyPublishedEntry_frame (C : EvidenceConfig) (db db' : Db) (now entry : ℕ)
    (storage : Storage) (chain : ChainAccess) (pk : ℕ)
    (h : verifyPublishedEntry C db now entry storage chain = .ok (pk, db')) :
    ∃ observations audit, db' = { db with observations, audit } := by
  simp only [verifyPublishedEntry, verifyDocuments, bind_eq_ok] at h
  obtain ⟨⟨_, _⟩, _, _, _, ⟨_, _⟩, _, h⟩ := h
  split at h
  · simp only [bind_eq_ok, pure_eq_ok, Prod.mk.injEq] at h
    obtain ⟨_, _, _, _, db₁, haudit, _, rfl⟩ := h
    obtain ⟨audit, rfl⟩ := recordAudit_eq_ok _ _ _ _ _ _ _ _ _ haudit
    exact ⟨_, audit, rfl⟩
  · simp only [pure_eq_ok, Prod.mk.injEq] at h
    obtain ⟨_, rfl⟩ := h
    exact ⟨_, db.audit, rfl⟩

theorem verifyPublishedEntry_step (C : EvidenceConfig) (db db' : Db) (now entry : ℕ)
    (storage : Storage) (chain : ChainAccess) (pk : ℕ)
    (h : verifyPublishedEntry C db now entry storage chain = .ok (pk, db')) :
    WorkStep db (.verifyPublishedEntry now entry storage chain) db' := by
  obtain ⟨observations, audit, rfl⟩ := verifyPublishedEntry_frame C db db' now entry storage chain pk h
  exact .noted db _ db.workUpdates db.ratings observations audit rfl

/-! ## Closing -/

/-- The cases of the first loop. SOURCE: cases.py:153-155 -/
def expiredCase (now : ℕ) (c : MaintenanceCase) : Bool :=
  c.completedAt.any (· + ratingWindow ≤ now) && c.closedAt = none

/-- The proposals the second loop closes. SOURCE: cases.py:164-176 -/
def closingProposal (db : Db) (now pk : ℕ) (p : Proposal) : Bool :=
  expiredProposal now p && p.completedAt.any fun completedAt => closeAt db pk completedAt ≤ now

/-- A report of a case that is closed. -/
def inExpiredCase (db : Db) (now report : ℕ) : Bool :=
  db.cases.rows.any fun r => expiredCase now r.2 && linkedTo db r.1 report

/-- The first loop closes the cases of its list, and the completed reports of these. -/
theorem foldl_closeCase (now : ℕ) (keys : List ℕ) (db : Db) :
    ∃ cases reports, keys.foldl (closeCase now) db = { db with cases, reports } ∧
      (∀ pk, cases.get? pk = if pk ∈ keys then
        (db.cases.get? pk).map fun c => { c with active := false, closedAt := some now }
        else db.cases.get? pk) ∧
      ∀ pk, reports.get? pk = (db.reports.get? pk).map fun r =>
        if keys.any (linkedTo db · pk) && r.status = .completed then { r with status := .closed }
        else r := by
  induction keys generalizing db with
  | nil => exact ⟨db.cases, db.reports, rfl, fun pk => by simp, fun pk => by simp⟩
  | cons key keys ih =>
    obtain ⟨cases, reports, heq, hcases, hreports⟩ := ih (closeCase now db key)
    refine ⟨cases, reports, by rw [List.foldl_cons, heq]; rfl, fun pk => ?_, fun pk => ?_⟩
    · rw [hcases, closeCase, Table.get?_update]
      by_cases hkey : pk = key
      · subst hkey
        by_cases hmem : pk ∈ keys
        · simp [hmem, Function.comp_def, updateReports]
        · simp [hmem, updateReports]
      · simp [hkey, updateReports]
    · have hlinked : ∀ case, linkedTo (closeCase now db key) case pk = linkedTo db case pk :=
        fun _ => rfl
      rw [hreports]
      simp only [hlinked]
      simp only [closeCase, updateReports, Table.get?_mapRows, Option.map_map]
      refine congrArg (fun f => Option.map f (db.reports.get? pk)) (funext fun r => ?_)
      simp only [Function.comp_apply, List.any_cons]
      by_cases hkey : linkedTo db key pk = true
      · by_cases hstatus : r.status = .completed
        · simp [hkey, hstatus]
        · simp [hkey, hstatus]
      · simp [hkey]

/-- The second loop closes the proposals of its list. -/
theorem foldl_closeProposal (now : ℕ) (keys : List ℕ) (db : Db) :
    ∃ proposals, keys.foldl (closeProposal now) db = { db with proposals } ∧
      ∀ pk, proposals.get? pk = if pk ∈ keys then
        (db.proposals.get? pk).map fun p => { p with status := .closed, closedAt := some now }
        else db.proposals.get? pk := by
  induction keys generalizing db with
  | nil => exact ⟨db.proposals, rfl, fun pk => by simp⟩
  | cons key keys ih =>
    obtain ⟨proposals, heq, hget⟩ := ih (closeProposal now db key)
    refine ⟨proposals, by rw [List.foldl_cons, heq]; rfl, fun pk => ?_⟩
    rw [hget, closeProposal, Table.get?_update]
    by_cases hkey : pk = key
    · subst hkey
      by_cases hmem : pk ∈ keys
      · simp [hmem, Function.comp_def]
      · simp [hmem]
    · simp [hkey]

/-- The rows a selection lists, by key. -/
theorem map_of_mem_keys {α : Type} (t : Table α) (p : ℕ → α → Bool) (rows : List (ℕ × α))
    (hrows : ∀ pk a, (pk, a) ∈ rows ↔ t.get? pk = some a ∧ p pk a = true) (f : α → α) (pk : ℕ) :
    (if pk ∈ rows.map Prod.fst then (t.get? pk).map f else t.get? pk) =
      (t.get? pk).map fun a => if p pk a then f a else a := by
  cases hget : t.get? pk with
  | none => simp
  | some a =>
    by_cases hp : p pk a = true
    · have hmem : pk ∈ rows.map Prod.fst :=
        List.mem_map.mpr ⟨(pk, a), (hrows pk a).mpr ⟨hget, hp⟩, rfl⟩
      simp [hmem, hp]
    · have hmem : pk ∉ rows.map Prod.fst := by
        intro hmem
        obtain ⟨⟨key, b⟩, hb, hkey⟩ := List.mem_map.mp hmem
        obtain ⟨hget', hp'⟩ := (hrows key b).mp hb
        simp only at hkey
        rw [hkey] at hget' hp'
        cases hget.symm.trans hget'
        exact hp hp'
      simp [hmem, hp]

/-- **What the nightly run writes.** -/
theorem closeExpiredCompletedCases_eq (db : Db) (now : ℕ) :
    ∃ cases reports proposals,
      (closeExpiredCompletedCases db now).2 = { db with cases, reports, proposals } ∧
      (∀ pk, cases.get? pk = (db.cases.get? pk).map fun c =>
        if expiredCase now c then { c with active := false, closedAt := some now } else c) ∧
      (∀ pk, reports.get? pk = (db.reports.get? pk).map fun r =>
        if inExpiredCase db now pk && r.status = .completed then { r with status := .closed }
        else r) ∧
      ∀ pk, proposals.get? pk = (db.proposals.get? pk).map fun p =>
        if closingProposal db now pk p then { p with status := .closed, closedAt := some now }
        else p := by
  obtain ⟨cases, reports, heq, hcases, hreports⟩ := foldl_closeCase now
    ((db.cases.select (expiredCase now)).map Prod.fst) db
  obtain ⟨proposals, heq', hproposals⟩ := foldl_closeProposal now
    (((db.proposals.select (expiredProposal now)).filter fun r =>
      r.2.completedAt.any fun completedAt =>
        closeAt { db with cases, reports } r.1 completedAt ≤ now).map Prod.fst)
    { db with cases, reports }
  refine ⟨cases, reports, proposals, ?_, fun pk => ?_, fun pk => ?_, fun pk => ?_⟩
  · unfold closeExpiredCompletedCases
    rw [show (db.cases.select fun c => c.completedAt.any (· + ratingWindow ≤ now) &&
      c.closedAt = none) = db.cases.select (expiredCase now) from rfl]
    dsimp only
    rw [heq]
    exact heq'
  · rw [hcases]
    exact map_of_mem_keys db.cases (fun _ c => expiredCase now c) _ (Table.mem_select _ _) _ pk
  · have hlinked : ((db.cases.select (expiredCase now)).map Prod.fst).any (linkedTo db · pk) =
        inExpiredCase db now pk := by
      rw [inExpiredCase, Table.select, List.any_map, List.any_filter]
      rfl
    rw [hreports, hlinked]
  · rw [hproposals]
    refine map_of_mem_keys db.proposals (closingProposal db now) _ (fun key p => ?_) _ pk
    have hsame : ∀ t, closeAt { db with cases, reports } key t = closeAt db key t := fun _ => rfl
    simp only [List.mem_filter, Table.mem_select, hsame, closingProposal, Bool.and_eq_true,
      and_assoc]

/-! ## Quiet steps -/

/-- A completed case completes a proposal of its own that was in progress, and no other. -/
theorem completeCaseProposal_eq (db : Db) (case now : ℕ) :
    ∃ proposals, completeCaseProposal db case now = { db with proposals } ∧
      ∀ pk, proposals.get? pk = db.proposals.get? pk ∨
        ∃ p, db.proposals.get? pk = some p ∧ p.case = some case ∧ p.status = .inProgress ∧
          proposals.get? pk = some { p with status := .completed, completedAt := some now } := by
  unfold completeCaseProposal
  split
  · next proposal row hfind =>
    obtain ⟨hget, hopen⟩ := Table.first?_eq_some _ _ _ _ hfind
    have hrow : row.case = some case ∧ row.status = .inProgress := by simpa using hopen
    refine ⟨_, rfl, fun pk => ?_⟩
    rw [Table.get?_update]
    split
    · next hpk =>
      rw [hpk, hget]
      exact .inr ⟨row, rfl, hrow.1, hrow.2, rfl⟩
    · exact .inl rfl
  · exact ⟨db.proposals, rfl, fun _ => .inl rfl⟩

/-- Every proposal is rewritten by a function that moves it. -/
theorem ProposalsMoved.of_map (db db' : Db) (f : ℕ → Proposal → Proposal)
    (hf : ∀ pk p, db.proposals.get? pk = some p → Moved p (f pk p))
    (h : ∀ pk, db'.proposals.get? pk = (db.proposals.get? pk).map (f pk)) :
    ProposalsMoved db db' := by
  refine .of_rows db db' fun pk => ?_
  rw [h]
  cases hget : db.proposals.get? pk with
  | none => exact .inl rfl
  | some p => exact .inr ⟨p, f pk p, rfl, rfl, hf pk p hget⟩

theorem isSome_get?_map {α : Type} (t u : Table α) (f : ℕ → α → α)
    (h : ∀ pk, u.get? pk = (t.get? pk).map (f pk)) (pk : ℕ) (hpk : (t.get? pk).isSome = true) :
    (u.get? pk).isSome = true := by
  rw [h, Option.isSome_map]
  exact hpk

/-- A decision moves a published proposal. -/
theorem Moved.decide (now membership : ℕ) (proceed : Bool) (note : Text) (p : Proposal)
    (h : p.status = .published) : Moved p (Proposal.decide now membership proceed note p) := by
  refine ⟨rfl, rfl, rfl, ?_⟩
  rw [h]
  cases proceed with
  | false => exact .decline
  | true => exact .proceed

theorem closingProposal_completed (db : Db) (now pk : ℕ) (p : Proposal)
    (h : closingProposal db now pk p = true) : p.case = none ∧ p.status = .completed := by
  simp only [closingProposal, expiredProposal, Bool.and_eq_true, decide_eq_true_eq] at h
  exact ⟨h.1.1.1.1, h.1.1.1.2⟩

/-- A quiet step may be followed by one that touches no proposal. -/
theorem Quiet.andThen (db mid : Db) (h : Quiet db mid) (maintenance : MaintenanceTables)
    (observations : Table VerificationObservation) (audit : Table AuditEvent)
    (hcases : ∀ pk, (mid.cases.get? pk).isSome = true →
      (maintenance.cases.get? pk).isSome = true) :
    Quiet db { mid with toMaintenanceTables := maintenance, observations, audit } where
  versions := h.versions
  proposalDocuments := h.proposalDocuments
  settlements := h.settlements
  funds := h.funds
  fundEntries := h.fundEntries
  verifications := h.verifications
  ledger := h.ledger
  identities := h.identities
  documents := h.documents
  documentVersions := h.documentVersions
  buildings := h.buildings
  cases pk hpk := hcases pk (h.cases pk hpk)
  proposals := ⟨h.proposals.kept, h.proposals.found⟩

/-- **The maintenance side keeps the books.** -/
theorem WorkStep.quiet (db db' : Db) (a : Command) (h : WorkStep db a db') : Quiet db db' := by
  induction h with
  | noted db => exact .of_maintenance db _ _ _ fun _ hpk => hpk
  | reviewed db => exact .of_maintenance db _ _ _ fun _ hpk => hpk
  | opened db => exact .of_maintenance db _ _ _ fun pk hpk => isSome_get?_insert _ _ pk hpk
  | grouped db => exact .of_maintenance db _ _ _ fun _ hpk => hpk
  | started db => exact .of_maintenance db _ _ _ fun pk hpk => isSome_get?_update _ _ _ pk hpk
  | finishedProposal db now proposal manager cause result row _ _ hget _ hstatus =>
    have hmove : StatusMove row.status .completed := hstatus ▸ .complete
    exact .of_frame db _ _ _ _ (fun _ hpk => hpk)
      (.of_update _ _ proposal row _ hget ⟨rfl, rfl, rfl, hmove⟩ rfl)
  | finishedCase db now case =>
    obtain ⟨proposals, heq, hrows⟩ := completeCaseProposal_eq
      { db with cases := db.cases.update case fun c => { c with completedAt := some now } } case now
    rw [heq]
    refine .of_frame db _ proposals _ _ (fun pk hpk => isSome_get?_update _ _ _ pk hpk)
      (.of_rows db _ fun pk => ?_)
    rcases hrows pk with hsame | ⟨p, hp, _, hstatus, hdone⟩
    · exact .inl hsame
    · have hmove : StatusMove p.status .completed := hstatus ▸ .complete
      exact .inr ⟨p, _, hp, hdone, rfl, rfl, rfl, hmove⟩
  | expired db now =>
    obtain ⟨cases, reports, proposals, heq, hcases, _, hproposals⟩ :=
      closeExpiredCompletedCases_eq db now
    rw [heq]
    refine .of_frame db _ proposals _ _ (isSome_get?_map db.cases cases _ hcases)
      (.of_map db _ _ (fun pk p _ => ?_) hproposals)
    split
    · next hclosing =>
      have hmove : StatusMove p.status .closed :=
        (closingProposal_completed db now pk p hclosing).2 ▸ .close
      exact ⟨rfl, rfl, rfl, hmove⟩
    · exact .refl p
  | declined db =>
    exact .of_maintenance db _ _ _ (isSome_get?_map _ _ _ (Table.get?_mapRows _ _))
  | asked db => exact .of_maintenance db _ _ _ fun _ hpk => hpk
  | replied db => exact .of_maintenance db _ _ _ fun _ hpk => hpk
  | rated db =>
    unfold closeRatedCase
    split
    · exact .of_maintenance db _ _ _ fun _ hpk => hpk
    · exact .of_maintenance db _ _ _ fun pk hpk => isSome_get?_update _ _ _ pk hpk
  | proposed db now case creator row membership audit hget =>
    refine .of_frame db _ _ _ _ (fun _ hpk => hpk) (.of_insert _ _ _ ⟨rfl, rfl, ?_⟩ rfl)
    rintro _ ⟨⟩
    rw [hget]
    rfl
  | drafted db =>
    refine .of_frame db _ _ _ _ (fun _ hpk => hpk) (.of_insert _ _ _ ⟨rfl, rfl, ?_⟩ rfl)
    rintro _ ⟨⟩
  | decided db now proposal manager proceed note stored row membership audit hget hstatus =>
    exact .of_frame db _ _ _ _ (fun _ hpk => hpk)
      (.of_update _ _ proposal row _ hget (.decide _ _ _ _ row hstatus) rfl)
  | decidedOnly db db' now proposal manager proceed note row _ _ _ ih => exact ih
  | decidedAndStarted db mid db' now proposal manager case note row _ _ _ hstarted ih =>
    cases hstarted with
    | noted _ _ _ _ _ _ hnote => cases hnote
    | started =>
      exact ih.andThen db mid _ _ _ fun pk hpk => isSome_get?_update _ _ _ pk hpk

/-! ## Registers -/

/-- Two states with the same documents and memberships. -/
structure SameRegisters (db db' : Db) : Prop where
  documentVersions : db'.documentVersions = db.documentVersions
  memberships : db'.memberships = db.memberships

/-- The maintenance side stores no document and no membership. -/
theorem WorkStep.sameRegisters (db db' : Db) (a : Command) (h : WorkStep db a db') :
    SameRegisters db db' := by
  induction h with
  | finishedCase db now case =>
    obtain ⟨proposals, heq, _⟩ := completeCaseProposal_eq
      { db with cases := db.cases.update case fun c => { c with completedAt := some now } } case now
    rw [heq]
    exact ⟨rfl, rfl⟩
  | expired db now =>
    obtain ⟨cases, reports, proposals, heq, _⟩ := closeExpiredCompletedCases_eq db now
    rw [heq]
    exact ⟨rfl, rfl⟩
  | rated db now resident case =>
    unfold closeRatedCase
    split
    · exact ⟨rfl, rfl⟩
    · exact ⟨rfl, rfl⟩
  | decidedOnly _ _ _ _ _ _ _ _ _ _ _ ih => exact ih
  | decidedAndStarted _ _ _ _ _ _ _ _ _ _ _ _ _ ih ih' =>
    exact ⟨ih'.documentVersions.trans ih.documentVersions, ih'.memberships.trans ih.memberships⟩
  | _ => exact ⟨rfl, rfl⟩

end LamTo.Analysis
