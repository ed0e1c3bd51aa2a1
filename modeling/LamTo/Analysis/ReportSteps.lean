import LamTo.Analysis.FinanceSteps

/-!
# What a step does to reports and their links

`ReportChange` lists the writes a report ever sees, each with the guard the service tested and
the call that made it; `LinkAdded` the two ways a report comes to a case. `reports_changed` and
`links_changed` say that every step of the system changes reports and links in these ways only.

No link is ever taken away, and a report is added to a case only while no active case has it:
`AttachmentInv` says that the active cases share no report.

SOURCE: src/lamto/maintenance/triage.py:54-172, cases.py:58-275, ratings.py:61-67, ai.py:149-151,
src/lamto/finance/proposals.py:228-230, src/lamto/maintenance/migrations/0005
-/

set_option autoImplicit false

namespace LamTo.Analysis

open LamTo.Library LamTo.Model

/-! ## The reports of a case -/

theorem linkedTo_iff (db : Db) (case report : ℕ) :
    linkedTo db case report = true ↔
      ∃ link l, db.caseReports.get? link = some l ∧ l.case = case ∧ l.report = report := by
  simp [linkedTo, Table.any_eq_true]

theorem hasReport_iff (db : Db) (case : ℕ) (p : IssueReport → Bool) :
    hasReport db case p = true ↔
      ∃ pk r, db.reports.get? pk = some r ∧ linkedTo db case pk = true ∧ p r = true := by
  simp [hasReport, List.any_eq_true, Table.get?_eq_some]

/-- The report is linked to an active case. -/
def attached (db : Db) (report : ℕ) : Bool :=
  db.caseReports.any fun l => l.report = report && (db.cases.get? l.case).any (·.active)

theorem attached_iff (db : Db) (report : ℕ) :
    attached db report = true ↔
      ∃ case c, linkedTo db case report = true ∧ db.cases.get? case = some c ∧ c.active = true := by
  simp only [attached, Table.any_eq_true, Bool.and_eq_true, decide_eq_true_eq, Option.any_eq_true,
    linkedTo_iff]
  constructor
  · rintro ⟨link, l, hl, hreport, c, hc, hactive⟩
    exact ⟨l.case, c, ⟨link, l, hl, rfl, hreport⟩, hc, hactive⟩
  · rintro ⟨case, c, ⟨link, l, hl, rfl, hreport⟩, hc, hactive⟩
    exact ⟨link, l, hl, hreport, c, hc, hactive⟩

/-- A report in no active case is not attached. -/
theorem attached_eq_false (db : Db) (report : ℕ)
    (h : ∀ pk l, db.caseReports.get? pk = some l → l.report = report →
      (db.cases.get? l.case).any (·.active) = false) : attached db report = false := by
  refine (Table.any_eq_false _ _).mpr fun pk l hl => ?_
  by_cases hreport : l.report = report
  · rw [h pk l hl hreport, Bool.and_false]
  · rw [decide_eq_false hreport, Bool.false_and]

/-! ## Reports -/

/-- A linked report that is not finished, of a case that work is possible on. -/
structure OpenIn (db : Db) (case pk : ℕ) (r : IssueReport) : Prop where
  linked : linkedTo db case pk = true
  unfinished : r.status.terminal = false
  workable : ∃ c, db.cases.get? case = some c ∧ Workable c

/-- The writes to a report. -/
inductive ReportChange (db : Db) (pk : ℕ) (r : IssueReport) : Command → IssueReport → Prop where
  | kept (a : Command) : ReportChange db pk r a r
  | reviewed (submitted : r.status = .submitted) :
      ReportChange db pk r (.reviewSubmitted pk) { r with status := .inReview }
  | grouped (case operator : ℕ) (detached : attached db pk = false) :
      ReportChange db pk r (.groupReport case pk operator)
        { r with status := groupedStatus db case }
  | started (now case manager : ℕ) (opened : OpenIn db case pk r) :
      ReportChange db pk r (.startCaseWork now case manager) { r with status := .inProgress }
  | startedInView (now proposal manager case : ℕ) (note : Text) (opened : OpenIn db case pk r)
      (of_case : (db.proposals.get? proposal).bind (·.case) = some case) :
      ReportChange db pk r (.decideAndStart now proposal manager true note)
        { r with status := .inProgress }
  | completed (now case manager : ℕ) (cause result : Text) (opened : OpenIn db case pk r) :
      ReportChange db pk r (.completeCaseWork now case manager cause result)
        { r with status := .completed }
  | expired (now : ℕ) (expired : inExpiredCase db now pk = true) (completed : r.status = .completed) :
      ReportChange db pk r (.closeExpiredCompletedCases now) { r with status := .closed }
  | declined (now manager : ℕ) (reason stored : Text) (unfinished : r.status.terminal = false) :
      ReportChange db pk r (.declineReport now pk manager reason)
        { r with status := .declined, declinedReason := stored, declinedBy := some manager,
                 declinedAt := some now }
  | asked (manager : ℕ) (message : Text) (unfinished : r.status.terminal = false) :
      ReportChange db pk r (.requestInformation pk manager message)
        { r with status := .needsInfo }
  | replied (now resident : ℕ) (text : Text) :
      ReportChange db pk r (.replyInformation now resident pk text) { r with status := .inReview }
  | rated (now resident case : ℕ) (satisfied comment : PyValue)
      (linked : linkedTo db case pk = true) (reporter : r.reporter = resident)
      (completed : r.status = .completed) :
      ReportChange db pk r (.rateCompletedCase now resident case satisfied comment)
        { r with status := .closed }
  | proposed (now case creator : ℕ) (opened : OpenIn db case pk r) :
      ReportChange db pk r (.createProposal now case creator) { r with status := .proposed }

def ReportsChanged (db : Db) (a : Command) (db' : Db) : Prop :=
  db.reports.Evolves db'.reports (fun pk r => ReportChange db pk r a)
    fun r => r.status = .submitted ∧ 0 < r.building

/-- No report is written. -/
theorem ReportsChanged.of_eq (db db' : Db) (a : Command)
    (h : ∀ pk, db'.reports.get? pk = db.reports.get? pk) : ReportsChanged db a db' :=
  Table.Evolves.of_eq (fun _ _ => .kept a) h

/-- One report is written. -/
theorem ReportsChanged.of_update (db db' : Db) (a : Command) (report : ℕ) (row : IssueReport)
    (f : IssueReport → IssueReport) (hrow : db.reports.get? report = some row)
    (h : db'.reports = db.reports.update report f)
    (hf : ReportChange db report row a (f row)) : ReportsChanged db a db' := by
  refine Table.Evolves.of_update (fun _ _ => .kept a) report f h fun r hr => ?_
  cases hrow.symm.trans hr
  exact hf

/-- The open reports of a case take a status. -/
theorem ReportsChanged.of_updateReports (db db' mid : Db) (a : Command) (case : ℕ)
    (status : ReportStatus) (row : MaintenanceCase) (hcase : db.cases.get? case = some row)
    (hworkable : Workable row) (hreports : mid.reports = db.reports)
    (hlinks : mid.caseReports = db.caseReports)
    (h : db'.reports = (updateReports mid case (fun s => !s.terminal) status).reports)
    (hf : ∀ pk r, OpenIn db case pk r → ReportChange db pk r a { r with status }) :
    ReportsChanged db a db' := by
  refine Table.Evolves.of_map
    (fun pk r => if linkedTo mid case pk && !r.status.terminal then { r with status } else r)
    (fun pk => ?_) fun pk r _ => ?_
  · rw [h, updateReports, Table.get?_mapRows, hreports]
  · have hlinked : linkedTo mid case pk = linkedTo db case pk := by
      rw [linkedTo, hlinks]
      rfl
    rw [hlinked]
    split
    · next hopen =>
      rw [Bool.and_eq_true, Bool.not_eq_true'] at hopen
      exact hf pk r ⟨hopen.1, hopen.2, row, hcase, hworkable⟩
    · exact .kept a

/-- Completed reports of a kind close. -/
theorem ReportsChanged.of_close (db db' : Db) (a : Command) (p : ℕ → IssueReport → Bool)
    (h : ∀ pk, db'.reports.get? pk = (db.reports.get? pk).map fun r =>
      if p pk r && r.status = .completed then { r with status := .closed } else r)
    (hf : ∀ pk r, p pk r = true → r.status = .completed →
      ReportChange db pk r a { r with status := .closed }) :
    ReportsChanged db a db' := by
  refine Table.Evolves.of_map _ h fun pk r _ => ?_
  split
  · next hclose =>
    rw [Bool.and_eq_true, decide_eq_true_eq] at hclose
    exact hf pk r hclose.1 hclose.2
  · exact .kept a

/-- **What a service of the maintenance side does to reports.** -/
theorem WorkStep.reports_changed (db db' : Db) (a : Command) (h : WorkStep db a db') :
    ReportsChanged db a db' := by
  induction h with
  | reviewed db report =>
    refine Table.Evolves.of_update (fun _ _ => .kept _) report _ rfl fun r _ => ?_
    split
    · next hsubmitted => exact .reviewed hsubmitted
    · exact .kept _
  | grouped db case report operator caseRow row audit _ hrow _ _ hunattached =>
    exact .of_update db _ _ report row _ hrow rfl
      (.grouped case operator (attached_eq_false db report hunattached))
  | started db now case manager row _ hcase hworkable =>
    exact .of_updateReports db _
      { db with cases := db.cases.update case fun c =>
          { c with startedAt := c.startedAt.or (some now) } } _ case .inProgress row hcase hworkable
      rfl rfl rfl fun pk r hopen => .started now case manager hopen
  | finishedCase db now case manager cause result row _ _ hcase hworkable =>
    obtain ⟨proposals, heq, _⟩ := completeCaseProposal_eq
      { db with cases := db.cases.update case fun c => { c with completedAt := some now } } case now
    rw [heq]
    exact .of_updateReports db _
      { db with cases := db.cases.update case fun c => { c with completedAt := some now }, proposals }
      _ case .completed row hcase hworkable rfl rfl rfl
      fun pk r hopen => .completed now case manager cause result hopen
  | expired db now =>
    obtain ⟨cases, reports, proposals, heq, _, hreports, _⟩ := closeExpiredCompletedCases_eq db now
    rw [heq]
    exact .of_close db _ _ (fun pk _ => inExpiredCase db now pk) hreports
      fun pk r hexpired hcompleted => .expired now hexpired hcompleted
  | declined db now report manager reason stored row audit hrow hunfinished =>
    exact .of_update db _ _ report row _ hrow rfl (.declined now manager reason stored hunfinished)
  | asked db report manager message row info audit hrow hunfinished =>
    exact .of_update db _ _ report row _ hrow rfl (.asked manager message hunfinished)
  | replied db now resident report text stored row key info audit hrow =>
    exact .of_update db _ _ report row _ hrow rfl (.replied now resident text)
  | rated db now resident case satisfied comment row ratings audit =>
    have hreports : (closeRatedCase (closeRatedReports { db with ratings, audit } resident case)
        now case).reports =
        (closeRatedReports { db with ratings, audit } resident case).reports := by
      unfold closeRatedCase
      split
      · rfl
      · rfl
    refine .of_close db _ _ (fun pk r => linkedTo db case pk && r.reporter = resident)
      (fun pk => ?_) fun pk r hown hcompleted => ?_
    · rw [hreports]
      exact Table.get?_mapRows _ _ pk
    · rw [Bool.and_eq_true, decide_eq_true_eq] at hown
      exact .rated now resident case satisfied comment hown.1 hown.2 hcompleted
  | proposed db now case creator row membership _ hcase hworkable =>
    exact .of_updateReports db _
      { db with proposals := db.proposals.insert (.draft now (some case) row.building membership) }
      _ case .proposed row hcase hworkable rfl rfl rfl
      fun pk r hopen => .proposed now case creator hopen
  | decidedOnly db db' now proposal manager proceed note row _ _ hdecided =>
    exact .of_eq db _ _ fun pk => by rw [hdecided.decided_sameCases.reports]
  | decidedAndStarted db mid db' now proposal manager case note row hrow hof hdecided hstarted =>
    have hsame := hdecided.decided_sameCases
    cases hstarted with
    | noted _ _ _ _ _ _ hnote => cases hnote
    | started _ _ _ _ caseRow _ hcase hworkable =>
      rw [hsame.cases] at hcase
      refine .of_updateReports db _
        { mid with cases := mid.cases.update case fun c =>
            { c with startedAt := c.startedAt.or (some now) } } _ case .inProgress caseRow hcase
        hworkable hsame.reports hsame.caseReports rfl fun pk r hopen => ?_
      exact .startedInView now proposal manager case note hopen (by rw [hrow]; exact hof)
  | _ => exact .of_eq _ _ _ fun _ => rfl

/-- **What a step does to reports**, whichever service is called. -/
theorem reports_changed (C : EvidenceConfig) (db db' : Db) (a : Command)
    (h : Db.step C db a = some db') : ReportsChanged db a db' := by
  cases service_effect C db db' a h with
  | setup _ hsetup =>
    rcases hsetup.reports with hrows | ⟨reporter, building, isPrivate, hbuilding, hinsert⟩
    · exact .of_eq db db' a (Table.get?_congr _ _ hrows)
    · exact Table.Evolves.of_insert (fun _ _ => .kept a) _ hinsert ⟨rfl, hbuilding⟩
  | work _ hwork => exact hwork.reports_changed db db' a
  | publish creator args p => exact .of_eq db db' _ fun _ => by rw [p.result]
  | settle now member transfer eventId s => exact .of_eq db db' _ fun _ => by rw [s.result]
  | openFund building fund funds _ result => exact .of_eq db db' _ fun _ => by rw [result]
  | record now entryType amountVnd evidence recorder fundEntryId aware r =>
    exact .of_eq db db' _ fun _ => by rw [r.result]
  | verify now verifier v => exact .of_eq db db' _ fun _ => by rw [v.result]

/-! ## Links -/

/-- How a link comes to be. -/
inductive LinkAdded (db db' : Db) : Command → CaseReport → Prop where
  | opened (now report operator : ℕ) (category urgency : PyValue) (location : ℕ)
      (queue minutes : PyValue) (report_exists : (db.reports.get? report).isSome = true)
      (case_exists : (db'.cases.get? db.cases.next).isSome = true)
      (undecided : ∀ pk d, db.decisions.get? pk = some d → d.report ≠ report)
      (detached : attached db report = false) :
      LinkAdded db db'
        (.confirmTriage now report operator category urgency location queue minutes)
        ⟨db.cases.next, report, operator⟩
  | grouped (case report operator : ℕ) (row : IssueReport) (caseRow : MaintenanceCase)
      (row_get : db.reports.get? report = some row)
      (case_get : db.cases.get? case = some caseRow) (active : caseRow.active = true)
      (detached : attached db report = false)
      (allowed : ¬ (row.isPrivate = true ∧ groupedStatus db case = .proposed)) :
      LinkAdded db db' (.groupReport case report operator) ⟨case, report, operator⟩

/-- Links are kept, and one may be added. -/
def LinksChanged (db : Db) (a : Command) (db' : Db) : Prop :=
  db.caseReports.Evolves db'.caseReports (fun _ l l' => l' = l) (LinkAdded db db' a)

theorem LinksChanged.of_eq (db db' : Db) (a : Command)
    (h : ∀ pk, db'.caseReports.get? pk = db.caseReports.get? pk) : LinksChanged db a db' :=
  Table.Evolves.of_eq (fun _ _ => rfl) h

/-- A new link is made while no active case has the report. -/
theorem LinkAdded.detached (db db' : Db) (a : Command) (l : CaseReport)
    (h : LinkAdded db db' a l) : attached db l.report = false := by
  cases h with
  | opened _ _ _ _ _ _ _ _ _ _ _ hdetached => exact hdetached
  | grouped _ _ _ _ _ _ _ _ hdetached => exact hdetached

/-- **New links** are made by triage and by grouping. -/
theorem WorkStep.links_changed (db db' : Db) (a : Command) (h : WorkStep db a db') :
    LinksChanged db a db' := by
  induction h with
  | opened db now report operator category urgency location queue minutes row _ _ _ hrow hundecided
      hunattached =>
    have hreport : (db.reports.get? report).isSome = true := by
      rw [hrow]
      rfl
    have hdetached : attached db report = false := by
      refine attached_eq_false db report fun pk l hl hof => ?_
      by_cases hnew : l.case = db.cases.next
      · rw [hnew, Table.get?_next]
        rfl
      · exact hunattached pk l hl hof hnew
    refine Table.Evolves.of_insert (fun _ _ => rfl) _ rfl (.opened now report operator category
      urgency location queue minutes hreport ?_ hundecided hdetached)
    rw [Table.get?_insert_self]
    rfl
  | grouped db case report operator caseRow row audit hcase hrow hactive _ hunattached _ hallowed =>
    have hdetached := attached_eq_false db report hunattached
    exact Table.Evolves.of_insert (fun _ _ => rfl) _ rfl
      (.grouped case report operator row caseRow hrow hcase hactive hdetached hallowed)
  | finishedCase db now case =>
    obtain ⟨proposals, heq, _⟩ := completeCaseProposal_eq
      { db with cases := db.cases.update case fun c => { c with completedAt := some now } } case now
    rw [heq]
    exact .of_eq db _ _ fun _ => rfl
  | expired db now =>
    obtain ⟨cases, reports, proposals, heq, _⟩ := closeExpiredCompletedCases_eq db now
    rw [heq]
    exact .of_eq db _ _ fun _ => rfl
  | rated db now resident case satisfied comment row ratings audit =>
    unfold closeRatedCase
    split
    · exact .of_eq db _ _ fun _ => rfl
    · exact .of_eq db _ _ fun _ => rfl
  | decidedOnly db db' now proposal manager proceed note row _ _ hdecided =>
    exact .of_eq db _ _ fun pk => by rw [hdecided.decided_sameCases.caseReports]
  | decidedAndStarted db mid db' now proposal manager case note row _ _ hdecided hstarted =>
    have hmid := hdecided.decided_sameCases.caseReports
    cases hstarted with
    | noted _ _ _ _ _ _ hnote => cases hnote
    | started => exact .of_eq db _ _ fun _ => by rw [← hmid]; rfl
  | _ => exact .of_eq _ _ _ fun _ => rfl

/-- What a step does to links, whichever service is called. -/
theorem links_changed (C : EvidenceConfig) (db db' : Db) (a : Command)
    (h : Db.step C db a = some db') : LinksChanged db a db' := by
  cases service_effect C db db' a h with
  | setup _ hsetup => exact .of_eq db db' a (Table.get?_congr _ _ hsetup.caseReports)
  | work _ hwork => exact hwork.links_changed db db' a
  | publish creator args p => exact .of_eq db db' _ fun _ => by rw [p.result]
  | settle now member transfer eventId s => exact .of_eq db db' _ fun _ => by rw [s.result]
  | openFund building fund funds _ result => exact .of_eq db db' _ fun _ => by rw [result]
  | record now entryType amountVnd evidence recorder fundEntryId aware r =>
    exact .of_eq db db' _ fun _ => by rw [r.result]
  | verify now verifier v => exact .of_eq db db' _ fun _ => by rw [v.result]

/-- A linked report stays linked. -/
theorem LinksChanged.linked (db db' : Db) (a : Command) (h : LinksChanged db a db')
    (case report : ℕ) (hlinked : linkedTo db case report = true) :
    linkedTo db' case report = true := by
  obtain ⟨link, l, hl, hcase, hreport⟩ := (linkedTo_iff db case report).mp hlinked
  obtain ⟨l', hl', heq⟩ := h.kept link l hl
  subst heq
  exact (linkedTo_iff db' case report).mpr ⟨link, l', hl', hcase, hreport⟩

/-- A linked report was linked before, or is linked by this call. -/
theorem LinksChanged.of_linked (db db' : Db) (a : Command) (h : LinksChanged db a db')
    (case report : ℕ) (hlinked : linkedTo db' case report = true) :
    linkedTo db case report = true ∨ ∃ operator, LinkAdded db db' a ⟨case, report, operator⟩ := by
  obtain ⟨link, l, hl, hcase, hreport⟩ := (linkedTo_iff db' case report).mp hlinked
  subst hcase hreport
  rcases h.found link l hl with ⟨l', hl', heq⟩ | ⟨_, hadded⟩
  · subst heq
    exact .inl ((linkedTo_iff db _ _).mpr ⟨link, l, hl', rfl, rfl⟩)
  · exact .inr ⟨l.groupedBy, hadded⟩

end LamTo.Analysis
