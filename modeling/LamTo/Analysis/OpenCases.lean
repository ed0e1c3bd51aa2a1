import LamTo.Analysis.CaseSteps
import LamTo.Analysis.ReportSteps
import LamTo.Analysis.TerminalReports

/-!
# Open cases have open work

A case is opened for a report and stays open until its work is completed, its reports are
declined, or it is rated or expires. `decline_report` closes a case with its last open report;
`confirm_triage` opens one without a look at the status of the report, and a finished report
then makes a case without work. `opensOnFinished` names that call.

* **Attachment** (`AttachmentInv`): no two active cases share a report, so that what one case
  does to its reports takes none from another.
* **The invariant** (`OpenInv.step`): an active case that is not completed has a report that is
  not finished.

SOURCE: src/lamto/maintenance/cases.py:244-264, src/lamto/maintenance/triage.py:54-172
-/

set_option autoImplicit false

namespace LamTo.Analysis

open LamTo.Library LamTo.Model

variable {C : EvidenceConfig} {db db' : Db} {a : Command}

/-! ## Reports and active cases -/

/-- Links name rows that exist, active cases share no report, and an active case is not closed. -/
structure AttachmentInv (db : Db) : Prop where
  case_exists : ∀ case pk, linkedTo db case pk = true → (db.cases.get? case).isSome = true
  report_exists : ∀ case pk, linkedTo db case pk = true → (db.reports.get? pk).isSome = true
  once : ∀ pk case case' c c', linkedTo db case pk = true → linkedTo db case' pk = true →
    db.cases.get? case = some c → db.cases.get? case' = some c' → c.active = true →
    c'.active = true → case = case'
  unclosed : ∀ case c, db.cases.get? case = some c → c.active = true → c.closedAt = none

theorem attachmentInv_empty : AttachmentInv Db.empty where
  case_exists _ _ h := by cases h
  report_exists _ _ h := by cases h
  once _ _ _ _ _ h := by cases h
  unclosed _ _ h := by cases h

/-- No write makes a case active. -/
theorem CaseChange.active (pk : ℕ) (c c' : MaintenanceCase) (h : CaseChange db pk c a c')
    (hactive : c'.active = true) : c.active = true ∧ c'.closedAt = c.closedAt := by
  cases h with
  | kept => exact ⟨hactive, rfl⟩
  | started => exact ⟨hactive, rfl⟩
  | startedInView => exact ⟨hactive, rfl⟩
  | completed => exact ⟨hactive, rfl⟩
  | expired => cases hactive
  | rated => cases hactive
  | declined => cases hactive

/-- An active case that was there was active. -/
theorem active_before (h : Db.step C db a = some db') (case : ℕ) (c' : MaintenanceCase)
    (hc' : db'.cases.get? case = some c') (hactive : c'.active = true)
    (hold : (db.cases.get? case).isSome = true) :
    ∃ c, db.cases.get? case = some c ∧ c.active = true ∧ CaseChange db case c a c' := by
  rcases (cases_stepped C db db' a h).cases.found case c' hc' with ⟨c, hc, hchange⟩ | ⟨hnext, _⟩
  · exact ⟨c, hc, (hchange.active case c c' hactive).1, hchange⟩
  · rw [hnext, Table.get?_next] at hold
    cases hold

/-- A call links one report to one case. -/
theorem LinkAdded.case_unique (case case' pk operator operator' : ℕ)
    (h : LinkAdded db db' a ⟨case, pk, operator⟩)
    (h' : LinkAdded db db' a ⟨case', pk, operator'⟩) :
    case = case' := by
  cases h with
  | opened =>
    cases h' with
    | opened => rfl
  | grouped =>
    cases h' with
    | grouped => rfl

/-- A report that an active case of before has is not linked by this call. -/
theorem AttachmentInv.not_added (hinv : AttachmentInv db) (h : Db.step C db a = some db')
    (case case' pk operator : ℕ) (c' : MaintenanceCase)
    (hadded : LinkAdded db db' a ⟨case, pk, operator⟩) (hlinked : linkedTo db case' pk = true)
    (hc' : db'.cases.get? case' = some c') (hactive : c'.active = true) : False := by
  obtain ⟨c, hc, hbefore, _⟩ := active_before h case' c' hc' hactive
    (hinv.case_exists case' pk hlinked)
  have hattached := (attached_iff db pk).mpr ⟨case', c, hlinked, hc, hbefore⟩
  have hdetached : attached db pk = false := hadded.detached
  rw [hdetached] at hattached
  cases hattached

theorem AttachmentInv.step (hinv : AttachmentInv db) (h : Db.step C db a = some db') :
    AttachmentInv db' := by
  have hcases := (cases_stepped C db db' a h).cases
  have hlinks := links_changed C db db' a h
  have hreports := reports_changed C db db' a h
  have hcaseKept : ∀ case, (db.cases.get? case).isSome = true → (db'.cases.get? case).isSome = true := by
    intro case hsome
    obtain ⟨c, hc⟩ := Option.isSome_iff_exists.mp hsome
    obtain ⟨c', hc', _⟩ := hcases.kept case c hc
    rw [hc']
    rfl
  have hreportKept : ∀ pk, (db.reports.get? pk).isSome = true →
      (db'.reports.get? pk).isSome = true := by
    intro pk hsome
    obtain ⟨r, hr⟩ := Option.isSome_iff_exists.mp hsome
    obtain ⟨r', hr', _⟩ := hreports.kept pk r hr
    rw [hr']
    rfl
  refine ⟨fun case pk hlinked => ?_, fun case pk hlinked => ?_, ?_, fun case c' hc' hactive => ?_⟩
  · rcases hlinks.of_linked db db' a case pk hlinked with hold | ⟨operator, hadded⟩
    · exact hcaseKept case (hinv.case_exists case pk hold)
    · cases hadded with
      | opened _ _ _ _ _ _ _ _ _ hexists => exact hexists
      | grouped _ _ _ _ caseRow _ hcase =>
        exact hcaseKept case (by rw [hcase]; rfl)
  · rcases hlinks.of_linked db db' a case pk hlinked with hold | ⟨operator, hadded⟩
    · exact hreportKept pk (hinv.report_exists case pk hold)
    · cases hadded with
      | opened _ _ _ _ _ _ _ _ hreport => exact hreportKept pk hreport
      | grouped _ _ _ row _ hrow => exact hreportKept pk (by rw [hrow]; rfl)
  · intro pk case case' c c' hlinked hlinked' hc hc' hactive hactive'
    rcases hlinks.of_linked db db' a case pk hlinked with hold | ⟨operator, hadded⟩
    · rcases hlinks.of_linked db db' a case' pk hlinked' with hold' | ⟨operator', hadded'⟩
      · obtain ⟨b, hb, hbactive, _⟩ := active_before h case c hc hactive
          (hinv.case_exists case pk hold)
        obtain ⟨b', hb', hbactive', _⟩ := active_before h case' c' hc' hactive'
          (hinv.case_exists case' pk hold')
        exact hinv.once pk case case' b b' hold hold' hb hb' hbactive hbactive'
      · exact (hinv.not_added h case' case pk operator' c hadded' hold hc hactive).elim
    · rcases hlinks.of_linked db db' a case' pk hlinked' with hold' | ⟨operator', hadded'⟩
      · exact (hinv.not_added h case case' pk operator c' hadded hold' hc' hactive').elim
      · exact hadded.case_unique case case' pk operator operator' hadded'
  · rcases hcases.found case c' hc' with ⟨c, hc, hchange⟩ | ⟨_, hnew⟩
    · obtain ⟨hbefore, hclosed⟩ := hchange.active case c c' hactive
      rw [hclosed]
      exact hinv.unclosed case c hc hbefore
    · cases hnew with
      | opened _ _ _ _ _ _ _ _ _ _ _ _ _ _ _ _ _ hunclosed => exact hunclosed

theorem AttachmentInv.reachable (h : db.Reachable C) : AttachmentInv db := by
  refine h.preserves AttachmentInv ?_ attachmentInv_empty
  exact fun u a v hinv _ hstep => hinv.step hstep

/-! ## Two calls that end work -/

/-- The case that is completed. -/
theorem completeCaseWork_case (now case manager : ℕ) (cause result : Text)
    (h : Db.step C db (.completeCaseWork now case manager cause result) = some db') :
    ∃ c, db.cases.get? case = some c ∧ Workable c ∧
      db'.cases.get? case = some { c with completedAt := some now } := by
  cases completeCaseWork_step _ _ _ _ _ _ _ _ (returnedDb_eq_some _ _ h) with
  | noted _ _ _ _ _ _ hnote => cases hnote
  | finishedCase _ _ _ _ _ _ row _ _ hrow hworkable =>
    refine ⟨row, hrow, hworkable, ?_⟩
    obtain ⟨proposals, heq, _⟩ := completeCaseProposal_eq
      { db with cases := db.cases.update case fun c => { c with completedAt := some now } } case now
    rw [heq]
    show (db.cases.update case _).get? case = _
    rw [Table.get?_update_self, hrow]
    rfl

/-- A case that is active after a report is declined has another open report. -/
theorem declineReport_case (now report manager : ℕ) (reason : Text)
    (h : Db.step C db (.declineReport now report manager reason) = some db') (case : ℕ)
    (c' : MaintenanceCase) (hc' : db'.cases.get? case = some c') (hactive : c'.active = true) :
    emptiedCase db report case = false := by
  cases declineReport_step _ _ _ _ _ _ _ (returnedDb_eq_some _ _ h) with
  | noted _ _ _ _ _ _ hnote => cases hnote
  | declined _ _ _ _ _ stored row _ hrow =>
    rw [Table.get?_mapRows] at hc'
    obtain ⟨c, hc, heq⟩ := Option.map_eq_some_iff.mp hc'
    split at heq
    · subst heq
      cases hactive
    · next hkept =>
      subst heq
      rw [hactive, Bool.true_and, emptiedCase_update, Bool.not_eq_true] at hkept
      exact hkept

/-! ## The invariant -/

/-- The call opens a case for a report that is finished. -/
def opensOnFinished (db : Db) : Command → Bool
  | .confirmTriage _ report _ _ _ _ _ _ =>
    finished db report && !db.decisions.any fun d => d.report = report
  | _ => false

/-- Every active case that is not completed has a report that is not finished. -/
def OpenInv (db : Db) : Prop :=
  ∀ case c, db.cases.get? case = some c → c.active = true → c.completedAt = none →
    hasReport db case (fun r => !r.status.terminal) = true

/-- No write takes the completion of a case back. -/
theorem CaseChange.uncompleted (pk : ℕ) (c c' : MaintenanceCase) (h : CaseChange db pk c a c')
    (hopen : c'.completedAt = none) : c.completedAt = none := by
  cases h with
  | completed => cases hopen
  | _ => exact hopen

/-- A status that a report takes when it joins a case is no finished one. -/
theorem groupedStatus_unfinished (db : Db) (case : ℕ) : (groupedStatus db case).terminal = false := by
  unfold groupedStatus
  split
  · rfl
  · split
    · rfl
    · rfl

/-- An open report of a case stays open, unless the case is completed or the report declined. -/
theorem ReportChange.unfinished_kept (pk : ℕ) (r r' : IssueReport) (h : ReportChange db pk r a r')
    (hopen : r.status.terminal = false)
    (hcompleted : ∀ now case manager cause result, OpenIn db case pk r →
      a ≠ .completeCaseWork now case manager cause result)
    (hdeclined : ∀ now manager reason, a ≠ .declineReport now pk manager reason) :
    r'.status.terminal = false := by
  cases h with
  | kept => exact hopen
  | reviewed => rfl
  | grouped case => exact groupedStatus_unfinished db case
  | started => rfl
  | startedInView => rfl
  | completed now case manager cause result hin =>
    exact absurd rfl (hcompleted now case manager cause result hin)
  | expired _ _ hdone =>
    rw [hdone] at hopen
    cases hopen
  | declined now manager reason => exact absurd rfl (hdeclined now manager reason)
  | asked => rfl
  | replied => rfl
  | rated _ _ _ _ _ _ _ hdone =>
    rw [hdone] at hopen
    cases hopen
  | proposed => rfl

/-- **An open case that was there keeps an open report.** -/
theorem open_report_kept (hatt : AttachmentInv db) (h : Db.step C db a = some db') (case : ℕ)
    (c c' : MaintenanceCase) (hc : db.cases.get? case = some c) (hactive : c.active = true)
    (hc' : db'.cases.get? case = some c') (hactive' : c'.active = true)
    (hopen' : c'.completedAt = none)
    (hreport : hasReport db case (fun r => !r.status.terminal) = true) :
    hasReport db' case (fun r => !r.status.terminal) = true := by
  have hlinks := links_changed C db db' a h
  have hreports := reports_changed C db db' a h
  obtain ⟨pk, r, hr, hlinked, hopen⟩ := (hasReport_iff db case _).mp hreport
  rw [Bool.not_eq_true'] at hopen
  by_cases hdeclined : ∃ now manager reason, a = .declineReport now pk manager reason
  · -- The decline has closed the case, or another report is open.
    obtain ⟨now, manager, reason, rfl⟩ := hdeclined
    have hother := declineReport_case now pk manager reason h case c' hc' hactive'
    rw [emptiedCase, hlinked, Bool.true_and, decide_eq_false_iff_not, Bool.not_eq_false,
      Table.any_eq_true] at hother
    obtain ⟨link, l, hl, hfields⟩ := hother
    simp only [Bool.and_eq_true, decide_eq_true_eq] at hfields
    obtain ⟨⟨hof, hne⟩, hany⟩ := hfields
    obtain ⟨q, hq, hqopen⟩ := (Option.any_eq_true _ _).mp hany
    obtain ⟨q', hq', hchange⟩ := hreports.kept l.report q hq
    have hstays : q'.status.terminal = false := by
      refine hchange.unfinished_kept l.report q q' (by simpa using hqopen)
        (fun _ _ _ _ _ _ heq => by cases heq) fun _ _ _ heq => ?_
      cases heq
      exact hne rfl
    have hlinked' := hlinks.linked db db' _ case l.report
      ((linkedTo_iff db case l.report).mpr ⟨link, l, hl, hof, rfl⟩)
    exact (hasReport_iff db' case _).mpr ⟨l.report, q', hq', hlinked', by rw [hstays]; rfl⟩
  · obtain ⟨r', hr', hchange⟩ := hreports.kept pk r hr
    have hstays : r'.status.terminal = false := by
      refine hchange.unfinished_kept pk r r' hopen ?_ ?_
      · rintro now other manager cause result hin rfl
        obtain ⟨b, hb, hworkable⟩ := hin.workable
        obtain rfl := hatt.once pk case other c b hlinked hin.linked hc hb hactive hworkable.active
        obtain ⟨_, _, _, hdone⟩ := completeCaseWork_case now case manager cause result h
        cases hc'.symm.trans hdone
        cases hopen'
      · exact fun now manager reason heq => hdeclined ⟨now, manager, reason, heq⟩
    have hlinked' := hlinks.linked db db' a case pk hlinked
    exact (hasReport_iff db' case _).mpr ⟨pk, r', hr', hlinked', by rw [hstays]; rfl⟩

theorem OpenInv.step (hinv : OpenInv db) (hatt : AttachmentInv db)
    (hok : opensOnFinished db a = false) (h : Db.step C db a = some db') : OpenInv db' := by
  intro case c' hc' hactive' hopen'
  rcases (cases_stepped C db db' a h).cases.found case c' hc' with ⟨c, hc, hchange⟩ | ⟨hnext, hnew⟩
  · have hactive := (hchange.active case c c' hactive').1
    have hreport := hinv case c hc hactive (hchange.uncompleted case c c' hopen')
    exact open_report_kept hatt h case c c' hc hactive hc' hactive' hopen' hreport
  · cases hnew with
    | opened now report operator category urgency location queue minutes _ row hrow hundecided _ _
        hlinked =>
      obtain ⟨row', hrow', hchange⟩ := (reports_changed C db db' _ h).kept report row hrow
      cases hchange with
      | kept =>
        have hnone : db.decisions.any (fun d => d.report = report) = false := by
          rw [Table.any_eq_false]
          exact fun pk d hd => decide_eq_false (hundecided pk d hd)
        rw [opensOnFinished, hnone, Bool.not_false, Bool.and_true, finished, hrow,
          Option.any_some] at hok
        rw [hnext]
        exact (hasReport_iff db' _ _).mpr ⟨report, row, hrow', hlinked, by rw [hok]; rfl⟩

/-- **Open cases have open work**, along every run in which no case is opened for a finished
report: every active case that is not completed is linked to a report that is not declined,
completed or closed. -/
theorem open_cases_have_open_work
    (h : Reaches (Db.step C) (fun db a => opensOnFinished db a = false) Db.empty db) (case : ℕ)
    (c : MaintenanceCase) (hc : db.cases.get? case = some c) (hactive : c.active = true)
    (hopen : c.completedAt = none) :
    ∃ pk r, linkedTo db case pk = true ∧ db.reports.get? pk = some r ∧
      r.status.terminal = false := by
  have hboth : AttachmentInv db ∧ OpenInv db := by
    refine h.preserves (fun u => AttachmentInv u ∧ OpenInv u) ?_ ?_
    · rintro u a v ⟨hatt, hinv⟩ hok hstep
      exact ⟨hatt.step hstep, hinv.step hatt hok hstep⟩
    · exact ⟨attachmentInv_empty, fun _ _ hrow => by cases hrow⟩
  obtain ⟨pk, r, hr, hlinked, hterminal⟩ := (hasReport_iff db case _).mp
    (hboth.2 case c hc hactive hopen)
  exact ⟨pk, r, hlinked, hr, by simpa using hterminal⟩

/-- The open case of the sample report. -/
theorem open_cases_have_open_work_sample : ∃ (db : Db) (c : MaintenanceCase),
    Reaches (Db.step sampleConfig) (fun db a => opensOnFinished db a = false) Db.empty db ∧
    db.cases.get? 1 = some c ∧ c.active = true ∧ c.completedAt = none ∧
    ∃ pk r, linkedTo db 1 pk = true ∧ db.reports.get? pk = some r ∧ r.status.terminal = false := by
  obtain ⟨db, hreach, hcase⟩ := exists_of_run
    (guarded (Db.step sampleConfig) fun db a => opensOnFinished db a = false) Db.empty
    (fun db => (db.cases.get? 1).map (fun c => (c.active, c.completedAt)) = some (true, none))
    (openedCase false) (by decide +kernel)
  have hrun := hreach.of_guarded
  obtain ⟨c, hc, hpair⟩ := Option.map_eq_some_iff.mp hcase
  obtain ⟨hactive, hopen⟩ := Prod.mk.inj hpair
  exact ⟨db, c, hrun, hc, hactive, hopen, open_cases_have_open_work hrun 1 c hc hactive hopen⟩

/-- A report is declined before triage, and a case is opened for it. -/
def declinedThenOpened : List Command :=
  [.createBuilding, .createMembership 7 1, .createLocation ⟨1, none, true⟩, .submitReport 8 1 false,
    .declineReport 900 1 7 "Duplicate".toList,
    .confirmTriage 1000 1 7 (.str "Lift".toList) (.str "LOW".toList) 1 (.str "General".toList)
      (.int 60)]

/-- The case that is opened for a declined report is active without work. -/
theorem open_case_without_work : ∃ db : Db, db.Reachable sampleConfig ∧
    ((db.cases.get? 1).map (fun c => (c.active, c.completedAt)) = some (true, none) ∧
      hasReport db 1 (fun r => !r.status.terminal) = false) :=
  exists_of_run (Db.step sampleConfig) Db.empty
    (fun db => (db.cases.get? 1).map (fun c => (c.active, c.completedAt)) = some (true, none) ∧
      hasReport db 1 (fun r => !r.status.terminal) = false) declinedThenOpened (by decide +kernel)

end LamTo.Analysis
