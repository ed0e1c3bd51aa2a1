import LamTo.Analysis.OpenCases

/-!
# Closed cases and their reports

The work on a case ends with `complete_case_work`; the case is closed by the first rating after
which all its reports are finished, or by `close_expired_completed_cases`. A completed report is
finished for the rating, so that the first resident who rates closes the case over the reports of
the others; the closer then skips the case. Three calls leave a completed case with a report that
nothing closes any more, and `leavesOpenEnd` names them.

* **Calls that end reports** (`completeCaseWork_report`, `closeExpired_report`,
  `rateCompletedCase_report`): what each does to the reports of its case.
* **The invariant** (`ClosedInv.step`): the reports of a completed case are finished, and those of
  a closed one are not `COMPLETED`.

SOURCE: src/lamto/maintenance/cases.py:119-162, 192-241, src/lamto/maintenance/ratings.py:61-68,
src/lamto/maintenance/triage.py:126-172
-/

set_option autoImplicit false

namespace LamTo.Analysis

open LamTo.Library LamTo.Model

variable {C : EvidenceConfig} {db db' : Db} {a : Command}

/-! ## Calls that end reports -/


/-- Completing a case finishes its reports. -/
theorem completeCaseWork_report (now case manager : ℕ) (cause result : Text)
    (h : Db.step C db (.completeCaseWork now case manager cause result) = some db') (pk : ℕ)
    (r' : IssueReport) (hlinked : linkedTo db case pk = true) (hr' : db'.reports.get? pk = some r') :
    r'.status.terminal = true := by
  cases completeCaseWork_step _ _ _ _ _ _ _ _ (returnedDb_eq_some _ _ h) with
  | noted _ _ _ _ _ _ hnote => cases hnote
  | finishedCase =>
    obtain ⟨proposals, heq, _⟩ := completeCaseProposal_eq
      { db with cases := db.cases.update case fun c => { c with completedAt := some now } } case now
    rw [heq] at hr'
    have hrow : (db.reports.mapRows fun key r => if linkedTo db case key && !r.status.terminal then
        { r with status := .completed } else r).get? pk = some r' := hr'
    rw [Table.get?_mapRows, hlinked] at hrow
    obtain ⟨r, _, rfl⟩ := Option.map_eq_some_iff.mp hrow
    split
    · rfl
    · next hterminal => simpa using hterminal

/-- The closer closes the completed reports of the cases it closes, and no other case. -/
theorem closeExpired_report (now : ℕ)
    (h : Db.step C db (.closeExpiredCompletedCases now) = some db') (pk : ℕ) (r' : IssueReport)
    (hr' : db'.reports.get? pk = some r') :
    ∃ r, db.reports.get? pk = some r ∧
      r' = if inExpiredCase db now pk && r.status = .completed then { r with status := .closed }
        else r := by
  obtain ⟨cases, reports, proposals, heq, _, hreports, _⟩ := closeExpiredCompletedCases_eq db now
  rw [Db.step, heq] at h
  cases h
  rw [hreports] at hr'
  obtain ⟨r, hr, hrow⟩ := Option.map_eq_some_iff.mp hr'
  exact ⟨r, hr, hrow.symm⟩

theorem closeExpired_case (now : ℕ)
    (h : Db.step C db (.closeExpiredCompletedCases now) = some db') (case : ℕ)
    (c' : MaintenanceCase) (hc' : db'.cases.get? case = some c') :
    ∃ c, db.cases.get? case = some c ∧
      c' = if expiredCase now c then { c with active := false, closedAt := some now } else c := by
  obtain ⟨cases, reports, proposals, heq, hcases, _⟩ := closeExpiredCompletedCases_eq db now
  rw [Db.step, heq] at h
  cases h
  rw [hcases] at hc'
  obtain ⟨c, hc, hrow⟩ := Option.map_eq_some_iff.mp hc'
  exact ⟨c, hc, hrow.symm⟩

/-- A report of an expired case. -/
theorem inExpiredCase_of_linked (now case pk : ℕ) (c : MaintenanceCase)
    (hc : db.cases.get? case = some c) (hexpired : expiredCase now c = true)
    (hlinked : linkedTo db case pk = true) : inExpiredCase db now pk = true := by
  refine List.any_eq_true.mpr ⟨(case, c), (Table.get?_eq_some _ _ _).mp hc, ?_⟩
  rw [hexpired, hlinked]
  rfl

/-- A resident's rating closes his completed reports of the case. -/
theorem rateCompletedCase_report (now resident case : ℕ) (satisfied comment : PyValue)
    (h : Db.step C db (.rateCompletedCase now resident case satisfied comment) = some db') (pk : ℕ)
    (r' : IssueReport) (hlinked : linkedTo db case pk = true) (hr' : db'.reports.get? pk = some r') :
    ∃ r, db.reports.get? pk = some r ∧
      r' = if r.reporter = resident && r.status = .completed then { r with status := .closed }
        else r := by
  obtain ⟨key, hcall⟩ := returned_eq_some _ _ h
  cases rateCompletedCase_step _ _ _ _ _ _ _ _ key hcall with
  | noted _ _ _ _ _ _ hnote => cases hnote
  | rated _ _ _ _ _ _ _ ratings audit =>
    have hreports : (closeRatedCase (closeRatedReports { db with ratings, audit } resident case)
        now case).reports =
        (closeRatedReports { db with ratings, audit } resident case).reports := by
      unfold closeRatedCase
      split
      · rfl
      · rfl
    rw [hreports] at hr'
    have hrow : (db.reports.mapRows fun key r => if linkedTo db case key && r.reporter = resident &&
        r.status = .completed then { r with status := .closed } else r).get? pk = some r' := hr'
    rw [Table.get?_mapRows, hlinked] at hrow
    obtain ⟨r, hr, rfl⟩ := Option.map_eq_some_iff.mp hrow
    exact ⟨r, hr, by rw [Bool.true_and]⟩

/-- The report that is declined was open. -/
theorem declineReport_report (now report manager : ℕ) (reason : Text)
    (h : Db.step C db (.declineReport now report manager reason) = some db') :
    ∃ r, db.reports.get? report = some r ∧ r.status.terminal = false := by
  cases declineReport_step _ _ _ _ _ _ _ (returnedDb_eq_some _ _ h) with
  | noted _ _ _ _ _ _ hnote => cases hnote
  | declined _ _ _ _ _ _ row _ hrow hopen => exact ⟨row, hrow, hopen⟩

/-! ## The invariant -/

/-- The report is linked to a completed case. -/
def inCompletedCase (db : Db) (report : ℕ) : Bool :=
  db.caseReports.any fun l => l.report = report && (db.cases.get? l.case).any (·.completedAt.isSome)

/-- The call leaves a completed case with a report that is open, or closes it over one that is
completed: a report is put into a completed case or taken out of one, the reporter of such a
report answers a question, or a resident rates a case with completed reports of others. -/
def leavesOpenEnd (db : Db) : Command → Bool
  | .groupReport case report _ => !attached db report &&
    ((db.cases.get? case).any (·.completedAt.isSome) || inCompletedCase db report)
  | .replyInformation _ _ report _ => inCompletedCase db report
  | .rateCompletedCase _ resident case _ _ =>
    hasReport db case fun r => r.status = .completed && r.reporter ≠ resident
  | _ => false

/-- The reports of completed cases are finished, and those of closed ones closed or declined. -/
structure ClosedInv (db : Db) : Prop where
  finished : ∀ case c pk r, db.cases.get? case = some c → c.completedAt ≠ none →
    linkedTo db case pk = true → db.reports.get? pk = some r → r.status.terminal = true
  closed : ∀ case c pk r, db.cases.get? case = some c → c.completedAt ≠ none → c.closedAt ≠ none →
    linkedTo db case pk = true → db.reports.get? pk = some r → r.status ≠ .completed

theorem closedInv_empty : ClosedInv Db.empty where
  finished _ _ _ _ h := by cases h
  closed _ _ _ _ h := by cases h

theorem inCompletedCase_of_linked (case pk : ℕ) (c : MaintenanceCase)
    (hc : db.cases.get? case = some c) (hcompleted : c.completedAt ≠ none)
    (hlinked : linkedTo db case pk = true) : inCompletedCase db pk = true := by
  obtain ⟨link, l, hl, rfl, hreport⟩ := (linkedTo_iff db case pk).mp hlinked
  refine (Table.any_eq_true _ _).mpr ⟨link, l, hl, ?_⟩
  rw [decide_eq_true hreport, hc, Bool.true_and, Option.any_some]
  exact Option.isSome_iff_ne_none.mpr hcompleted

/-- A link of a completed case was there, and so was the case. -/
theorem linked_before (hok : leavesOpenEnd db a = false) (h : Db.step C db a = some db')
    (case pk : ℕ) (c' : MaintenanceCase) (hc' : db'.cases.get? case = some c')
    (hcompleted' : c'.completedAt ≠ none) (hlinked' : linkedTo db' case pk = true) :
    ∃ c, db.cases.get? case = some c ∧ CaseChange db case c a c' ∧ linkedTo db case pk = true := by
  rcases (cases_stepped C db db' a h).cases.found case c' hc' with ⟨c, hc, hchange⟩ | ⟨_, hnew⟩
  · refine ⟨c, hc, hchange, ?_⟩
    rcases (links_changed C db db' a h).of_linked db db' a case pk hlinked' with hold | ⟨_, hadded⟩
    · exact hold
    · cases hadded with
      | opened =>
        rw [Table.get?_next] at hc
        cases hc
      | grouped _ _ _ _ _ _ _ _ hdetached =>
        cases hchange with
        | kept =>
          rw [leavesOpenEnd, hdetached, hc, Option.any_some,
            Option.isSome_iff_ne_none.mpr hcompleted'] at hok
          cases hok
  · cases hnew with
    | opened _ _ _ _ _ _ _ _ _ _ _ _ _ _ _ hfresh => exact absurd hfresh.uncompleted hcompleted'

/-- A finished report of a completed case stays finished, and does not become `COMPLETED`. -/
theorem ReportChange.finished_kept (pk : ℕ) (r r' : IssueReport) (h : ReportChange db pk r a r')
    (hok : leavesOpenEnd db a = false) (hin : inCompletedCase db pk = true)
    (hfinished : r.status.terminal = true) :
    r'.status.terminal = true ∧ (r.status ≠ .completed → r'.status ≠ .completed) := by
  have hopen : ∀ case, ¬ OpenIn db case pk r := by
    intro case hin
    rw [hin.unfinished] at hfinished
    cases hfinished
  cases h with
  | kept => exact ⟨hfinished, id⟩
  | reviewed hsubmitted =>
    rw [hsubmitted] at hfinished
    cases hfinished
  | grouped _ _ hdetached =>
    rw [leavesOpenEnd, hdetached, hin, Bool.or_true] at hok
    cases hok
  | started _ case _ hin => exact absurd hin (hopen case)
  | startedInView _ _ _ case _ hin => exact absurd hin (hopen case)
  | completed _ case _ _ _ hin => exact absurd hin (hopen case)
  | expired => exact ⟨rfl, fun _ heq => by cases heq⟩
  | declined => exact ⟨rfl, fun _ heq => by cases heq⟩
  | asked _ _ hunfinished =>
    rw [hunfinished] at hfinished
    cases hfinished
  | replied =>
    rw [leavesOpenEnd, hin] at hok
    cases hok
  | rated => exact ⟨rfl, fun _ heq => by cases heq⟩
  | proposed _ case _ hin => exact absurd hin (hopen case)

/-- The call that completes a case. -/
theorem CaseChange.completing (case : ℕ) (c c' : MaintenanceCase) (h : CaseChange db case c a c')
    (hopen : c.completedAt = none) (hcompleted : c'.completedAt ≠ none) :
    c.active = true ∧ c'.closedAt = c.closedAt ∧
      ∃ now manager cause result, a = .completeCaseWork now case manager cause result := by
  cases h with
  | completed now manager cause result hworkable =>
    exact ⟨hworkable.active, rfl, now, manager, cause, result, rfl⟩
  | _ => exact absurd hopen hcompleted

/-- **Closing a completed case closes its completed reports.** -/
theorem ClosedInv.closing (hinv : ClosedInv db) (hok : leavesOpenEnd db a = false)
    (h : Db.step C db a = some db') (case pk : ℕ) (c c' : MaintenanceCase) (r' : IssueReport)
    (hc : db.cases.get? case = some c) (hcompleted : c.completedAt ≠ none)
    (hunclosed : c.closedAt = none) (hchange : CaseChange db case c a c')
    (hc' : db'.cases.get? case = some c') (hclosed : c'.closedAt ≠ none)
    (hlinked : linkedTo db case pk = true) (hr' : db'.reports.get? pk = some r') :
    r'.status ≠ .completed := by
  cases hchange with
  | kept => exact absurd hunclosed hclosed
  | started => exact absurd hunclosed hclosed
  | startedInView => exact absurd hunclosed hclosed
  | completed => exact absurd hunclosed hclosed
  | expired now =>
    obtain ⟨b, hb, hrow⟩ := closeExpired_case now h case _ hc'
    cases hc.symm.trans hb
    have hexpired : expiredCase now c = true := by
      by_contra hnot
      rw [if_neg hnot] at hrow
      rw [hrow] at hclosed
      exact hclosed hunclosed
    obtain ⟨r, _, rfl⟩ := closeExpired_report now h pk r' hr'
    rw [inExpiredCase_of_linked now case pk c hc hexpired hlinked, Bool.true_and]
    split
    · exact fun heq => by cases heq
    · next hother => exact fun heq => hother (decide_eq_true heq)
  | rated now resident satisfied comment =>
    obtain ⟨r, hr, rfl⟩ := rateCompletedCase_report now resident case satisfied comment h pk r'
      hlinked hr'
    split
    · exact fun heq => by cases heq
    · next hother =>
      -- A completed report that is not the resident's is what the condition excludes.
      intro heq
      have hreport := (hasReport_iff db case
        (fun r => r.status = .completed && r.reporter ≠ resident)).mpr ⟨pk, r, hr, hlinked, by
          rw [heq]
          simpa [heq] using hother⟩
      rw [leavesOpenEnd, hreport] at hok
      cases hok
  | declined now report manager reason hemptied =>
    obtain ⟨r, hr, hopen⟩ := declineReport_report now report manager reason h
    unfold emptiedCase at hemptied
    rw [Bool.and_eq_true] at hemptied
    rw [hinv.finished case c report r hc hcompleted hemptied.1 hr] at hopen
    cases hopen

theorem ClosedInv.step (hinv : ClosedInv db) (hatt : AttachmentInv db)
    (hok : leavesOpenEnd db a = false) (h : Db.step C db a = some db') : ClosedInv db' := by
  -- What is said of a link of a completed case is said of the rows of before.
  have hbefore : ∀ case c' pk r', db'.cases.get? case = some c' → c'.completedAt ≠ none →
      linkedTo db' case pk = true → db'.reports.get? pk = some r' →
      ∃ c r, db.cases.get? case = some c ∧ CaseChange db case c a c' ∧
        linkedTo db case pk = true ∧ db.reports.get? pk = some r ∧ ReportChange db pk r a r' := by
    intro case c' pk r' hc' hcompleted' hlinked' hr'
    obtain ⟨c, hc, hchange, hlinked⟩ := linked_before hok h case pk c' hc' hcompleted' hlinked'
    rcases (reports_changed C db db' a h).found pk r' hr' with ⟨r, hr, hreport⟩ | ⟨hnext, _⟩
    · exact ⟨c, r, hc, hchange, hlinked, hr, hreport⟩
    · have hexists := hatt.report_exists case pk hlinked
      rw [hnext, Table.get?_next] at hexists
      cases hexists
  constructor
  · intro case c' pk r' hc' hcompleted' hlinked' hr'
    obtain ⟨c, r, hc, hchange, hlinked, hr, hreport⟩ := hbefore case c' pk r' hc' hcompleted'
      hlinked' hr'
    by_cases hcompleted : c.completedAt = none
    · obtain ⟨_, _, now, manager, cause, result, rfl⟩ := hchange.completing case c c' hcompleted
        hcompleted'
      exact completeCaseWork_report now case manager cause result h pk r' hlinked hr'
    · have hin := inCompletedCase_of_linked case pk c hc hcompleted hlinked
      have hfinished := hinv.finished case c pk r hc hcompleted hlinked hr
      exact (hreport.finished_kept pk r r' hok hin hfinished).1
  · intro case c' pk r' hc' hcompleted' hclosed' hlinked' hr'
    obtain ⟨c, r, hc, hchange, hlinked, hr, hreport⟩ := hbefore case c' pk r' hc' hcompleted'
      hlinked' hr'
    by_cases hcompleted : c.completedAt = none
    · obtain ⟨hactive, heq, _⟩ := hchange.completing case c c' hcompleted hcompleted'
      rw [heq] at hclosed'
      exact absurd (hatt.unclosed case c hc hactive) hclosed'
    · by_cases hclosed : c.closedAt = none
      · exact hinv.closing hok h case pk c c' r' hc hcompleted hclosed hchange hc' hclosed' hlinked
          hr'
      · have hin := inCompletedCase_of_linked case pk c hc hcompleted hlinked
        have hfinished := hinv.finished case c pk r hc hcompleted hlinked hr
        exact (hreport.finished_kept pk r r' hok hin hfinished).2
          (hinv.closed case c pk r hc hcompleted hclosed hlinked hr)

/-! ## Runs -/

/-- After the closer has run, a case whose rating window is over is closed. -/
theorem closeExpired_closed (now : ℕ)
    (h : Db.step C db (.closeExpiredCompletedCases now) = some db') (case completedAt : ℕ)
    (c' : MaintenanceCase) (hc' : db'.cases.get? case = some c')
    (hcompleted : c'.completedAt = some completedAt) (hover : completedAt + ratingWindow ≤ now) :
    c'.closedAt ≠ none := by
  obtain ⟨c, _, rfl⟩ := closeExpired_case now h case c' hc'
  split at hcompleted
  · next hexpired =>
    rw [if_pos hexpired]
    exact Option.some_ne_none now
  · next hkept =>
    rw [if_neg hkept]
    intro hunclosed
    apply hkept
    rw [expiredCase, hcompleted, hunclosed, Option.any_some, decide_eq_true hover]
    rfl

/-- A finished report that is not `COMPLETED` is closed or declined. -/
theorem closed_or_declined (status : ReportStatus) (hfinished : status.terminal = true)
    (hcompleted : status ≠ .completed) : status = .closed ∨ status = .declined := by
  cases status with
  | closed => exact .inl rfl
  | declined => exact .inr rfl
  | completed => exact absurd rfl hcompleted
  | _ => cases hfinished

/-- **Case closing closes its reports**, along every run without a call that leaves an open end:
a report of a completed case that no active uncompleted case has is finished, no report of a
completed and closed case is `COMPLETED`, and after the closer has run at `now` every report of
every case that was completed 14 days before `now` is closed or declined. -/
theorem case_closing_closes_reports
    (h : Reaches (Db.step C) (fun db a => leavesOpenEnd db a = false) Db.empty db) :
    (∀ case c pk r, db.cases.get? case = some c → c.completedAt ≠ none →
      linkedTo db case pk = true → db.reports.get? pk = some r →
      (∀ other b, linkedTo db other pk = true → db.cases.get? other = some b →
        ¬ (b.active = true ∧ b.completedAt = none)) → r.status.terminal = true) ∧
    (∀ case c pk r, db.cases.get? case = some c → c.completedAt ≠ none → c.closedAt ≠ none →
      linkedTo db case pk = true → db.reports.get? pk = some r → r.status ≠ .completed) ∧
    ∀ now db', Db.step C db (.closeExpiredCompletedCases now) = some db' →
      ∀ case c completedAt pk r, db'.cases.get? case = some c → c.completedAt = some completedAt →
        completedAt + ratingWindow ≤ now → linkedTo db' case pk = true →
        db'.reports.get? pk = some r → r.status = .closed ∨ r.status = .declined := by
  have hboth : AttachmentInv db ∧ ClosedInv db := by
    refine h.preserves (fun u => AttachmentInv u ∧ ClosedInv u) ?_ ?_
    · rintro u a v ⟨hatt, hinv⟩ hok hstep
      exact ⟨hatt.step hstep, hinv.step hatt hok hstep⟩
    · exact ⟨attachmentInv_empty, closedInv_empty⟩
  obtain ⟨hatt, hinv⟩ := hboth
  refine ⟨?_, hinv.closed, ?_⟩
  · exact fun case c pk r hc hcompleted hlinked hr _ =>
      hinv.finished case c pk r hc hcompleted hlinked hr
  · intro now db' hstep case c completedAt pk r hc hcompleted hover hlinked hr
    have hafter := hinv.step hatt (a := .closeExpiredCompletedCases now) rfl hstep
    have hsome : c.completedAt ≠ none := by
      rw [hcompleted]
      exact Option.some_ne_none completedAt
    have hclosed := closeExpired_closed now hstep case completedAt c hc hcompleted hover
    exact closed_or_declined r.status (hafter.finished case c pk r hc hsome hlinked hr)
      (hafter.closed case c pk r hc hsome hclosed hlinked hr)

/-- A case with one reporter is started, completed and closed by the closer. -/
theorem case_closing_closes_reports_sample : ∃ db : Db,
    Reaches (Db.step sampleConfig) (fun db a => leavesOpenEnd db a = false) Db.empty db ∧
    ∃ db' c, Db.step sampleConfig db (.closeExpiredCompletedCases (3000 + ratingWindow)) = some db' ∧
      db'.cases.get? 1 = some c ∧ c.completedAt = some 3000 ∧
      ∃ r, db'.reports.get? 1 = some r ∧ (r.status = .closed ∨ r.status = .declined) := by
  obtain ⟨db, hreach, hclosed⟩ := exists_of_run
    (guarded (Db.step sampleConfig) fun db a => leavesOpenEnd db a = false) Db.empty
    (fun db => (Db.step sampleConfig db (.closeExpiredCompletedCases (3000 + ratingWindow))).any
      (fun db' => ((db'.cases.get? 1).map (·.completedAt) = some (some 3000) ∧
        linkedTo db' 1 1 = true) ∧ (db'.reports.get? 1).isSome = true) = true)
    (openedCase false ++ [.startCaseWork 2000 1 7,
      .completeCaseWork 3000 1 7 "Worn cable".toList "Replaced".toList]) (by decide +kernel)
  have hrun := hreach.of_guarded
  obtain ⟨db', hstep, hrows⟩ := (Option.any_eq_true _ _).mp hclosed
  obtain ⟨⟨hcase, hlinked⟩, hreport⟩ := of_decide_eq_true hrows
  obtain ⟨c, hc, hcompleted⟩ := Option.map_eq_some_iff.mp hcase
  obtain ⟨r, hr⟩ := Option.isSome_iff_exists.mp hreport
  exact ⟨db, hrun, db', c, hstep, hc, hcompleted, r, hr,
    (case_closing_closes_reports hrun).2.2 _ db' hstep 1 c 3000 1 r hc hcompleted le_rfl hlinked hr⟩

/-- Two residents report one defect, the work is completed, and one of them rates it. -/
def ratedByOne : List Command :=
  openedCase false ++ [.createOccupancy 9 1, .submitReport 9 1 false, .groupReport 1 2 7,
    .startCaseWork 2000 1 7, .completeCaseWork 3000 1 7 "Worn cable".toList "Replaced".toList,
    .rateCompletedCase 4000 8 1 (.bool true) .none]

/-- The rating closes the case over the report of the other resident, which is still `COMPLETED`
when the rating window is over and the closer has run. -/
theorem closed_case_with_completed_report : ∃ db db' : Db, db.Reachable sampleConfig ∧
    Db.step sampleConfig db (.closeExpiredCompletedCases (3000 + ratingWindow)) = some db' ∧
    (db.cases.get? 1).map (fun c => (c.completedAt, c.closedAt)) = some (some 3000, some 4000) ∧
    linkedTo db 1 2 = true ∧ reportStatus db 2 = some .completed ∧
    linkedTo db' 1 2 = true ∧ reportStatus db' 2 = some .completed := by
  obtain ⟨db, hreach, hcase, hlinked, hstatus, hafter⟩ := exists_of_run (Db.step sampleConfig) Db.empty
    (fun db => (db.cases.get? 1).map (fun c => (c.completedAt, c.closedAt)) =
        some (some 3000, some 4000) ∧
      linkedTo db 1 2 = true ∧ reportStatus db 2 = some .completed ∧
      (Db.step sampleConfig db (.closeExpiredCompletedCases (3000 + ratingWindow))).any
        (fun db' => linkedTo db' 1 2 = true ∧ reportStatus db' 2 = some .completed) = true)
    ratedByOne (by decide +kernel)
  obtain ⟨db', hstep, hrows⟩ := (Option.any_eq_true _ _).mp hafter
  obtain ⟨hlinked', hstatus'⟩ := of_decide_eq_true hrows
  exact ⟨db, db', hreach, hstep, hcase, hlinked, hstatus, hlinked', hstatus'⟩

end LamTo.Analysis
