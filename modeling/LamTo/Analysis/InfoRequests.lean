import LamTo.Analysis.ReportSteps
import LamTo.Analysis.TerminalReports

/-!
# Reports that wait for information

`request_information` opens a request and marks the report `NEEDS_INFO`; `reply_information`
resolves it and puts the report back in review. The services that move all reports of a case, and
`group_report` and `decline_report`, write the status without a look at the request.
`overwritesQuestion` names the calls that meet a report which waits.

* **Requests** (`questions_stepped`): a step asks, answers, or leaves every request as it is.
* **The invariant** (`QuestionInv.step`): a report waits if and only if it has an open request, and
  it has one at most.

SOURCE: src/lamto/maintenance/cases.py:58-75, 119-147, 192-275, src/lamto/maintenance/models.py:249-266,
src/lamto/finance/proposals.py:228-230
-/

set_option autoImplicit false

namespace LamTo.Analysis

open LamTo.Library LamTo.Model

variable {C : EvidenceConfig} {db db' : Db} {a : Command}

/-! ## Requests -/

/-- The report has an open request. -/
def openQuestion (db : Db) (report : ℕ) : Bool :=
  db.infoRequests.any fun i => i.report = report && i.resolvedAt = none

theorem openQuestion_iff (db : Db) (report : ℕ) :
    openQuestion db report = true ↔
      ∃ pk i, db.infoRequests.get? pk = some i ∧ i.report = report ∧ i.resolvedAt = none := by
  simp [openQuestion, Table.any_eq_true]

/-- The call asks a resident or answers for one. -/
def asksOrAnswers : Command → Bool
  | .requestInformation .. | .replyInformation .. => true
  | _ => false

/-- **What a step does to the requests**, and what comes with it on the side of the report. -/
inductive QuestionStep (db db' : Db) : Command → Prop where
  | unasked (a : Command) (other : asksOrAnswers a = false)
      (same : ∀ pk, db'.infoRequests.get? pk = db.infoRequests.get? pk) : QuestionStep db db' a
  | asked (report manager : ℕ) (message : Text) (row : IssueReport) (info : InfoRequest)
      (row_get : db.reports.get? report = some row) (report_eq : info.report = report)
      (unresolved : info.resolvedAt = none)
      (noneOpen : ∀ pk i, db.infoRequests.get? pk = some i → i.report = report →
        i.resolvedAt ≠ none)
      (requests : db'.infoRequests = db.infoRequests.insert info)
      (reports : db'.reports = db.reports.update report fun r => { r with status := .needsInfo }) :
      QuestionStep db db' (.requestInformation report manager message)
  | replied (now resident report : ℕ) (text stored : Text) (key : ℕ) (info : InfoRequest)
      (info_get : db.infoRequests.get? key = some info) (report_eq : info.report = report)
      (unresolved : info.resolvedAt = none)
      (requests : db'.infoRequests = db.infoRequests.update key fun i =>
        { i with replyText := stored, resolvedAt := some now })
      (reports : db'.reports = db.reports.update report fun r => { r with status := .inReview }) :
      QuestionStep db db' (.replyInformation now resident report text)

/-- A service that neither asks nor answers leaves the requests. -/
theorem WorkStep.infoRequests_kept (db db' : Db) (a : Command) (h : WorkStep db a db')
    (hother : asksOrAnswers a = false) : db'.infoRequests = db.infoRequests := by
  induction h with
  | asked => cases hother
  | replied => cases hother
  | finishedCase db now case =>
    obtain ⟨proposals, heq, _⟩ := completeCaseProposal_eq
      { db with cases := db.cases.update case fun c => { c with completedAt := some now } } case now
    rw [heq]
    rfl
  | expired db now =>
    obtain ⟨cases, reports, proposals, heq, _⟩ := closeExpiredCompletedCases_eq db now
    rw [heq]
  | rated db now resident case =>
    unfold closeRatedCase
    split
    · rfl
    · rfl
  | decidedOnly _ _ _ _ _ _ _ _ _ _ _ ih => exact ih rfl
  | decidedAndStarted _ _ _ _ _ _ _ _ _ _ _ _ _ ih ih' => exact (ih' rfl).trans (ih rfl)
  | _ => rfl

theorem infoRequests_kept (h : Db.step C db a = some db') (hother : asksOrAnswers a = false)
    (pk : ℕ) : db'.infoRequests.get? pk = db.infoRequests.get? pk := by
  cases service_effect C db db' a h with
  | setup _ hsetup => exact Table.get?_congr _ _ hsetup.infoRequests pk
  | work _ hwork => rw [hwork.infoRequests_kept db db' a hother]
  | publish creator args p => rw [p.result]
  | settle now member transfer eventId s => rw [s.result]
  | openFund building fund funds _ result => rw [result]
  | record now entryType amountVnd evidence recorder fundEntryId aware r => rw [r.result]
  | verify now verifier v => rw [v.result]

theorem questions_stepped (h : Db.step C db a = some db') : QuestionStep db db' a := by
  cases a with
  | requestInformation report manager message =>
    obtain ⟨key, hcall⟩ := returned_eq_some _ _ h
    cases requestInformation_step _ _ _ _ _ _ key hcall with
    | noted _ _ _ _ _ _ hnote => cases hnote
    | asked _ _ _ _ row info _ hrow _ hreport hunresolved hnone =>
      exact .asked report manager message row info hrow hreport hunresolved hnone rfl rfl
  | replyInformation now resident report text =>
    obtain ⟨key, hcall⟩ := returned_eq_some _ _ h
    cases replyInformation_step _ _ _ _ _ _ _ key hcall with
    | noted _ _ _ _ _ _ hnote => cases hnote
    | replied _ _ _ _ _ stored row info row' _ hrow hinfo hreport hunresolved =>
      exact .replied now resident report text stored info row' hinfo hreport hunresolved rfl rfl
  | _ => exact .unasked _ rfl (infoRequests_kept h rfl)

/-! ## The invariant -/

/-- The report waits for information. -/
def waits (r : IssueReport) : Bool := r.status = .needsInfo

/-- The call writes the status of a report that waits, and leaves its request open. -/
def overwritesQuestion (db : Db) : Command → Bool
  | .groupReport _ report _ => !attached db report && (db.reports.get? report).any waits
  | .declineReport _ report _ _ => (db.reports.get? report).any waits
  | .createProposal _ case _ => hasReport db case waits
  | .startCaseWork _ case _ => hasReport db case waits
  | .completeCaseWork _ case _ _ _ => hasReport db case waits
  | .decideAndStart _ proposal _ true _ =>
    ((db.proposals.get? proposal).bind (·.case)).any fun case => hasReport db case waits
  | _ => false

/-- A report waits while it has an open request; requests are of reports, and one is open at most. -/
structure QuestionInv (db : Db) : Prop where
  waiting : ∀ report r, db.reports.get? report = some r →
    (waits r = true ↔ openQuestion db report = true)
  report_exists : ∀ pk i, db.infoRequests.get? pk = some i →
    (db.reports.get? i.report).isSome = true
  once : ∀ pk pk' i i', db.infoRequests.get? pk = some i → db.infoRequests.get? pk' = some i' →
    i.report = i'.report → i.resolvedAt = none → i'.resolvedAt = none → pk = pk'

theorem questionInv_empty : QuestionInv Db.empty where
  waiting _ _ h := by cases h
  report_exists _ _ h := by cases h
  once _ _ _ _ h := by cases h

/-- The open reports of a case none of whose reports waits do not wait. -/
theorem OpenIn.not_waiting (case pk : ℕ) (r : IssueReport) (h : OpenIn db case pk r)
    (hr : db.reports.get? pk = some r) (hnone : hasReport db case waits = false) :
    waits r = false := by
  by_contra hwaits
  rw [(hasReport_iff db case waits).mpr ⟨pk, r, hr, h.linked, by simpa using hwaits⟩] at hnone
  cases hnone

theorem groupedStatus_ne_needsInfo (db : Db) (case : ℕ) : groupedStatus db case ≠ .needsInfo := by
  unfold groupedStatus
  split
  · exact fun h => by cases h
  · split
    · exact fun h => by cases h
    · exact fun h => by cases h

/-- **Only a question makes a report wait, and only an answer ends it.** -/
theorem ReportChange.waits_eq (pk : ℕ) (r r' : IssueReport) (h : ReportChange db pk r a r')
    (hr : db.reports.get? pk = some r) (hother : asksOrAnswers a = false)
    (hok : overwritesQuestion db a = false) : waits r' = waits r := by
  cases h with
  | kept => rfl
  | reviewed hsubmitted =>
    rw [waits, waits, hsubmitted]
    rfl
  | grouped case _ hdetached =>
    rw [overwritesQuestion, hdetached, Bool.not_false, Bool.true_and, hr, Option.any_some] at hok
    rw [hok]
    exact decide_eq_false (groupedStatus_ne_needsInfo db case)
  | started _ case _ hopen =>
    rw [hopen.not_waiting case pk r hr hok]
    rfl
  | startedInView _ _ _ case _ hopen hof =>
    rw [overwritesQuestion, hof, Option.any_some] at hok
    rw [hopen.not_waiting case pk r hr hok]
    rfl
  | completed _ case _ _ _ hopen =>
    rw [hopen.not_waiting case pk r hr hok]
    rfl
  | expired _ _ hcompleted =>
    rw [waits, waits, hcompleted]
    rfl
  | declined =>
    rw [overwritesQuestion, hr, Option.any_some] at hok
    rw [hok]
    rfl
  | asked => cases hother
  | replied => cases hother
  | rated _ _ _ _ _ _ _ hcompleted =>
    rw [waits, waits, hcompleted]
    rfl
  | proposed _ case _ hopen =>
    rw [hopen.not_waiting case pk r hr hok]
    rfl

/-- Open requests depend on the rows. -/
theorem openQuestion_congr (h : ∀ pk, db'.infoRequests.get? pk = db.infoRequests.get? pk)
    (report : ℕ) : openQuestion db' report = openQuestion db report := by
  rw [Bool.eq_iff_iff, openQuestion_iff, openQuestion_iff]
  simp only [h]

/-- Nobody has asked about a report that is not there. -/
theorem QuestionInv.none_open (hinv : QuestionInv db) (report : ℕ)
    (h : db.reports.get? report = none) : openQuestion db report = false := by
  by_contra hopen
  obtain ⟨pk, i, hi, hof, _⟩ := (openQuestion_iff db report).mp (by simpa using hopen)
  have hexists := hinv.report_exists pk i hi
  rw [hof, h] at hexists
  cases hexists

/-- A call that neither asks nor answers. -/
theorem QuestionInv.step_unasked (hinv : QuestionInv db) (hother : asksOrAnswers a = false)
    (hsame : ∀ pk, db'.infoRequests.get? pk = db.infoRequests.get? pk)
    (hok : overwritesQuestion db a = false) (h : Db.step C db a = some db') : QuestionInv db' := by
  have hreports := reports_changed C db db' a h
  refine ⟨fun report r' hr' => ?_, fun pk i hi => ?_, fun pk pk' i i' hi hi' => ?_⟩
  · rw [openQuestion_congr hsame]
    rcases hreports.found report r' hr' with ⟨r, hr, hchange⟩ | ⟨hnext, hsubmitted, _⟩
    · rw [hchange.waits_eq report r r' hr hother hok]
      exact hinv.waiting report r hr
    · rw [hinv.none_open report (by rw [hnext, Table.get?_next]), waits, hsubmitted]
      decide
  · rw [hsame] at hi
    obtain ⟨r, hr⟩ := Option.isSome_iff_exists.mp (hinv.report_exists pk i hi)
    obtain ⟨r', hr', _⟩ := hreports.kept i.report r hr
    rw [hr']
    rfl
  · rw [hsame] at hi hi'
    exact hinv.once pk pk' i i' hi hi'

/-- A question is asked while none is open. -/
theorem QuestionInv.step_asked (hinv : QuestionInv db) (report : ℕ) (row : IssueReport)
    (info : InfoRequest) (hrow : db.reports.get? report = some row) (hof : info.report = report)
    (hunresolved : info.resolvedAt = none)
    (hnone : ∀ pk i, db.infoRequests.get? pk = some i → i.report = report → i.resolvedAt ≠ none)
    (hrequests : db'.infoRequests = db.infoRequests.insert info)
    (hreports : db'.reports = db.reports.update report fun r => { r with status := .needsInfo }) :
    QuestionInv db' := by
  have hfound : ∀ pk i, db'.infoRequests.get? pk = some i →
      db.infoRequests.get? pk = some i ∨ (pk = db.infoRequests.next ∧ i = info) := by
    intro pk i hi
    rw [hrequests, Table.get?_insert] at hi
    split at hi
    · next hnext => exact .inr ⟨hnext, (Option.some.inj hi).symm⟩
    · exact .inl hi
  refine ⟨fun key r' hr' => ?_, fun pk i hi => ?_, fun pk pk' i i' hi hi' hsame hopen hopen' => ?_⟩
  · rw [hreports, Table.get?_update] at hr'
    split at hr'
    · next hkey =>
      obtain ⟨r, _, rfl⟩ := Option.map_eq_some_iff.mp hr'
      refine iff_of_true rfl ((openQuestion_iff db' key).mpr ⟨db.infoRequests.next, info, ?_, ?_⟩)
      · rw [hrequests, Table.get?_insert_self]
      · exact ⟨hof.trans hkey.symm, hunresolved⟩
    · next hkey =>
      rw [hinv.waiting key r' hr', openQuestion_iff, openQuestion_iff]
      constructor
      · rintro ⟨pk, i, hi, hfields⟩
        exact ⟨pk, i, by rw [hrequests]; exact Table.get?_insert_of_some _ _ _ _ hi, hfields⟩
      · rintro ⟨pk, i, hi, hkeyed, hopen⟩
        rcases hfound pk i hi with hold | ⟨_, rfl⟩
        · exact ⟨pk, i, hold, hkeyed, hopen⟩
        · exact absurd (hkeyed.symm.trans hof) hkey
  · have hkept : ∀ key, (db.reports.get? key).isSome = true → (db'.reports.get? key).isSome = true := by
      intro key hsome
      rw [hreports, Table.get?_update]
      split
      · rw [Option.isSome_map, hsome]
      · exact hsome
    rcases hfound pk i hi with hold | ⟨_, rfl⟩
    · exact hkept _ (hinv.report_exists pk i hold)
    · rw [hof]
      exact hkept report (by rw [hrow]; rfl)
  · rcases hfound pk i hi with hold | ⟨hnext, rfl⟩
    · rcases hfound pk' i' hi' with hold' | ⟨_, rfl⟩
      · exact hinv.once pk pk' i i' hold hold' hsame hopen hopen'
      · exact absurd hopen (hnone pk i hold (hsame.trans hof))
    · rcases hfound pk' i' hi' with hold' | ⟨hnext', _⟩
      · exact absurd hopen' (hnone pk' i' hold' (hsame.symm.trans hof))
      · exact hnext.trans hnext'.symm

/-- The open question is answered. -/
theorem QuestionInv.step_replied (hinv : QuestionInv db) (now report : ℕ) (stored : Text) (key : ℕ)
    (info : InfoRequest) (hinfo : db.infoRequests.get? key = some info)
    (hof : info.report = report) (hunresolved : info.resolvedAt = none)
    (hrequests : db'.infoRequests = db.infoRequests.update key fun i =>
      { i with replyText := stored, resolvedAt := some now })
    (hreports : db'.reports = db.reports.update report fun r => { r with status := .inReview }) :
    QuestionInv db' := by
  -- The requests that are open afterwards are those that were, without the one answered.
  have hopened : ∀ pk i, db'.infoRequests.get? pk = some i → i.resolvedAt = none →
      db.infoRequests.get? pk = some i ∧ pk ≠ key := by
    intro pk i hi hopen
    rw [hrequests, Table.get?_update] at hi
    split at hi
    · obtain ⟨j, _, rfl⟩ := Option.map_eq_some_iff.mp hi
      cases hopen
    · next hne => exact ⟨hi, hne⟩
  refine ⟨fun pk r' hr' => ?_, fun pk i hi => ?_, fun pk pk' i i' hi hi' hsame hopen hopen' => ?_⟩
  · rw [hreports, Table.get?_update] at hr'
    split at hr'
    · next hpk =>
      obtain ⟨r, _, rfl⟩ := Option.map_eq_some_iff.mp hr'
      refine iff_of_false (fun h => by cases h) fun hquestion => ?_
      obtain ⟨pk', i, hi, hkeyed, hopen⟩ := (openQuestion_iff db' pk).mp hquestion
      obtain ⟨hold, hne⟩ := hopened pk' i hi hopen
      have hsame : i.report = info.report := hkeyed.trans (hpk.trans hof.symm)
      exact hne (hinv.once pk' key i info hold hinfo hsame hopen hunresolved)
    · next hpk =>
      rw [hinv.waiting pk r' hr', openQuestion_iff, openQuestion_iff]
      constructor
      · rintro ⟨pk', i, hi, hkeyed, hopen⟩
        refine ⟨pk', i, ?_, hkeyed, hopen⟩
        rw [hrequests, Table.get?_update, if_neg, hi]
        rintro rfl
        cases hi.symm.trans hinfo
        exact hpk (hkeyed.symm.trans hof)
      · rintro ⟨pk', i, hi, hkeyed, hopen⟩
        exact ⟨pk', i, (hopened pk' i hi hopen).1, hkeyed, hopen⟩
  · obtain ⟨j, hj, hjof⟩ : ∃ j, db.infoRequests.get? pk = some j ∧ j.report = i.report := by
      rw [hrequests, Table.get?_update] at hi
      split at hi
      · obtain ⟨j, hj, rfl⟩ := Option.map_eq_some_iff.mp hi
        exact ⟨j, hj, rfl⟩
      · exact ⟨i, hi, rfl⟩
    have hexists := hinv.report_exists pk j hj
    rw [hjof] at hexists
    rw [hreports, Table.get?_update]
    split
    · rw [Option.isSome_map, hexists]
    · exact hexists
  · obtain ⟨hold, _⟩ := hopened pk i hi hopen
    obtain ⟨hold', _⟩ := hopened pk' i' hi' hopen'
    exact hinv.once pk pk' i i' hold hold' hsame hopen hopen'

theorem QuestionInv.step (hinv : QuestionInv db) (hok : overwritesQuestion db a = false)
    (h : Db.step C db a = some db') : QuestionInv db' := by
  cases questions_stepped h with
  | unasked _ hother hsame => exact hinv.step_unasked hother hsame hok h
  | asked report manager message row info hrow hof hunresolved hnone hrequests hreports =>
    exact hinv.step_asked report row info hrow hof hunresolved hnone hrequests hreports
  | replied now resident report text stored key info hinfo hof hunresolved hrequests hreports =>
    exact hinv.step_replied now report stored key info hinfo hof hunresolved hrequests hreports

/-- **Waiting for information is one state**, along every run in which no call overwrites a
question: the status of a report is `NEEDS_INFO` if and only if it has an unresolved request. -/
theorem waiting_is_one_state
    (h : Reaches (Db.step C) (fun db a => overwritesQuestion db a = false) Db.empty db) (report : ℕ)
    (r : IssueReport) (hr : db.reports.get? report = some r) :
    r.status = .needsInfo ↔
      ∃ pk i, db.infoRequests.get? pk = some i ∧ i.report = report ∧ i.resolvedAt = none := by
  have hinv : QuestionInv db := by
    refine h.preserves QuestionInv ?_ questionInv_empty
    exact fun u a v hinv hok hstep => hinv.step hok hstep
  have hiff := hinv.waiting report r hr
  rwa [waits, decide_eq_true_eq, openQuestion_iff] at hiff

/-- The manager asks about the report of the sample case. -/
theorem waiting_is_one_state_asked : ∃ (db : Db) (r : IssueReport),
    Reaches (Db.step sampleConfig) (fun db a => overwritesQuestion db a = false) Db.empty db ∧
    db.reports.get? 1 = some r ∧ r.status = .needsInfo ∧
    ∃ pk i, db.infoRequests.get? pk = some i ∧ i.report = 1 ∧ i.resolvedAt = none := by
  obtain ⟨db, hreach, hstatus⟩ := exists_of_run
    (guarded (Db.step sampleConfig) fun db a => overwritesQuestion db a = false) Db.empty
    (fun db => reportStatus db 1 = some .needsInfo)
    (openedCase false ++ [.requestInformation 1 7 "Which floor?".toList]) (by decide +kernel)
  have hrun := hreach.of_guarded
  obtain ⟨r, hr, hwaits⟩ := Option.map_eq_some_iff.mp hstatus
  exact ⟨db, r, hrun, hr, hwaits, (waiting_is_one_state hrun 1 r hr).mp hwaits⟩

/-- The work of the case is started while the question is open. -/
theorem question_forgotten : ∃ db : Db, db.Reachable sampleConfig ∧
    reportStatus db 1 = some .inProgress ∧ openQuestion db 1 = true :=
  exists_of_run (Db.step sampleConfig) Db.empty
    (fun db => reportStatus db 1 = some .inProgress ∧ openQuestion db 1 = true)
    (openedCase false ++ [.requestInformation 1 7 "Which floor?".toList, .startCaseWork 2000 1 7])
    (by decide +kernel)

end LamTo.Analysis
