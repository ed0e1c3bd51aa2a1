import LamTo.Analysis.OpenCases
import LamTo.Analysis.SpendingDecisions
import LamTo.Model.Selectors

/-!
# Cases that proceed without spending

A case whose work was started without a proposal takes none any more: `create_proposal` refuses
it, and `spending_proposal_cases` leaves it out. Both read that work has started from a report of
the case that is `IN_PROGRESS`, and not from the case. A question, an answer or a decline may take
the last such report away, and a start may find none to move; `endsProceeding` names these calls.

* **Acceptance** (`createProposal_accepts_iff`): in every state the list holds the cases without a
  proposal that the service accepts.
* **The invariant** (`ProceedInv.step`): a started case without a proposal has a report that is in
  progress, or private.
* **Runs** (`Proceeding.step`): no proposal comes to such a case.

SOURCE: src/lamto/finance/proposals.py:27-34, 199-240, src/lamto/maintenance/cases.py:58-75, 192-275
-/

set_option autoImplicit false

namespace LamTo.Analysis

open LamTo.Library LamTo.Model

variable {C : EvidenceConfig} {db db' : Db} {a : Command}

/-! ## Acceptance -/

theorem mem_spendingProposalCases (db : Db) (case : ℕ) :
    case ∈ spendingProposalCases db ↔ ∃ c, db.cases.get? case = some c ∧ Workable c ∧
      hasReport db case (·.isPrivate) = false ∧
      hasReport db case (fun r => r.status = .inProgress) = false := by
  unfold spendingProposalCases
  rw [List.mem_filter, List.mem_map, Bool.and_eq_true, Bool.not_eq_true', Bool.not_eq_true']
  constructor
  · rintro ⟨⟨⟨pk, c⟩, hmem, rfl⟩, hcommunity, hunspent⟩
    obtain ⟨hc, hopen⟩ := (Table.mem_select _ _ _ _).mp hmem
    rw [Bool.and_eq_true, decide_eq_true_eq] at hopen
    exact ⟨c, hc, ⟨hopen.1, hopen.2⟩, hcommunity, hunspent⟩
  · rintro ⟨c, hc, hworkable, hcommunity, hunspent⟩
    refine ⟨⟨(case, c), (Table.mem_select _ _ _ _).mpr ⟨hc, ?_⟩, rfl⟩, hcommunity, hunspent⟩
    rw [hworkable.active, decide_eq_true hworkable.uncompleted]
    rfl

/-- The user manages the building of the case. -/
def managesCase (db : Db) (case user : ℕ) : Prop :=
  ∃ c, db.cases.get? case = some c ∧ ActiveManager db c.building user

/-- The case has a proposal. -/
def hasProposal (db : Db) (case : ℕ) : Bool := db.proposals.any fun p => p.case = some case

/-- **The service accepts what the list offers**: `create_proposal` on a case without a proposal
returns exactly for the managers of a case in the list. -/
theorem createProposal_accepts_iff (db : Db) (now case creator : ℕ)
    (hnone : hasProposal db case = false) :
    (∃ r, createProposal db now case creator = .ok r) ↔
      case ∈ spendingProposalCases db ∧ managesCase db case creator := by
  rw [mem_spendingProposalCases]
  constructor
  · rintro ⟨⟨pk, db'⟩, h⟩
    simp only [createProposal, bind_eq_ok, orRaise_eq_ok, require_eq_ok] at h
    obtain ⟨c, hc, _, hopen, ⟨membership, m⟩, hmember, _, hcommunity, _, hunspent, _⟩ := h
    obtain ⟨hm, huser, hbuilding, hactive⟩ := requireManagement_eq_ok _ _ _ _ _ hmember
    exact ⟨⟨c, hc, ⟨hopen.1, hopen.2⟩, hcommunity, hunspent⟩, c, hc, membership, m, hm, hbuilding,
      hactive, huser⟩
  · rintro ⟨⟨c, hc, hworkable, hcommunity, hunspent⟩, b, hb, hmanager⟩
    cases hc.symm.trans hb
    obtain ⟨membership, m, hmember, hm, huser, hactive⟩ :=
      requireManagement_of_active c.building creator hmanager
    unfold hasProposal at hnone
    obtain ⟨audit, haudit⟩ := recordAudit_of_active
      (updateReports
        { db with proposals := db.proposals.insert (.draft now (some case) c.building membership) }
        case (fun s => !s.terminal) .proposed)
      creator membership m "proposal.create" "Proposal" db.proposals.next "accepted"
      [("case_id".toList, .int case)] hm huser hactive
    simp only [createProposal, bind_eq_ok, orRaise_eq_ok, require_eq_ok, pure_eq_ok]
    exact ⟨_, c, hc, (), ⟨hworkable.active, hworkable.uncompleted⟩, (membership, m), hmember, (),
      hcommunity, (), hunspent, (), hnone, _, haudit, rfl⟩

/-! ## The invariant -/

/-- No other report of a started case without a proposal is in progress. -/
def lastInProgress (db : Db) (report case : ℕ) (c : MaintenanceCase) : Bool :=
  underway c && linkedTo db case report && !hasProposal db case &&
    !hasReport db case (·.isPrivate) &&
    !db.reports.rows.any fun r => r.1 ≠ report && linkedTo db case r.1 && r.2.status = .inProgress

/-- The call leaves a started case without a proposal with no report in progress: the work is
started when no report of the case is open, or the last report in progress is asked about, answered
for, or declined while others of the case are open. -/
def endsProceeding (db : Db) : Command → Bool
  | .startCaseWork _ case _ =>
    !hasProposal db case && !hasReport db case fun r => r.isPrivate || !r.status.terminal
  | .requestInformation report _ _ => db.cases.rows.any fun r => lastInProgress db report r.1 r.2
  | .replyInformation _ _ report _ => db.cases.rows.any fun r => lastInProgress db report r.1 r.2
  | .declineReport _ report _ _ => db.cases.rows.any fun r =>
    lastInProgress db report r.1 r.2 && !emptiedCase db report r.1
  | _ => false

/-- A started case without a proposal has a report in progress or a private one. -/
def ProceedInv (db : Db) : Prop :=
  ∀ case c, db.cases.get? case = some c → underway c = true → hasProposal db case = false →
    hasReport db case (fun r => r.isPrivate || r.status = .inProgress) = true

theorem hasProposal_iff (db : Db) (case : ℕ) :
    hasProposal db case = true ↔ ∃ pk p, db.proposals.get? pk = some p ∧ p.case = some case := by
  simp [hasProposal, Table.any_eq_true]

/-- No proposal is ever taken from a case. -/
theorem hasProposal_kept (h : Db.step C db a = some db') (case : ℕ)
    (hnone : hasProposal db' case = false) : hasProposal db case = false := by
  by_contra hsome
  obtain ⟨pk, p, hp, hcase⟩ := (hasProposal_iff db case).mp (by simpa using hsome)
  obtain ⟨p', hp', hchange⟩ := (proposals_changed C db db' a h).kept pk p hp
  have hsome' := (hasProposal_iff db' case).mpr ⟨pk, p', hp', by rw [hchange.case_eq, hcase]⟩
  rw [hnone] at hsome'
  cases hsome'

/-- Starting the work of a case moves its open reports. -/
theorem startCaseWork_report (now case manager : ℕ)
    (h : Db.step C db (.startCaseWork now case manager) = some db') (pk : ℕ) (r : IssueReport)
    (hr : db.reports.get? pk = some r) (hlinked : linkedTo db case pk = true)
    (hopen : r.status.terminal = false) :
    db'.reports.get? pk = some { r with status := .inProgress } := by
  cases startCaseWork_step _ _ _ _ _ (returnedDb_eq_some _ _ h) with
  | noted _ _ _ _ _ _ hnote => cases hnote
  | started =>
    show (db.reports.mapRows fun key r => if linkedTo db case key && !r.status.terminal then
      { r with status := .inProgress } else r).get? pk = _
    rw [Table.get?_mapRows, hr, hlinked, Option.map_some, hopen]
    rfl

/-- A proposal for the case is there after it was created. -/
theorem createProposal_hasProposal (now case creator : ℕ)
    (h : Db.step C db (.createProposal now case creator) = some db') :
    hasProposal db' case = true := by
  obtain ⟨pk, hcall⟩ := returned_eq_some _ _ h
  cases createProposal_step _ _ _ _ _ pk hcall with
  | noted _ _ _ _ _ _ hnote => cases hnote
  | proposed _ _ _ _ row membership =>
    exact (hasProposal_iff _ case).mpr ⟨_, .draft now (some case) row.building membership,
      Table.get?_insert_self _ _, rfl⟩

/-- A private report stays private. -/
theorem ReportChange.isPrivate_eq (pk : ℕ) (r r' : IssueReport) (h : ReportChange db pk r a r') :
    r'.isPrivate = r.isPrivate := by
  cases h with
  | _ => rfl

/-- The call asks about the report, answers for it or declines it. -/
def takesUp (report : ℕ) : Command → Bool
  | .requestInformation pk _ _ => pk = report
  | .replyInformation _ _ pk _ => pk = report
  | .declineReport _ pk _ _ => pk = report
  | _ => false

/-- A report in progress stays so, unless it is asked about, answered for or declined, its case is
completed, or a proposal is made for the case. -/
theorem ReportChange.inProgress_kept (pk : ℕ) (r r' : IssueReport) (h : ReportChange db pk r a r')
    (hprogress : r.status = .inProgress) (hattached : attached db pk = true)
    (hother : takesUp pk a = false)
    (hcompleted : ∀ now case manager cause result, OpenIn db case pk r →
      a ≠ .completeCaseWork now case manager cause result)
    (hproposed : ∀ now case creator, OpenIn db case pk r → a ≠ .createProposal now case creator) :
    r'.status = .inProgress := by
  cases h with
  | kept => exact hprogress
  | reviewed hsubmitted =>
    rw [hprogress] at hsubmitted
    cases hsubmitted
  | grouped _ _ hdetached =>
    rw [hattached] at hdetached
    cases hdetached
  | started => rfl
  | startedInView => rfl
  | completed now case manager cause result hin =>
    exact absurd rfl (hcompleted now case manager cause result hin)
  | expired _ _ hdone =>
    rw [hprogress] at hdone
    cases hdone
  | declined => simp [takesUp] at hother
  | asked => simp [takesUp] at hother
  | replied => simp [takesUp] at hother
  | rated _ _ _ _ _ _ _ hdone =>
    rw [hprogress] at hdone
    cases hdone
  | proposed now case creator hin => exact absurd rfl (hproposed now case creator hin)

/-- Where a report is not the last one in progress, another one is. -/
theorem other_in_progress (report case : ℕ) (c : MaintenanceCase) (hunderway : underway c = true)
    (hlinked : linkedTo db case report = true) (hnone : hasProposal db case = false)
    (hcommunity : hasReport db case (·.isPrivate) = false)
    (hlast : lastInProgress db report case c = false) :
    ∃ pk r, pk ≠ report ∧ db.reports.get? pk = some r ∧ linkedTo db case pk = true ∧
      r.status = .inProgress := by
  simp only [lastInProgress, hunderway, hlinked, hnone, hcommunity, Bool.not_false, Bool.and_true,
    Bool.true_and, Bool.not_eq_false', List.any_eq_true] at hlast
  obtain ⟨⟨pk, r⟩, hmem, hfields⟩ := hlast
  simp only [Bool.and_eq_true, decide_eq_true_eq] at hfields
  exact ⟨pk, r, hfields.1.1, (Table.get?_eq_some _ _ _).mpr hmem, hfields.1.2, hfields.2⟩

/-- **A report in progress that the call does not take up** is there. -/
theorem exists_untouched (hok : endsProceeding db a = false) (h : Db.step C db a = some db')
    (case : ℕ) (c c' : MaintenanceCase) (hc : db.cases.get? case = some c)
    (hunderway : underway c = true) (hc' : db'.cases.get? case = some c')
    (hactive' : c'.active = true) (hnone : hasProposal db case = false)
    (hcommunity : hasReport db case (·.isPrivate) = false)
    (hreport : hasReport db case (fun r => r.status = .inProgress) = true) :
    ∃ pk r, db.reports.get? pk = some r ∧ linkedTo db case pk = true ∧ r.status = .inProgress ∧
      takesUp pk a = false := by
  obtain ⟨report, row, hrow, hlinked, hprogress⟩ := (hasReport_iff db case _).mp hreport
  by_cases htaken : takesUp report a = false
  · exact ⟨report, row, hrow, hlinked, of_decide_eq_true hprogress, htaken⟩
  · have hmem := (Table.get?_eq_some _ _ _).mp hc
    have hother : lastInProgress db report case c = false → (∀ pk, pk ≠ report →
        takesUp pk a = false) → ∃ pk r, db.reports.get? pk = some r ∧ linkedTo db case pk = true ∧
        r.status = .inProgress ∧ takesUp pk a = false := by
      intro hlast huntaken
      obtain ⟨pk, r, hne, hr, hof, hstatus⟩ := other_in_progress report case c hunderway hlinked
        hnone hcommunity hlast
      exact ⟨pk, r, hr, hof, hstatus, huntaken pk hne⟩
    cases a with
    | requestInformation key manager message =>
      obtain rfl : key = report := by simpa [takesUp] using htaken
      apply hother
      · exact Bool.eq_false_iff.mpr (List.any_eq_false.mp hok (case, c) hmem)
      · exact fun pk hne => decide_eq_false (Ne.symm hne)
    | replyInformation now resident key text =>
      obtain rfl : key = report := by simpa [takesUp] using htaken
      apply hother
      · exact Bool.eq_false_iff.mpr (List.any_eq_false.mp hok (case, c) hmem)
      · exact fun pk hne => decide_eq_false (Ne.symm hne)
    | declineReport now key manager reason =>
      obtain rfl : key = report := by simpa [takesUp] using htaken
      have hkept := declineReport_case now key manager reason h case c' hc' hactive'
      have hlast := List.any_eq_false.mp hok (case, c) hmem
      rw [hkept, Bool.not_false, Bool.and_true, Bool.not_eq_true] at hlast
      apply hother
      · exact hlast
      · exact fun pk hne => decide_eq_false (Ne.symm hne)
    | _ => exact absurd rfl htaken

/-- A case that is underway was so, or its work is started by this call. -/
theorem CaseChange.underway_before (case : ℕ) (c c' : MaintenanceCase)
    (h : CaseChange db case c a c') (hunderway : underway c' = true) :
    underway c = true ∨ (∃ now manager, a = .startCaseWork now case manager) ∨
      hasProposal db case = true := by
  obtain ⟨hactive, hstarted, hopen⟩ := (underway_iff c').mp hunderway
  cases h with
  | kept => exact .inl hunderway
  | started now manager => exact .inr (.inl ⟨now, manager, rfl⟩)
  | startedInView _ proposal _ _ _ hof =>
    obtain ⟨p, hp, hcase⟩ := Option.bind_eq_some_iff.mp hof
    exact .inr (.inr ((hasProposal_iff db case).mpr ⟨proposal, p, hp, hcase⟩))
  | completed => cases hopen
  | expired => cases hactive
  | rated => cases hactive
  | declined => cases hactive

/-- **A started case keeps a report in progress.** -/
theorem inProgress_report_kept (hatt : AttachmentInv db) (hok : endsProceeding db a = false)
    (h : Db.step C db a = some db') (case : ℕ) (c c' : MaintenanceCase)
    (hc : db.cases.get? case = some c) (hunderway : underway c = true)
    (hc' : db'.cases.get? case = some c') (hunderway' : underway c' = true)
    (hnone' : hasProposal db' case = false) (hcommunity : hasReport db case (·.isPrivate) = false)
    (hreport : hasReport db case (fun r => r.status = .inProgress) = true) :
    hasReport db' case (fun r => r.isPrivate || r.status = .inProgress) = true := by
  obtain ⟨hactive, _, _⟩ := (underway_iff c).mp hunderway
  obtain ⟨hactive', _, hopen'⟩ := (underway_iff c').mp hunderway'
  obtain ⟨pk, r, hr, hlinked, hprogress, htaken⟩ := exists_untouched hok h case c c' hc hunderway
    hc' hactive' (hasProposal_kept h case hnone') hcommunity hreport
  obtain ⟨r', hr', hchange⟩ := (reports_changed C db db' a h).kept pk r hr
  have hattached := (attached_iff db pk).mpr ⟨case, c, hlinked, hc, hactive⟩
  have hsame : ∀ other, OpenIn db other pk r → case = other := by
    intro other hin
    obtain ⟨b, hb, hworkable⟩ := hin.workable
    exact hatt.once pk case other c b hlinked hin.linked hc hb hactive hworkable.active
  have hstatus : r'.status = .inProgress := by
    refine hchange.inProgress_kept pk r r' hprogress hattached htaken ?_ ?_
    · rintro now other manager cause result hin rfl
      obtain rfl := hsame other hin
      obtain ⟨_, _, _, hdone⟩ := completeCaseWork_case now case manager cause result h
      cases hc'.symm.trans hdone
      cases hopen'
    · rintro now other creator hin rfl
      obtain rfl := hsame other hin
      rw [createProposal_hasProposal now case creator h] at hnone'
      cases hnone'
  have hlinked' := (links_changed C db db' a h).linked db db' a case pk hlinked
  refine (hasReport_iff db' case _).mpr ⟨pk, r', hr', hlinked', ?_⟩
  rw [hstatus, decide_eq_true rfl, Bool.or_true]

theorem ProceedInv.step (hinv : ProceedInv db) (hatt : AttachmentInv db)
    (hok : endsProceeding db a = false) (h : Db.step C db a = some db') : ProceedInv db' := by
  intro case c' hc' hunderway' hnone'
  have hnone := hasProposal_kept h case hnone'
  have hreports := reports_changed C db db' a h
  have hlinks := links_changed C db db' a h
  have hprivate : hasReport db case (·.isPrivate) = true →
      hasReport db' case (fun r => r.isPrivate || r.status = .inProgress) = true := by
    intro hsome
    obtain ⟨pk, r, hr, hlinked, hpriv⟩ := (hasReport_iff db case _).mp hsome
    obtain ⟨r', hr', hchange⟩ := hreports.kept pk r hr
    refine (hasReport_iff db' case _).mpr ⟨pk, r', hr', hlinks.linked db db' a case pk hlinked, ?_⟩
    rw [hchange.isPrivate_eq, hpriv, Bool.true_or]
  rcases (cases_stepped C db db' a h).cases.found case c' hc' with ⟨c, hc, hchange⟩ | ⟨_, hnew⟩
  · rcases hchange.underway_before case c c' hunderway' with hunderway | ⟨now, manager, rfl⟩ | hsome
    · by_cases hcommunity : hasReport db case (·.isPrivate) = true
      · exact hprivate hcommunity
      · have hreport := hinv case c hc hunderway hnone
        rw [Bool.not_eq_true] at hcommunity
        refine inProgress_report_kept hatt hok h case c c' hc hunderway hc' hunderway' hnone'
          hcommunity ?_
        obtain ⟨pk, r, hr, hlinked, hstatus⟩ := (hasReport_iff db case _).mp hreport
        refine (hasReport_iff db case _).mpr ⟨pk, r, hr, hlinked, ?_⟩
        by_cases hpriv : r.isPrivate = true
        · have hsome := (hasReport_iff db case (·.isPrivate)).mpr ⟨pk, r, hr, hlinked, hpriv⟩
          rw [hcommunity] at hsome
          cases hsome
        · rw [Bool.not_eq_true] at hpriv
          rw [hpriv, Bool.false_or] at hstatus
          exact hstatus
    · -- The start moves the open report the condition gives.
      rw [endsProceeding, hnone, Bool.not_false, Bool.true_and, Bool.not_eq_false'] at hok
      obtain ⟨pk, r, hr, hlinked, hopen⟩ := (hasReport_iff db case _).mp hok
      by_cases hpriv : r.isPrivate = true
      · exact hprivate ((hasReport_iff db case _).mpr ⟨pk, r, hr, hlinked, hpriv⟩)
      · rw [Bool.not_eq_true] at hpriv
        rw [hpriv, Bool.false_or, Bool.not_eq_true'] at hopen
        have hr' := startCaseWork_report now case manager h pk r hr hlinked hopen
        refine (hasReport_iff db' case _).mpr ⟨pk, _, hr', hlinks.linked db db' _ case pk hlinked, ?_⟩
        exact Bool.or_true _
    · rw [hnone] at hsome
      cases hsome
  · cases hnew with
    | opened _ _ _ _ _ _ _ _ _ _ _ _ _ _ _ _ hunstarted =>
      exact absurd hunstarted ((underway_iff c').mp hunderway').2.1

/-! ## Runs -/

/-- The work on the case was started, and the case has no proposal. -/
def Proceeding (db : Db) (case : ℕ) : Prop :=
  hasProposal db case = false ∧ ∃ c, db.cases.get? case = some c ∧ c.startedAt ≠ none

/-- A case that proceeds without spending is not offered for spending. -/
theorem Proceeding.not_offered (case : ℕ) (hinv : ProceedInv db) (h : Proceeding db case) :
    case ∉ spendingProposalCases db := by
  obtain ⟨hnone, c, hc, hstarted⟩ := h
  intro hmem
  obtain ⟨b, hb, hworkable, hcommunity, hunspent⟩ := (mem_spendingProposalCases db case).mp hmem
  cases hc.symm.trans hb
  have hunderway := (underway_iff c).mpr ⟨hworkable.active, hstarted, hworkable.uncompleted⟩
  obtain ⟨pk, r, hr, hlinked, hstatus⟩ := (hasReport_iff db case _).mp
    (hinv case c hc hunderway hnone)
  rw [Bool.or_eq_true] at hstatus
  rcases hstatus with hpriv | hprogress
  · rw [(hasReport_iff db case (·.isPrivate)).mpr ⟨pk, r, hr, hlinked, hpriv⟩] at hcommunity
    cases hcommunity
  · rw [(hasReport_iff db case _).mpr ⟨pk, r, hr, hlinked, hprogress⟩] at hunspent
    cases hunspent

/-- No write takes the start of a case back. -/
theorem CaseChange.started_kept (case : ℕ) (c c' : MaintenanceCase) (h : CaseChange db case c a c')
    (hstarted : c.startedAt ≠ none) : c'.startedAt ≠ none := by
  cases h with
  | started => simp
  | startedInView => simp
  | _ => exact hstarted

theorem Proceeding.step (case : ℕ) (hinv : ProceedInv db) (hp : Proceeding db case)
    (h : Db.step C db a = some db') : Proceeding db' case := by
  have hoffered := hp.not_offered case hinv
  obtain ⟨hnone, c, hc, hstarted⟩ := hp
  obtain ⟨c', hc', hchange⟩ := (cases_stepped C db db' a h).cases.kept case c hc
  refine ⟨?_, c', hc', hchange.started_kept case c c' hstarted⟩
  by_contra hsome
  obtain ⟨pk, p, hget, hcase⟩ := (hasProposal_iff db' case).mp (by simpa using hsome)
  rcases (proposals_changed C db db' a h).found pk p hget with ⟨q, hq, hkept⟩ | ⟨_, hnew⟩
  · rw [hkept.case_eq] at hcase
    rw [(hasProposal_iff db case).mpr ⟨pk, q, hq, hcase⟩] at hnone
    cases hnone
  · cases hnew with
    | forCase now key creator membership =>
      cases hcase
      obtain ⟨created, hcall⟩ := returned_eq_some _ _ h
      exact hoffered ((createProposal_accepts_iff db now case creator hnone).mp ⟨_, hcall⟩).1
    | standalone => cases hcase

/-- Starting the work of a case without a proposal makes it proceed. -/
theorem Proceeding.of_start (now case manager : ℕ)
    (h : Db.step C db (.startCaseWork now case manager) = some db')
    (hnone : hasProposal db case = false) : Proceeding db' case := by
  cases startCaseWork_step _ _ _ _ _ (returnedDb_eq_some _ _ h) with
  | noted _ _ _ _ _ _ hnote => cases hnote
  | started _ _ _ _ row _ hrow =>
    refine ⟨hnone, { row with startedAt := row.startedAt.or (some now) }, ?_, by simp⟩
    show (db.cases.update case _).get? case = _
    rw [Table.get?_update_self, hrow]
    rfl

/-- **No spending proposal on a case that proceeds without one**, along every run in which no call
ends a proceeding: once `start_case_work` was applied to a case without a proposal, in every later
state `create_proposal` refuses the case and `spending_proposal_cases` leaves it out. In every
reachable state a case without a proposal is in the list if and only if `create_proposal` accepts it
from the managers of its building. -/
theorem proceeding_case_takes_no_proposal (C : EvidenceConfig) :
    (∀ u v w now case manager,
      Reaches (Db.step C) (fun db a => endsProceeding db a = false) Db.empty u →
      hasProposal u case = false → endsProceeding u (.startCaseWork now case manager) = false →
      Db.step C u (.startCaseWork now case manager) = some v →
      Reaches (Db.step C) (fun db a => endsProceeding db a = false) v w →
      (∀ later creator r, createProposal w later case creator ≠ .ok r) ∧
        case ∉ spendingProposalCases w) ∧
    ∀ db : Db, db.Reachable C → ∀ now case creator, hasProposal db case = false →
      ((∃ r, createProposal db now case creator = .ok r) ↔
        case ∈ spendingProposalCases db ∧ managesCase db case creator) := by
  constructor
  · intro u v w now case manager hu hnone hok hstart hw
    have hbefore : AttachmentInv u ∧ ProceedInv u := by
      refine hu.preserves (fun db => AttachmentInv db ∧ ProceedInv db) ?_ ?_
      · rintro x a y ⟨hatt, hinv⟩ hcond hstep
        exact ⟨hatt.step hstep, hinv.step hatt hcond hstep⟩
      · exact ⟨attachmentInv_empty, fun _ _ hrow => by cases hrow⟩
    have hafter : AttachmentInv v ∧ ProceedInv v ∧ Proceeding v case :=
      ⟨hbefore.1.step hstart, hbefore.2.step hbefore.1 hok hstart,
        .of_start now case manager hstart hnone⟩
    have hlater : AttachmentInv w ∧ ProceedInv w ∧ Proceeding w case := by
      refine hw.preserves (fun db => AttachmentInv db ∧ ProceedInv db ∧ Proceeding db case) ?_ hafter
      rintro x a y ⟨hatt, hinv, hp⟩ hcond hstep
      exact ⟨hatt.step hstep, hinv.step hatt hcond hstep, hp.step case hinv hstep⟩
    have hoffered := hlater.2.2.not_offered case hlater.2.1
    refine ⟨fun later creator r hcall => hoffered ?_, hoffered⟩
    exact ((createProposal_accepts_iff w later case creator hlater.2.2.1).mp ⟨r, hcall⟩).1
  · exact fun db _ now case creator hnone => createProposal_accepts_iff db now case creator hnone

/-- The sample case is started without a proposal. -/
theorem proceeding_case_takes_no_proposal_sample : ∃ u v : Db,
    Reaches (Db.step sampleConfig) (fun db a => endsProceeding db a = false) Db.empty u ∧
    hasProposal u 1 = false ∧ Db.step sampleConfig u (.startCaseWork 2000 1 7) = some v ∧
    (∀ later creator r, createProposal v later 1 creator ≠ .ok r) ∧ 1 ∉ spendingProposalCases v := by
  obtain ⟨u, hreach, ⟨hnone, hok⟩, hstarted⟩ := exists_of_run
    (guarded (Db.step sampleConfig) fun db a => endsProceeding db a = false) Db.empty
    (fun db => (hasProposal db 1 = false ∧ endsProceeding db (.startCaseWork 2000 1 7) = false) ∧
      (Db.step sampleConfig db (.startCaseWork 2000 1 7)).isSome = true)
    (openedCase false) (by decide +kernel)
  obtain ⟨v, hv⟩ := Option.isSome_iff_exists.mp hstarted
  have hrun := hreach.of_guarded
  exact ⟨u, v, hrun, hnone, hv, (proceeding_case_takes_no_proposal sampleConfig).1 u v v 2000 1 7
    hrun hnone hok hv Relation.ReflTransGen.refl⟩

/-- The started case is offered for spending again, and takes a proposal. -/
theorem proceeding_case_takes_proposal : ∃ u v w : Db, u.Reachable sampleConfig ∧
    hasProposal u 1 = false ∧ Db.step sampleConfig u (.startCaseWork 2000 1 7) = some v ∧
    Db.step sampleConfig v (.requestInformation 1 7 "Which floor?".toList) = some w ∧
    1 ∈ spendingProposalCases w ∧ (createProposal w 3000 1 7).toOption.isSome = true := by
  obtain ⟨u, hreach, hnone, hrest⟩ := exists_of_run (Db.step sampleConfig) Db.empty
    (fun db => hasProposal db 1 = false ∧
      (Db.step sampleConfig db (.startCaseWork 2000 1 7)).any (fun v =>
        (Db.step sampleConfig v (.requestInformation 1 7 "Which floor?".toList)).any fun w =>
          1 ∈ spendingProposalCases w ∧ (createProposal w 3000 1 7).toOption.isSome = true) = true)
    (openedCase false) (by decide +kernel)
  obtain ⟨v, hv, hasked⟩ := (Option.any_eq_true _ _).mp hrest
  obtain ⟨w, hw, hoffered⟩ := (Option.any_eq_true _ _).mp hasked
  exact ⟨u, v, w, hreach, hnone, hv, hw, of_decide_eq_true hoffered⟩

end LamTo.Analysis
