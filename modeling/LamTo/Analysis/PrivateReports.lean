import LamTo.Analysis.ProposalChain
import LamTo.Analysis.ProposalSteps
import LamTo.Analysis.TerminalReports

/-!
# Private reports and community spending

A case with a spending proposal may not have a private report. Two services guard this.
`create_proposal` refuses a case with a private report; `group_report` refuses a private
report when the status it would take is PROPOSED. The second guard asks for the wrong thing:
the status is IN_PROGRESS, not PROPOSED, as soon as the work of the case has started, and a
private report then joins a case with a proposal.

* **New links** (`links_changed`): a link is added by triage, to a new case, or by grouping.
* **New proposals** (`ProposalAdded.forCase`): a proposal of a case is added when no report
  of the case is private.
* **The invariant** (`PrivateInv`) is kept by every step that does not group a private report
  onto a case with a proposal.

SOURCE: src/lamto/maintenance/triage.py:150-160, src/lamto/finance/proposals.py:199-230
-/

set_option autoImplicit false

namespace LamTo.Analysis

open LamTo.Library LamTo.Model

/-! ## The invariant -/

/-- The call groups a private report onto a case that has a proposal, and passes the guard:
the report is in no active case, and the work of the case has started. -/
def joinsPrivately (db : Db) : Command → Bool
  | .groupReport case report _ =>
    (db.reports.get? report).any (·.isPrivate) && !attached db report &&
      db.proposals.any (fun p => p.case = some case) && groupedStatus db case = .inProgress
  | _ => false

/-- The steps that keep private reports away from spending. -/
def KeepsPrivate (db : Db) (a : Command) : Prop := joinsPrivately db a = false

instance (db : Db) (a : Command) : Decidable (KeepsPrivate db a) :=
  inferInstanceAs (Decidable (_ = _))

/-- No case with a proposal has a private report, and what links name exists. -/
structure PrivateInv (db : Db) : Prop where
  report_exists : ∀ link l, db.caseReports.get? link = some l →
    (db.reports.get? l.report).isSome = true
  community : ∀ link l r pk p, db.caseReports.get? link = some l →
    db.reports.get? l.report = some r → db.proposals.get? pk = some p →
    p.case = some l.case → r.isPrivate = false

theorem privateInv_empty : PrivateInv Db.empty where
  report_exists _ _ h := by cases h
  community _ _ _ _ _ h := by cases h

/-- A report of a case without private reports is not private. -/
theorem not_private_of_hasReport (db : Db) (link : ℕ) (l : CaseReport) (r : IssueReport)
    (h : hasReport db l.case (·.isPrivate) = false) (hlink : db.caseReports.get? link = some l)
    (hreport : db.reports.get? l.report = some r) : r.isPrivate = false := by
  have hlinked : linkedTo db l.case l.report = true :=
    (Table.any_eq_true _ _).mpr ⟨link, l, hlink, by simp⟩
  have hrow := List.any_eq_false.mp h (l.report, r) ((Table.get?_eq_some _ _ _).mp hreport)
  simpa [hlinked] using hrow

/-- A private report that joins a case finds no proposal there. -/
theorem not_private_of_grouped (db : Db) (l : CaseReport) (r : IssueReport) (pk : ℕ) (p : Proposal)
    (hkeeps : KeepsPrivate db (.groupReport l.case l.report l.groupedBy))
    (hdetached : attached db l.report = false) (hreport : db.reports.get? l.report = some r)
    (hallowed : ¬ (r.isPrivate = true ∧ groupedStatus db l.case = .proposed))
    (hp : db.proposals.get? pk = some p) (hcase : p.case = some l.case) : r.isPrivate = false := by
  have hany : (db.proposals.any fun q => q.case = some l.case) = true :=
    (Table.any_eq_true _ _).mpr ⟨pk, p, hp, decide_eq_true hcase⟩
  -- With a proposal the status is PROPOSED, which the code refuses, or IN_PROGRESS.
  have hstatus : groupedStatus db l.case = .inProgress ∨ groupedStatus db l.case = .proposed := by
    unfold groupedStatus
    rw [if_pos hany]
    split
    · exact .inl rfl
    · exact .inr rfl
  by_contra hprivate
  rw [Bool.not_eq_false] at hprivate
  rcases hstatus with hstarted | hproposed
  · simp [KeepsPrivate, joinsPrivately, hreport, hprivate, hdetached, hany, hstarted] at hkeeps
  · exact hallowed ⟨hprivate, hproposed⟩

/-- A link, old or new, names a report that was there. -/
theorem PrivateInv.report_of_link (db db' : Db) (a : Command) (hinv : PrivateInv db)
    (hlinks : LinksChanged db a db') (link : ℕ) (l : CaseReport)
    (hlink : db'.caseReports.get? link = some l) :
    ∃ r, db.reports.get? l.report = some r := by
  apply Option.isSome_iff_exists.mp
  rcases hlinks.found link l hlink with ⟨l', hold, rfl⟩ | ⟨_, hadded⟩
  · exact hinv.report_exists link l hold
  · cases hadded with
    | opened _ _ _ _ _ _ _ _ hreport => exact hreport
    | grouped _ _ _ row _ hrow =>
      rw [hrow]
      rfl

/-- A case that is there does not have the next key. -/
theorem case_ne_next (db : Db) (case : ℕ) (h : (db.cases.get? case).isSome = true) :
    case ≠ db.cases.next := by
  intro heq
  rw [heq, Table.get?_next] at h
  cases h

/-- No link to a case with a proposal, old or new, names a private report. -/
theorem PrivateInv.community_of_link (db db' : Db) (a : Command) (hinv : PrivateInv db)
    (href : References db) (hkeeps : KeepsPrivate db a) (hlinks : LinksChanged db a db')
    (hproposals : ProposalsChanged db a db') (link : ℕ) (l : CaseReport) (r : IssueReport) (pk : ℕ)
    (p : Proposal) (hlink : db'.caseReports.get? link = some l)
    (hreport : db.reports.get? l.report = some r) (hp : db'.proposals.get? pk = some p)
    (hcase : p.case = some l.case) : r.isPrivate = false := by
  rcases hproposals.found pk p hp with ⟨q, hq, hchange⟩ | ⟨_, hnew⟩
  · rw [hchange.case_eq] at hcase
    rcases hlinks.found link l hlink with ⟨l', hold, rfl⟩ | ⟨_, hadded⟩
    · exact hinv.community link l r pk q hold hreport hq hcase
    · cases hadded with
      | opened =>
        exact absurd rfl (case_ne_next db _ (href.case_exists pk q _ hq hcase))
      | grouped case report operator row _ hrow _ _ hdetached hallowed =>
        cases hreport.symm.trans hrow
        exact not_private_of_grouped db ⟨case, report, operator⟩ r pk q hkeeps hdetached hreport
          hallowed hq hcase
  · cases hnew with
    | forCase now case creator membership row hget _ hcommunity =>
      obtain rfl : case = l.case := Option.some.inj hcase
      rcases hlinks.found link l hlink with ⟨l', hold, rfl⟩ | ⟨_, hadded⟩
      · exact not_private_of_hasReport db link l r hcommunity hold hreport
      · cases hadded
    | standalone => cases hcase

theorem PrivateInv.step (C : EvidenceConfig) (db db' : Db) (a : Command) (hinv : PrivateInv db)
    (href : References db) (hkeeps : KeepsPrivate db a) (h : Db.step C db a = some db') :
    PrivateInv db' := by
  have hlinks := links_changed C db db' a h
  have hreports := reports_stepped C db db' a h
  constructor
  · intro link l hlink
    obtain ⟨r, hr⟩ := hinv.report_of_link db db' a hlinks link l hlink
    obtain ⟨r', hr', _⟩ := hreports.kept l.report r hr
    rw [hr']
    rfl
  · intro link l r' pk p hlink hr' hp hcase
    obtain ⟨r, hr⟩ := hinv.report_of_link db db' a hlinks link l hlink
    obtain ⟨r'', hr'', hstep⟩ := hreports.kept l.report r hr
    cases hr'.symm.trans hr''
    rw [hstep.isPrivate_eq]
    exact hinv.community_of_link db db' a href hkeeps hlinks (proposals_changed C db db' a h)
      link l r pk p hlink hr hp hcase

/-- **Private requests never become community spending**, along every run in which no private
report is grouped onto a case with a proposal once its work has started: no case that has a
proposal, in any status, is linked to a private report. -/
theorem private_reports_stay_out (C : EvidenceConfig) (db : Db)
    (hrun : Reaches (Db.step C) KeepsPrivate Db.empty db) (link : ℕ) (l : CaseReport)
    (r : IssueReport) (proposal : ℕ) (p : Proposal) (hlink : db.caseReports.get? link = some l)
    (hreport : db.reports.get? l.report = some r) (hproposal : db.proposals.get? proposal = some p)
    (hcase : p.case = some l.case) : r.isPrivate = false := by
  have hinv : ChainInv db ∧ PrivateInv db := by
    refine hrun.preserves (fun u => ChainInv u ∧ PrivateInv u) ?_ ⟨chainInv_empty, privateInv_empty⟩
    intro u a v hu hkeeps hstep
    have hchain := hu.1.step (bookStep_of_step C u v a hstep)
    exact ⟨hchain, hu.2.step C u v a hu.1.references hkeeps hstep⟩
  exact hinv.2.community link l r proposal p hlink hreport hproposal hcase

/-! ## A second report on a case with a proposal -/

/-- A case with a proposal whose work has started, and a second report that joins it. -/
def joinedCase (isPrivate : Bool) : List Command :=
  openedCase false ++ [.createProposal 2000 1 7, .startCaseWork 3000 1 7,
    .submitReport 8 1 isPrivate, .groupReport 1 2 7]

/-- The second report of the case and the proposal of the case. -/
structure JoinedCase (db : Db) : Prop where
  link : db.caseReports.get? 2 = some ⟨1, 2, 7⟩
  proposal : (db.proposals.get? 1).map (·.case) = some (some 1)
  report : (db.reports.get? 2).isSome = true

instance (db : Db) : Decidable (JoinedCase db) :=
  decidable_of_iff (_ ∧ _ ∧ _) ⟨fun ⟨h₁, h₂, h₃⟩ => ⟨h₁, h₂, h₃⟩, fun ⟨h₁, h₂, h₃⟩ => ⟨h₁, h₂, h₃⟩⟩

/-- A community report may join the case. -/
theorem private_reports_stay_out_joined : ∃ db : Db,
    Reaches (Db.step sampleConfig) KeepsPrivate Db.empty db ∧ JoinedCase db ∧
    ∃ r, db.reports.get? 2 = some r ∧ r.isPrivate = false := by
  obtain ⟨db, hreach, hjoined⟩ := exists_of_run (guarded (Db.step sampleConfig) KeepsPrivate)
    Db.empty JoinedCase (joinedCase false) (by decide +kernel)
  have hrun := hreach.of_guarded
  obtain ⟨r, hr⟩ := Option.isSome_iff_exists.mp hjoined.report
  obtain ⟨p, hp, hcase⟩ := Option.map_eq_some_iff.mp hjoined.proposal
  exact ⟨db, hrun, hjoined, r, hr,
    private_reports_stay_out sampleConfig db hrun 2 ⟨1, 2, 7⟩ r 1 p hjoined.link hr hp hcase⟩

/-- So may a private one. -/
theorem private_report_joins_proposal : ∃ db : Db, db.Reachable sampleConfig ∧ JoinedCase db ∧
    (db.reports.get? 2).any (·.isPrivate) = true :=
  exists_of_run (Db.step sampleConfig) Db.empty
    (fun db => JoinedCase db ∧ (db.reports.get? 2).any (·.isPrivate) = true) (joinedCase true)
    (by decide +kernel)

end LamTo.Analysis
