import LamTo.Analysis.ProposalSteps

/-!
# What a step does to cases

`CaseChange` lists the writes a case row ever sees, each with the guard the service tested and
the call that made it; `cases_stepped` says that every step of the system changes cases in
these ways only. A new case comes with its triage decision, and a decision is never lost.

A case-linked proposal takes its building from the case. `CaseInv` is the invariant these
give: the decision of a case exists, a proposal of a case is in the building of the case, and
no case has two proposals.

SOURCE: src/lamto/maintenance/triage.py:54-123, cases.py:58-180, 244-275, ratings.py:61-67
-/

set_option autoImplicit false

namespace LamTo.Analysis

open LamTo.Library LamTo.Model

/-- The writes to a case. -/
inductive CaseChange (db : Db) (pk : ℕ) (c : MaintenanceCase) : Command → MaintenanceCase → Prop where
  | kept (a : Command) : CaseChange db pk c a c
  | started (now manager : ℕ) (workable : Workable c) :
      CaseChange db pk c (.startCaseWork now pk manager)
        { c with startedAt := c.startedAt.or (some now) }
  | startedInView (now proposal manager : ℕ) (note : Text) (workable : Workable c)
      (of_case : (db.proposals.get? proposal).bind (·.case) = some pk) :
      CaseChange db pk c (.decideAndStart now proposal manager true note)
        { c with startedAt := c.startedAt.or (some now) }
  | completed (now manager : ℕ) (cause result : Text) (workable : Workable c)
      (started : c.startedAt ≠ none) :
      CaseChange db pk c (.completeCaseWork now pk manager cause result)
        { c with completedAt := some now }
  | expired (now : ℕ) (completed : c.completedAt ≠ none) :
      CaseChange db pk c (.closeExpiredCompletedCases now)
        { c with active := false, closedAt := some now }
  | rated (now resident : ℕ) (satisfied comment : PyValue) (completed : c.completedAt ≠ none) :
      CaseChange db pk c (.rateCompletedCase now resident pk satisfied comment)
        { c with active := false, closedAt := some now }
  | declined (now report manager : ℕ) (reason : Text)
      (emptied : emptiedCase db report pk = true) :
      CaseChange db pk c (.declineReport now report manager reason)
        { c with active := false, closedAt := some now }

/-- No write moves a case to another building or gives it another decision. -/
theorem CaseChange.building_eq (db : Db) (pk : ℕ) (c c' : MaintenanceCase) (a : Command)
    (h : CaseChange db pk c a c') : c'.building = c.building := by
  cases h with
  | _ => rfl

theorem CaseChange.decision_eq (db : Db) (pk : ℕ) (c c' : MaintenanceCase) (a : Command)
    (h : CaseChange db pk c a c') : c'.decision = c.decision := by
  cases h with
  | _ => rfl

/-- A new case is opened by triage: it has its decision, the building of its report, and a link to
the report, and no work has been done on it. -/
inductive CaseAdded (db db' : Db) : Command → MaintenanceCase → Prop where
  | opened (now report operator : ℕ) (category urgency : PyValue) (location : ℕ)
      (queue minutes : PyValue) (c : MaintenanceCase) (row : IssueReport)
      (row_get : db.reports.get? report = some row)
      (undecided : ∀ pk d, db.decisions.get? pk = some d → d.report ≠ report)
      (decision : (db'.decisions.get? c.decision).isSome = true)
      (building_eq : c.building = row.building)
      (linked : linkedTo db' db.cases.next report = true) (fresh : Workable c)
      (unstarted : c.startedAt = none) (unclosed : c.closedAt = none) :
      CaseAdded db db' (.confirmTriage now report operator category urgency location queue minutes) c

/-- Cases are changed or added, and decisions are kept. -/
structure CasesStepped (db : Db) (a : Command) (db' : Db) : Prop where
  cases : db.cases.Evolves db'.cases (fun pk c => CaseChange db pk c a) (CaseAdded db db' a)
  decisions : ∀ pk d, db.decisions.get? pk = some d → db'.decisions.get? pk = some d

/-- Every case is rewritten by a function that changes it. -/
theorem CasesStepped.of_map (db db' : Db) (a : Command) (f : ℕ → MaintenanceCase → MaintenanceCase)
    (hcases : ∀ pk, db'.cases.get? pk = (db.cases.get? pk).map (f pk))
    (hf : ∀ pk c, CaseChange db pk c a (f pk c)) (hdecisions : db'.decisions = db.decisions) :
    CasesStepped db a db' where
  cases := .of_map f hcases fun pk c _ => hf pk c
  decisions _ _ h := by rw [hdecisions, h]

/-- One case is rewritten. -/
theorem CasesStepped.of_update (db db' : Db) (a : Command) (case : ℕ) (row : MaintenanceCase)
    (f : MaintenanceCase → MaintenanceCase) (hrow : db.cases.get? case = some row)
    (hcases : db'.cases = db.cases.update case f) (hf : CaseChange db case row a (f row))
    (hdecisions : db'.decisions = db.decisions) : CasesStepped db a db' where
  cases := by
    refine .of_update (fun _ _ => .kept a) case f hcases fun c hc => ?_
    cases hrow.symm.trans hc
    exact hf
  decisions _ _ h := by rw [hdecisions, h]

/-- No case is written. -/
theorem CasesStepped.of_eq (db db' : Db) (a : Command) (hcases : db'.cases = db.cases)
    (hdecisions : db'.decisions = db.decisions) : CasesStepped db a db' where
  cases := .of_eq (fun _ _ => .kept a) fun pk => by rw [hcases]
  decisions _ _ h := by rw [hdecisions, h]

/-- Whether a report leaves a case empty does not depend on the report itself. -/
theorem emptiedCase_update (db : Db) (report case : ℕ) (f : IssueReport → IssueReport) :
    emptiedCase { db with reports := db.reports.update report f } report case =
      emptiedCase db report case := by
  have hothers : ∀ l : CaseReport,
      (decide (l.case = case) && decide (l.report ≠ report) &&
        ((db.reports.update report f).get? l.report).any fun r => !r.status.terminal) =
      (decide (l.case = case) && decide (l.report ≠ report) &&
        (db.reports.get? l.report).any fun r => !r.status.terminal) := by
    intro l
    by_cases hreport : l.report = report
    · rw [decide_eq_false (not_not.mpr hreport), Bool.and_false, Bool.false_and, Bool.false_and]
    · rw [Table.get?_update_ne _ _ _ _ hreport]
  unfold emptiedCase
  simp only [hothers]
  rfl

/-- **What a service of the maintenance side does to cases.** -/
theorem WorkStep.cases_stepped (db db' : Db) (a : Command) (h : WorkStep db a db') :
    CasesStepped db a db' := by
  induction h with
  | opened db now report operator category urgency location queue minutes row decision caseRow _ hrow
      hundecided _ _ hfresh hunstarted hbuilding hdecision hunclosed =>
    constructor
    · refine .of_insert (fun _ _ => .kept _) caseRow rfl (.opened now report operator category urgency
        location queue minutes caseRow row hrow hundecided ?_ hbuilding ?_ hfresh hunstarted hunclosed)
      · show ((db.decisions.insert decision).get? caseRow.decision).isSome = true
        rw [hdecision, Table.get?_insert_self]
        rfl
      · exact (Table.any_eq_true _ _).mpr ⟨_, _, Table.get?_insert_self _ _, by simp⟩
    · exact fun pk d hd => Table.get?_insert_of_some _ _ _ _ hd
  | started db now case manager row audit hrow hworkable =>
    exact .of_update db _ _ case row _ hrow rfl (.started now manager hworkable) rfl
  | finishedCase db now case manager cause result row _ _ hrow hworkable hstarted =>
    obtain ⟨proposals, heq, _⟩ := completeCaseProposal_eq
      { db with cases := db.cases.update case fun c => { c with completedAt := some now } } case now
    rw [heq]
    exact .of_update db _ _ case row _ hrow rfl
      (.completed now manager cause result hworkable hstarted) rfl
  | expired db now =>
    obtain ⟨cases, reports, proposals, heq, hcases, _⟩ := closeExpiredCompletedCases_eq db now
    rw [heq]
    refine .of_map db _ _ _ hcases (fun pk c => ?_) rfl
    split
    · next hexpired =>
      refine .expired now fun hnone => ?_
      simp [expiredCase, hnone] at hexpired
    · exact .kept _
  | declined db now report manager reason stored row audit =>
    refine .of_map db _ _ _ (Table.get?_mapRows _ _) (fun pk c => ?_) rfl
    split
    · next hclosed =>
      rw [Bool.and_eq_true, emptiedCase_update] at hclosed
      exact .declined now report manager reason hclosed.2
    · exact .kept _
  | rated db now resident case satisfied comment row _ _ hrow hcompleted =>
    unfold closeRatedCase
    split
    · exact .of_eq db _ _ rfl rfl
    · exact .of_update db _ _ case row _ hrow rfl
        (.rated now resident satisfied comment hcompleted) rfl
  | decidedOnly db db' now proposal manager proceed note row _ _ hdecided =>
    have hsame := hdecided.decided_sameCases
    exact .of_eq db db' _ hsame.cases hsame.decisions
  | decidedAndStarted db mid db' now proposal manager case note row hrow hof hdecided hstarted =>
    have hsame := hdecided.decided_sameCases
    cases hstarted with
    | noted _ _ _ _ _ _ hnote => cases hnote
    | started _ _ _ _ caseRow _ hget hworkable =>
      have hcases : (mid.cases.update case fun c => { c with startedAt := c.startedAt.or (some now) })
          = db.cases.update case fun c => { c with startedAt := c.startedAt.or (some now) } := by
        rw [hsame.cases]
      rw [hsame.cases] at hget
      exact .of_update db _ _ case caseRow _ hget hcases
        (.startedInView now proposal manager note hworkable (by rw [hrow]; exact hof)) hsame.decisions
  | _ => exact .of_eq _ _ _ rfl rfl

/-- **What a step does to cases**, whichever service is called. -/
theorem cases_stepped (C : EvidenceConfig) (db db' : Db) (a : Command)
    (h : Db.step C db a = some db') : CasesStepped db a db' := by
  cases service_effect C db db' a h with
  | setup _ hsetup =>
    constructor
    · exact .of_eq (fun _ _ => .kept a) (Table.get?_congr _ _ hsetup.cases)
    · intro pk d hd
      rw [Table.get?_congr _ _ hsetup.decisions, hd]
  | work _ hwork => exact hwork.cases_stepped db db' a
  | publish creator args p => exact .of_eq db db' _ (by rw [p.result]) (by rw [p.result])
  | settle now member transfer eventId s =>
    exact .of_eq db db' _ (by rw [s.result]) (by rw [s.result])
  | openFund building fund funds _ result =>
    exact .of_eq db db' _ (by rw [result]) (by rw [result])
  | record now entryType amountVnd evidence recorder fundEntryId aware r =>
    exact .of_eq db db' _ (by rw [r.result]) (by rw [r.result])
  | verify now verifier v => exact .of_eq db db' _ (by rw [v.result]) (by rw [v.result])

/-! ## The invariant -/

/-- The decision of a case exists, and a proposal of a case is in its building and the only one
of the case. -/
structure CaseInv (db : Db) : Prop where
  decision : ∀ pk c, db.cases.get? pk = some c → (db.decisions.get? c.decision).isSome = true
  building : ∀ pk p case, db.proposals.get? pk = some p → p.case = some case →
    ∃ c, db.cases.get? case = some c ∧ c.building = p.building
  once : ∀ pk p pk' p' case, db.proposals.get? pk = some p → db.proposals.get? pk' = some p' →
    p.case = some case → p'.case = some case → pk = pk'

theorem caseInv_empty : CaseInv Db.empty where
  decision _ _ h := by cases h
  building _ _ _ h := by cases h
  once _ _ _ _ _ h := by cases h

/-- A proposal of a case is an old one of the case, or the first. -/
theorem ProposalsChanged.of_case (db db' : Db) (a : Command) (h : ProposalsChanged db a db')
    (pk : ℕ) (p : Proposal) (case : ℕ) (hp : db'.proposals.get? pk = some p)
    (hcase : p.case = some case) :
    (∃ q, db.proposals.get? pk = some q ∧ q.case = some case) ∨
      (pk = db.proposals.next ∧ ∀ key q, db.proposals.get? key = some q → q.case ≠ some case) := by
  rcases h.found pk p hp with ⟨q, hq, hchange⟩ | ⟨hnext, hnew⟩
  · rw [hchange.case_eq] at hcase
    exact .inl ⟨q, hq, hcase⟩
  · cases hnew with
    | forCase _ _ _ _ _ _ _ _ hfirst =>
      cases hcase
      exact .inr ⟨hnext, hfirst⟩
    | standalone => cases hcase

theorem CaseInv.step (C : EvidenceConfig) (db db' : Db) (a : Command) (hinv : CaseInv db)
    (h : Db.step C db a = some db') : CaseInv db' := by
  have hcases := cases_stepped C db db' a h
  have hproposals := proposals_changed C db db' a h
  refine ⟨?_, ?_, ?_⟩
  · intro pk c' hc'
    rcases hcases.cases.found pk c' hc' with ⟨c, hc, hstep⟩ | ⟨_, hnew⟩
    · obtain ⟨d, hd⟩ := Option.isSome_iff_exists.mp (hinv.decision pk c hc)
      rw [hstep.decision_eq, hcases.decisions _ d hd]
      rfl
    · cases hnew with
      | opened _ _ _ _ _ _ _ _ _ _ _ _ hdecision => exact hdecision
  · intro pk p' case hp' hcase
    have hold : ∀ building, (∃ c, db.cases.get? case = some c ∧ c.building = building) →
        ∃ c', db'.cases.get? case = some c' ∧ c'.building = building := by
      rintro building ⟨c, hc, rfl⟩
      obtain ⟨c', hc', hstep⟩ := hcases.cases.kept case c hc
      exact ⟨c', hc', hstep.building_eq⟩
    rcases hproposals.found pk p' hp' with ⟨p, hp, hchange⟩ | ⟨_, hnew⟩
    · rw [hchange.building_eq]
      rw [hchange.case_eq] at hcase
      exact hold _ (hinv.building pk p case hp hcase)
    · cases hnew with
      | forCase now key creator membership row hget =>
        cases hcase
        exact hold _ ⟨row, hget, rfl⟩
      | standalone => cases hcase
  · intro pk p pk' p' case hp hp' hcase hcase'
    have hof := hproposals.of_case db db' a pk p case hp hcase
    have hof' := hproposals.of_case db db' a pk' p' case hp' hcase'
    rcases hof with ⟨q, hq, hqcase⟩ | ⟨hnext, hfirst⟩
    · rcases hof' with ⟨q', hq', hqcase'⟩ | ⟨_, hfirst'⟩
      · exact hinv.once pk q pk' q' case hq hq' hqcase hqcase'
      · exact absurd hqcase (hfirst' pk q hq)
    · rcases hof' with ⟨q', hq', hqcase'⟩ | ⟨hnext', _⟩
      · exact absurd hqcase' (hfirst pk' q' hq')
      · exact hnext.trans hnext'.symm

theorem CaseInv.reachable (C : EvidenceConfig) (db : Db) (h : db.Reachable C) : CaseInv db := by
  refine h.preserves CaseInv ?_ caseInv_empty
  exact fun u a v hinv _ hstep => hinv.step C u v a hstep

end LamTo.Analysis
