import LamTo.Analysis.SettlementAccepted
import LamTo.Analysis.TamperEvidence

/-!
# Carrying out a decision to spend

A decision to proceed is written on the proposal, the work is done on the case. The two rows
are kept by different services: `decide_proposal` does not look at the case, and
`decline_report` closes a case without a look at its proposal. `strandsSpending` names the two
calls that bring the rows out of step.

* **The invariant** (`SpendingCarried.step`): every proposal in progress is on a case that is
  active, started and not completed. Completing the case completes the proposal, the view
  starts the case it decides on, and no other call ends the work.
* **The way out** (`spending_decision_carried_out`): the work can be completed, which completes
  the proposal, and the completed proposal can be settled.

SOURCE: src/lamto/finance/proposals.py:261-331, src/lamto/maintenance/cases.py:119-147, 244-264,
src/lamto/web/views/proposals.py:218-236
-/

set_option autoImplicit false

namespace LamTo.Analysis

open LamTo.Library LamTo.Model

variable {C : EvidenceConfig} {db db' : Db} {a : Command}

/-- Work on the case has begun and is not done. -/
def underway (c : MaintenanceCase) : Bool :=
  c.active && c.startedAt.isSome && c.completedAt.isNone

/-- The calls that leave a decision to spend on a case no work is done on. -/
def strandsSpending (db : Db) : Command → Bool
  | .declineReport _ report _ _ =>
    db.proposals.any fun p => p.status = .inProgress && p.case.any (emptiedCase db report)
  | .decideProposal _ proposal _ (.bool true) _ =>
    ((db.proposals.get? proposal).bind fun p => p.case).any fun case =>
      !(db.cases.get? case).any underway
  | _ => false

/-- Every proposal in progress is on a case that is underway. -/
def SpendingCarried (db : Db) : Prop :=
  ∀ pk p case, db.proposals.get? pk = some p → p.case = some case → p.status = .inProgress →
    ∃ c, db.cases.get? case = some c ∧ underway c = true

theorem underway_iff (c : MaintenanceCase) :
    underway c = true ↔ c.active = true ∧ c.startedAt ≠ none ∧ c.completedAt = none := by
  simp [underway, Option.isSome_iff_ne_none, and_assoc]

/-- Starting the work of a case leaves it underway. -/
theorem underway_started (c : MaintenanceCase) (now : ℕ) (h : Workable c) :
    underway { c with startedAt := c.startedAt.or (some now) } = true := by
  rw [underway_iff]
  refine ⟨h.active, ?_, h.uncompleted⟩
  cases hstartedAt : c.startedAt with
  | none => simp
  | some t => simp

/-- Completing a case leaves none of its proposals in progress. -/
theorem completed_case_proposals (hcase : CaseInv db) (now case manager : ℕ) (cause result : Text)
    (h : WorkStep db (.completeCaseWork now case manager cause result) db') (pk : ℕ) (p' : Proposal)
    (hp' : db'.proposals.get? pk = some p') (hof : p'.case = some case) :
    p'.status ≠ .inProgress := by
  cases h with
  | noted _ _ _ _ _ _ hnote => cases hnote
  | finishedCase =>
    intro hstatus
    unfold completeCaseProposal at hp'
    dsimp only at hp'
    cases hfirst : db.proposals.first? fun p => p.case = some case && p.status = .inProgress with
    | none =>
      rw [hfirst] at hp'
      have hfalse := (Table.first?_eq_none _ _).mp hfirst pk p' hp'
      simp [hof, hstatus] at hfalse
    | some r =>
      obtain ⟨proposal, row⟩ := r
      obtain ⟨hrow, hof'⟩ := Table.first?_eq_some _ _ _ _ hfirst
      simp only [Bool.and_eq_true, decide_eq_true_eq] at hof'
      rw [hfirst] at hp'
      have hget : (db.proposals.update proposal fun p =>
          { p with status := .completed, completedAt := some now }).get? pk = some p' := hp'
      rw [Table.get?_update] at hget
      split at hget
      · obtain ⟨_, _, rfl⟩ := Option.map_eq_some_iff.mp hget
        cases hstatus
      · next hne => exact hne (hcase.once pk p' proposal row case hget hrow hof hof'.1)

/-- A decision to proceed, taken in the view, leaves the case underway. -/
theorem decided_case_underway (now proposal manager : ℕ) (note : Text) (p : Proposal) (case : ℕ)
    (hp : db.proposals.get? proposal = some p) (hof : p.case = some case)
    (h : WorkStep db (.decideAndStart now proposal manager true note) db') :
    ∃ c, db'.cases.get? case = some c ∧ underway c = true := by
  cases h with
  | noted _ _ _ _ _ _ hnote => cases hnote
  | decidedOnly _ _ _ _ _ _ _ row hrow hnothing =>
    cases hp.symm.trans hrow
    rcases hnothing with hfalse | hnone
    · cases hfalse
    · rw [hof] at hnone
      cases hnone
  | decidedAndStarted _ mid _ _ _ _ key _ row hrow hkey hdecided hstarted =>
    cases hp.symm.trans hrow
    cases hof.symm.trans hkey
    cases hstarted with
    | noted _ _ _ _ _ _ hnote => cases hnote
    | started _ _ _ _ c _ hc hworkable =>
      refine ⟨{ c with startedAt := c.startedAt.or (some now) }, ?_, ?_⟩
      · show (mid.cases.update case _).get? case = _
        rw [Table.get?_update_self, hc]
        rfl
      · exact underway_started c now hworkable

/-- A case that is underway stays so, unless it is completed or its last report declined. -/
theorem CaseChange.underway_kept (pk : ℕ) (c c' : MaintenanceCase) (a : Command)
    (h : CaseChange db pk c a c') (hunderway : underway c = true)
    (hcompleted : ∀ now manager cause result, a ≠ .completeCaseWork now pk manager cause result)
    (hdeclined : ∀ now report manager reason, a = .declineReport now report manager reason →
      emptiedCase db report pk = false) : underway c' = true := by
  obtain ⟨hactive, _, hopen⟩ := (underway_iff c).mp hunderway
  have hworkable : Workable c := ⟨hactive, hopen⟩
  cases h with
  | kept => exact hunderway
  | started now => exact underway_started c now hworkable
  | startedInView now => exact underway_started c now hworkable
  | completed now manager cause result => exact absurd rfl (hcompleted now manager cause result)
  | expired _ hdone => exact absurd hopen hdone
  | rated _ _ _ _ hdone => exact absurd hopen hdone
  | declined now report manager reason hemptied =>
    rw [hdeclined now report manager reason rfl] at hemptied
    cases hemptied

/-- A case that is underway is so after the step. -/
theorem underway_stepped (h : Db.step C db a = some db') (case : ℕ) (c : MaintenanceCase)
    (hc : db.cases.get? case = some c) (hunderway : underway c = true)
    (hcompleted : ∀ now manager cause result, a ≠ .completeCaseWork now case manager cause result)
    (hdeclined : ∀ now report manager reason, a = .declineReport now report manager reason →
      emptiedCase db report case = false) :
    ∃ c', db'.cases.get? case = some c' ∧ underway c' = true := by
  obtain ⟨c', hc', hchange⟩ := (cases_stepped C db db' a h).cases.kept case c hc
  exact ⟨c', hc', hchange.underway_kept case c c' a hunderway hcompleted hdeclined⟩

theorem SpendingCarried.step (hinv : SpendingCarried db) (hcase : CaseInv db)
    (hok : strandsSpending db a = false) (h : Db.step C db a = some db') : SpendingCarried db' := by
  intro pk p' case hp' hof hstatus
  rcases (proposals_changed C db db' a h).found pk p' hp' with ⟨p, hp, hchange⟩ | ⟨_, hnew⟩
  · cases hchange with
    | kept =>
      obtain ⟨c, hc, hunderway⟩ := hinv pk p' case hp hof hstatus
      refine underway_stepped h case c hc hunderway ?_ ?_
      · rintro now manager cause result rfl
        have hwork := completeCaseWork_step _ _ _ _ _ _ _ _ (returnedDb_eq_some _ _ h)
        exact completed_case_proposals hcase now case manager cause result hwork pk p' hp' hof
          hstatus
      · rintro now report manager reason rfl
        rw [strandsSpending, Table.any_eq_false] at hok
        have hfalse := hok pk p' hp
        simpa [hstatus, hof] using hfalse
    | decided now manager membership proceed note stored =>
      cases proceed with
      | false => cases hstatus
      | true =>
        have hfalse : (!(db.cases.get? case).any underway) = false := by
          have hof' : p.case = some case := hof
          rw [strandsSpending, hp, Option.bind_some, hof', Option.any_some] at hok
          exact hok
        rw [Bool.not_eq_false'] at hfalse
        obtain ⟨c, hc, hunderway⟩ := (Option.any_eq_true _ _).mp hfalse
        exact underway_stepped h case c hc hunderway (fun _ _ _ _ heq => by cases heq)
          fun _ _ _ _ heq => by cases heq
    | decidedInView now manager membership proceed note stored =>
      cases proceed with
      | false => cases hstatus
      | true =>
        have hwork := decideAndStart_step _ _ _ _ _ _ _ _ (returnedDb_eq_some _ _ h)
        exact decided_case_underway now pk manager note p case hp hof hwork
    | completed => cases hstatus
    | closed => cases hstatus
    | published => cases hstatus
  · cases hnew with
    | forCase => cases hstatus
    | standalone => cases hstatus

/-- The invariant along a run without such calls. -/
theorem spendingCarried_of_run
    (h : Reaches (Db.step C) (fun db a => strandsSpending db a = false) Db.empty db) :
    SpendingCarried db := by
  have hboth : CaseInv db ∧ SpendingCarried db := by
    refine h.preserves (fun db => CaseInv db ∧ SpendingCarried db) ?_ ?_
    · rintro u a v ⟨hcase, hcarried⟩ hok hstep
      exact ⟨hcase.step C u v a hstep, hcarried.step hcase hok hstep⟩
    · exact ⟨caseInv_empty, fun _ _ _ hp => by cases hp⟩
  exact hboth.2

/-! ## Completing the work -/

/-- A text a progress note takes: not blank, and without NUL characters. -/
structure Notable (U : Unicode) (t : Text) : Prop where
  text : strip U t ≠ []
  storable : nul ∉ strip U t

/-- **Work that is underway can be completed**, and with it the proposal of the case. -/
theorem completeCaseWork_accepts (U : Unicode) (now case manager : ℕ) (cause result : Text)
    (c : MaintenanceCase) (hc : db.cases.get? case = some c)
    (hunderway : underway c = true) (hmanager : ActiveManager db c.building manager)
    (hcause : Notable U cause) (hresult : Notable U result) :
    ∃ db', completeCaseWork U db now case manager cause result = .ok db' := by
  obtain ⟨hactive, hstarted, hopen⟩ := (underway_iff c).mp hunderway
  obtain ⟨membership, m, hmember, hm, huser, hmactive⟩ :=
    requireManagement_of_active c.building manager hmanager
  have hboth : c.active = true ∧ c.completedAt = none := ⟨hactive, hopen⟩
  have hcase : startedCase db case = .ok c := by
    simp only [startedCase, lockedCase, hc, orRaise, ok_bind, require_true _ _ hboth, pure_bind,
      require_true _ _ hstarted]
    rfl
  have hnoted : ∃ workUpdates, appendUpdate U db (some case) manager cause result none =
      .ok (db.workUpdates.next, { db with workUpdates }) := by
    have htexts : strip U cause ≠ [] ∧ strip U result ≠ [] := ⟨hcause.text, hresult.text⟩
    simp only [appendUpdate, require_true _ _ htexts, ok_bind,
      textColumn_of_short _ none _ hcause.storable rfl,
      textColumn_of_short _ none _ hresult.storable rfl]
    exact ⟨_, rfl⟩
  obtain ⟨workUpdates, hnoted⟩ := hnoted
  let noted : Db := { db with
    workUpdates, cases := db.cases.update case fun c => { c with completedAt := some now } }
  obtain ⟨proposals, heq, _⟩ := completeCaseProposal_eq noted case now
  have hm' : (updateReports (completeCaseProposal noted case now) case (fun s => !s.terminal)
      .completed).memberships.get? membership = some m := by
    rw [heq]
    exact hm
  obtain ⟨audit, haudit⟩ := recordAudit_of_active _ manager membership m "case.work_completed"
    "MaintenanceCase" case "accepted" [("work_update_id".toList, .int db.workUpdates.next)] hm'
    huser hmactive
  refine ⟨{ updateReports (completeCaseProposal noted case now) case (fun s => !s.terminal)
    .completed with audit }, ?_⟩
  refine (bind_eq_ok _ _ _).mpr ⟨c, hcase, ?_⟩
  refine (bind_eq_ok _ _ _).mpr ⟨_, hmember, ?_⟩
  refine (bind_eq_ok _ _ _).mpr ⟨_, hnoted, ?_⟩
  exact haudit

/-- The proposal in progress is the one that is completed with the case. -/
theorem completed_with_case (hinv : CaseInv db) (now case manager : ℕ) (cause result : Text)
    (pk : ℕ) (p : Proposal) (hp : db.proposals.get? pk = some p) (hof : p.case = some case)
    (hstatus : p.status = .inProgress)
    (h : WorkStep db (.completeCaseWork now case manager cause result) db') :
    db'.proposals.get? pk = some { p with status := .completed, completedAt := some now } ∧
      db'.settlements = db.settlements := by
  cases h with
  | noted _ _ _ _ _ _ hnote => cases hnote
  | finishedCase =>
    have hfirst : (db.proposals.first? fun q => q.case = some case && q.status = .inProgress) =
        some (pk, p) := by
      refine Table.first?_eq_of_unique _ _ pk p hp (by simp [hof, hstatus]) fun key q hq hboth => ?_
      simp only [Bool.and_eq_true, decide_eq_true_eq] at hboth
      exact hinv.once key q pk p case hq hp hboth.1 hof
    unfold completeCaseProposal
    dsimp only
    rw [hfirst]
    refine ⟨?_, rfl⟩
    show (db.proposals.update pk _).get? pk = _
    rw [Table.get?_update_self, hp]
    rfl

/-- **A spending decision can be carried out.** In a run without a call that strands one, the case
of a proposal in progress is active, started and not completed; the work can be completed, which
completes the proposal; and the completed proposal can be settled. -/
theorem spending_decision_carried_out
    (h : Reaches (Db.step C) (fun db a => strandsSpending db a = false) Db.empty db) (pk case : ℕ)
    (p : Proposal) (hp : db.proposals.get? pk = some p) (hof : p.case = some case)
    (hstatus : p.status = .inProgress) :
    (∃ c, db.cases.get? case = some c ∧ c.active = true ∧ c.startedAt ≠ none ∧
      c.completedAt = none) ∧
    ∀ now manager cause result, ActiveManager db p.building manager → Notable C.unicode cause →
      Notable C.unicode result →
      ∃ db', completeCaseWork C.unicode db now case manager cause result = .ok db' ∧
        db'.proposals.get? pk = some { p with status := .completed, completedAt := some now } ∧
        (Operational C → ∀ later member transfer eventId,
          SettlesWith db' p.building later pk member transfer eventId →
          ∃ settlement db'', recordSettlement C db' later pk member transfer eventId =
            .ok (settlement, db'')) := by
  have hreach : db.Reachable C := h.always
  have hinv := CaseInv.reachable C db hreach
  obtain ⟨c, hc, hunderway⟩ := spendingCarried_of_run h pk p case hp hof hstatus
  refine ⟨⟨c, hc, (underway_iff c).mp hunderway⟩, ?_⟩
  intro now manager cause result hmanager hcause hresult
  have hbuilding : c.building = p.building := by
    obtain ⟨c', hc', hbuilding⟩ := hinv.building pk p case hp hof
    cases hc.symm.trans hc'
    exact hbuilding
  rw [← hbuilding] at hmanager
  obtain ⟨db', hdone⟩ := completeCaseWork_accepts C.unicode now case manager cause result c hc
    hunderway hmanager hcause hresult
  have hwork := completeCaseWork_step _ _ _ _ _ _ _ _ hdone
  obtain ⟨hp', hsettlements⟩ := completed_with_case hinv now case manager cause result pk p hp hof
    hstatus hwork
  refine ⟨db', hdone, hp', fun hop later member transfer eventId hargs => ?_⟩
  have hreach' : db'.Reachable C := by
    refine hreach.tail ⟨.completeCaseWork now case manager cause result, trivial, ?_⟩
    show returnedDb (completeCaseWork C.unicode db now case manager cause result) = some db'
    rw [hdone]
    rfl
  refine recordSettlement_accepts hop hreach' later pk member transfer eventId _ hp' rfl ?_ hargs
  -- A settlement stands on a proposal that is finished, which this one was not.
  intro key s hs hproposal
  rw [hsettlements] at hs
  obtain ⟨q, _, _, _, _, hq, hfinished, _⟩ := (ChainInv.reachable hreach).settled key s hs
  rw [hproposal] at hq
  cases hp.symm.trans hq
  rw [hstatus] at hfinished
  rcases hfinished with hcompleted | hclosed
  · cases hcompleted
  · cases hclosed

/-! ## A case from its report to its settlement -/

/-- The event id of the sample settlement. -/
def sampleSettlementId : Text := '0' :: 'x' :: List.replicate 64 '3'

/-- A case with a proposal that is decided on in the view. -/
def decidedCase : List Command :=
  openedCase false ++ [.createDocument ⟨1, .quotation⟩, .createDocument ⟨1, .paymentProof⟩,
    .createDocumentVersion ⟨1, byteHash 1, true⟩, .createDocumentVersion ⟨2, byteHash 2, true⟩,
    .createProposal 2000 1 7, .publishProposalVersion 3000 1 7 (samplePublication 500 '1'),
    .decideAndStart 4000 1 7 true []]

/-- The rows a settlement by the manager reads. -/
structure SettleFacts (db : Db) : Prop where
  member : (db.memberships.get? 1).any (fun m => m.user = 7 && m.building = 1 && m.active) = true
  proof : (db.documentVersions.get? 2).any (fun v => v.clean && (db.documents.get? v.document).any
    fun d => d.kind = .paymentProof && d.building = 1) = true
  event : db.outbox.any (fun e => e.eventId = sampleSettlementId) = false
  fund : db.fundEntryIds = 1 ∧ db.fundEntries.rows.isEmpty = true

instance (db : Db) : Decidable (SettleFacts db) :=
  decidable_of_iff (_ ∧ _ ∧ _ ∧ _)
    ⟨fun ⟨h₁, h₂, h₃, h₄⟩ => ⟨h₁, h₂, h₃, h₄⟩, fun ⟨h₁, h₂, h₃, h₄⟩ => ⟨h₁, h₂, h₃, h₄⟩⟩

theorem SettleFacts.manager (h : SettleFacts db) : ActiveManager db 1 7 := by
  obtain ⟨m, hm, hfacts⟩ := (Option.any_eq_true _ _).mp h.member
  simp only [Bool.and_eq_true, decide_eq_true_eq] at hfacts
  exact ⟨1, m, hm, hfacts.1.2, hfacts.2, hfacts.1.1⟩

theorem SettleFacts.settlesWith (h : SettleFacts db) :
    SettlesWith db 1 7000 1 7 (some 2) sampleSettlementId where
  manager := h.manager
  proof := by
    obtain ⟨v, hv, hfacts⟩ := (Option.any_eq_true _ _).mp h.proof
    rw [Bool.and_eq_true] at hfacts
    obtain ⟨d, hd, hkind⟩ := (Option.any_eq_true _ _).mp hfacts.2
    simp only [Bool.and_eq_true, decide_eq_true_eq] at hkind
    exact ⟨2, v, d, rfl, hv, hd, hkind.1, hkind.2, hfacts.1⟩
  event := by decide
  event_new pk e he := by
    have hlower : lower sampleSettlementId = sampleSettlementId := lower_bytes32 _ (by decide)
    rw [hlower]
    exact of_decide_eq_false ((Table.any_eq_false _ _).mp h.event pk e he)
  time := by decide
  key := by decide
  fundKey := by rw [h.fund.1]; decide
  fundKey_free := by
    rw [h.fund.1, List.isEmpty_iff.mp h.fund.2]
    exact ⟨Nat.one_pos, fun r hr => by cases hr⟩

/-- The sample services are in order. -/
theorem sample_operational : Operational sampleConfig where
  platform := by rfl
  authorized := by rfl
  jsonb _ _ _ := by rfl

/-- The state after the work: a completed proposal, not settled yet. -/
structure CompletedFacts (db : Db) : Prop where
  proposal : (db.proposals.get? 1).map (fun p => (p.case, p.building, p.status)) =
    some (some 1, 1, .completed)
  unsettled : db.settlements.rows.isEmpty = true
  standalone : db.proposals.any (fun p => p.case = none) = false
  settle : SettleFacts db

instance (db : Db) : Decidable (CompletedFacts db) :=
  decidable_of_iff (_ ∧ _ ∧ _ ∧ _)
    ⟨fun ⟨h₁, h₂, h₃, h₄⟩ => ⟨h₁, h₂, h₃, h₄⟩, fun ⟨h₁, h₂, h₃, h₄⟩ => ⟨h₁, h₂, h₃, h₄⟩⟩

/-- The state after the settlement of a proposal with this case: a published entry, and a quotation
that is altered. -/
structure EntryFacts (case : Option ℕ) (db : Db) : Prop where
  proposal : (db.proposals.get? 1).map (fun p => p.building) = some 1
  entry : (db.ledger.get? 1).map (fun l => (l.case, l.proposal)) = some (case, 1)
  member : (db.memberships.get? 1).any (fun m => m.user = 7 && m.building = 1 && m.active) = true
  altered : (verifyPublishedEntry sampleConfig db 8000 1 (alteredStorage (.ok ⟨#[2]⟩))
    disabledChain).toOption.any (fun r => (r.2.observations.get? r.1).any fun o =>
      o.result = .mismatch) = true

instance (case : Option ℕ) (db : Db) : Decidable (EntryFacts case db) :=
  decidable_of_iff (_ ∧ _ ∧ _ ∧ _)
    ⟨fun ⟨h₁, h₂, h₃, h₄⟩ => ⟨h₁, h₂, h₃, h₄⟩, fun ⟨h₁, h₂, h₃, h₄⟩ => ⟨h₁, h₂, h₃, h₄⟩⟩

/-- The proposal is in progress, and its case is closed. -/
def Stranded (db : Db) : Prop :=
  (db.proposals.get? 1).map (fun p => (p.case, p.status)) = some (some 1, .inProgress) ∧
    (db.cases.get? 1).map (fun c => c.active) = some false

instance (db : Db) : Decidable (Stranded db) := inferInstanceAs (Decidable (_ ∧ _))

/-- What the state after the decision holds, and what the next calls lead to from it. -/
structure DecidedFacts (db : Db) : Prop where
  proposal : (db.proposals.get? 1).map (fun p => (p.case, p.building, p.status)) =
    some (some 1, 1, .inProgress)
  member : (db.memberships.get? 1).any (fun m => m.user = 7 && m.building = 1 && m.active) = true
  completed : (Db.step sampleConfig db (.completeCaseWork 5000 1 7 "Worn cable".toList
    "Replaced".toList)).any (fun db' => CompletedFacts db' ∧ (Db.step sampleConfig db'
      (.recordSettlement 7000 1 7 (some 2) sampleSettlementId)).any (EntryFacts (some 1) ·)
        = true) = true
  declined : (Db.step sampleConfig db (.declineReport 5000 1 7 "Duplicate".toList)).any
    (Stranded ·) = true

instance (db : Db) : Decidable (DecidedFacts db) :=
  decidable_of_iff (_ ∧ _ ∧ _ ∧ _)
    ⟨fun ⟨h₁, h₂, h₃, h₄⟩ => ⟨h₁, h₂, h₃, h₄⟩, fun ⟨h₁, h₂, h₃, h₄⟩ => ⟨h₁, h₂, h₃, h₄⟩⟩

theorem decided_case_run : ∃ db, run (Db.step sampleConfig) Db.empty decidedCase = some db ∧
    DecidedFacts db := by
  have hrun : (run (Db.step sampleConfig) Db.empty decidedCase).any (DecidedFacts ·) = true := by
    decide +kernel
  obtain ⟨db, hdb, hfacts⟩ := (Option.any_eq_true _ _).mp hrun
  exact ⟨db, hdb, of_decide_eq_true hfacts⟩

/-- The sample decision is carried out, up to the settlement. -/
theorem spending_decision_carried_out_sample : ∃ db db' : Db, db.Reachable sampleConfig ∧
    completeCaseWork sampleConfig.unicode db 5000 1 7 "Worn cable".toList "Replaced".toList =
      .ok db' ∧ (db'.proposals.get? 1).map (fun p => p.status) = some .completed ∧
    ∃ settlement db'', recordSettlement sampleConfig db' 7000 1 7 (some 2) sampleSettlementId =
      .ok (settlement, db'') := by
  obtain ⟨db, hrun, hfacts⟩ := decided_case_run
  have hok : ∀ a ∈ decidedCase, ∀ u : Db, strandsSpending u a = false := by
    simp [decidedCase, openedCase, strandsSpending]
  have hreach := reaches_of_run_where _ hok hrun
  obtain ⟨p, hp, hrow⟩ := Option.map_eq_some_iff.mp hfacts.proposal
  obtain ⟨hcase, hbuilding, hstatus⟩ := by simpa using hrow
  obtain ⟨db', hstep, hboth⟩ := (Option.any_eq_true _ _).mp hfacts.completed
  obtain ⟨hcompleted, _⟩ := of_decide_eq_true hboth
  obtain ⟨_, hout⟩ := spending_decision_carried_out hreach 1 1 p hp hcase hstatus
  have hmanager : ActiveManager db p.building 7 := by
    obtain ⟨m, hm, hmember⟩ := (Option.any_eq_true _ _).mp hfacts.member
    simp only [Bool.and_eq_true, decide_eq_true_eq] at hmember
    rw [hbuilding]
    exact ⟨1, m, hm, hmember.1.2, hmember.2, hmember.1.1⟩
  obtain ⟨mid, hdone, hp', hsettle⟩ := hout 5000 7 "Worn cable".toList "Replaced".toList hmanager
    ⟨by decide, by decide⟩ ⟨by decide, by decide⟩
  have hmid : mid = db' := by
    have hdb' := returnedDb_eq_some _ _ hstep
    rw [hdone] at hdb'
    cases hdb'
    rfl
  subst hmid
  rw [hbuilding] at hsettle
  refine ⟨db, mid, hreach.always, hdone, by rw [hp']; rfl, ?_⟩
  exact hsettle sample_operational 7000 7 (some 2) sampleSettlementId hcompleted.settle.settlesWith

/-- Declining the only report of the case closes it under the proposal. -/
theorem spending_decision_stranded : ∃ db : Db, db.Reachable sampleConfig ∧
    (∃ p, db.proposals.get? 1 = some p ∧ p.case = some 1 ∧ p.status = .inProgress) ∧
    (∃ c, db.cases.get? 1 = some c ∧ c.active = false) ∧
    ∀ now manager cause result db',
      completeCaseWork sampleConfig.unicode db now 1 manager cause result ≠ .ok db' := by
  obtain ⟨db, hrun, hfacts⟩ := decided_case_run
  obtain ⟨db', hstep, hstranded⟩ := (Option.any_eq_true _ _).mp hfacts.declined
  obtain ⟨hproposal, hcase⟩ := of_decide_eq_true hstranded
  obtain ⟨p, hp, hrow⟩ := Option.map_eq_some_iff.mp hproposal
  obtain ⟨c, hc, hactive⟩ := Option.map_eq_some_iff.mp hcase
  obtain ⟨hof, hstatus⟩ := Prod.mk.inj hrow
  have hreach : db'.Reachable sampleConfig := (reaches_of_run _ hrun).tail ⟨_, trivial, hstep⟩
  refine ⟨db', hreach, ⟨p, hp, hof, hstatus⟩, ⟨c, hc, hactive⟩, ?_⟩
  intro now manager cause result done hdone
  simp only [completeCaseWork, bind_eq_ok] at hdone
  obtain ⟨row, hrow, _⟩ := hdone
  obtain ⟨hget, hopen, _⟩ := startedCase_eq_ok _ _ _ hrow
  cases hc.symm.trans hget
  rw [hactive] at hopen
  cases hopen

end LamTo.Analysis
