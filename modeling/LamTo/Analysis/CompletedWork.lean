import LamTo.Analysis.SpendingDecisions

/-!
# Completed work waits for its settlement

Two services end the life of a completed proposal: `record_settlement`, which settles it, and
the nightly closer, which closes standalone proposals once the rating window is over. The
closer looks at a settlement only to wait for a later one; a proposal without any is closed,
and a closed proposal cannot be settled. `closesUnsettled` names that call.

* **One step** (`CompletedOrSettled.step`): no other call moves a completed proposal.
* **A run** (`completed_work_stays_settleable`): what is completed and not settled is still
  completed, and a settlement of it is accepted, posted to the fund and published.

SOURCE: src/lamto/maintenance/cases.py:103-116, 150-180, src/lamto/finance/settlements.py:39-46
-/

set_option autoImplicit false

namespace LamTo.Analysis

open LamTo.Library LamTo.Model

variable {C : EvidenceConfig} {db db' : Db} {a : Command}

/-- The proposal has a settlement. -/
def settled (db : Db) (proposal : ℕ) : Bool := db.settlements.any fun s => s.proposal = proposal

/-- The closer is about to close a completed proposal that has no settlement. -/
def closesUnsettled (db : Db) : Command → Bool
  | .closeExpiredCompletedCases now =>
    db.proposals.rows.any fun r => closingProposal db now r.1 r.2 && !settled db r.1
  | _ => false

/-- A proposal that is completed, or settled since. -/
def CompletedOrSettled (building pk : ℕ) (db : Db) : Prop :=
  ∃ p, db.proposals.get? pk = some p ∧ p.building = building ∧
    (settled db pk = true ∨ p.status = .completed)

theorem settled_mono (hext : Extends db db') (pk : ℕ) (h : settled db pk = true) :
    settled db' pk = true := by
  obtain ⟨key, s, hs, hproposal⟩ := (Table.any_eq_true _ _).mp h
  exact (Table.any_eq_true _ _).mpr ⟨key, s, hext.settlements key s hs, hproposal⟩

/-- **One step keeps a completed proposal completed**, unless it settles or closes it. -/
theorem CompletedOrSettled.step (hchain : ChainInv db) (building pk : ℕ)
    (hinv : CompletedOrSettled building pk db) (hok : closesUnsettled db a = false)
    (h : Db.step C db a = some db') : CompletedOrSettled building pk db' := by
  obtain ⟨p, hp, hbuilding, hstate⟩ := hinv
  have hext := (bookStep_of_step C db db' a h).extends hchain.ownership
  obtain ⟨p', hp', hchange⟩ := (proposals_changed C db db' a h).kept pk p hp
  refine ⟨p', hp', (hchange.building_eq db pk p p' a).trans hbuilding, ?_⟩
  rcases hstate with hsettled | hcompleted
  · exact .inl (settled_mono hext pk hsettled)
  · cases hchange with
    | kept => exact .inr hcompleted
    | decided _ _ _ _ _ _ hpublished => rw [hcompleted] at hpublished; cases hpublished
    | decidedInView _ _ _ _ _ _ hpublished => rw [hcompleted] at hpublished; cases hpublished
    | completed _ _ hinProgress => rw [hcompleted] at hinProgress; cases hinProgress
    | closed now hclosing =>
      rw [closesUnsettled, List.any_eq_false] at hok
      have hnot := hok (pk, p) ((Table.get?_eq_some _ _ _).mp hp)
      rw [hclosing, Bool.true_and, Bool.not_eq_true, Bool.not_eq_false'] at hnot
      exact .inl (settled_mono hext pk hnot)
    | published _ _ _ _ hopen =>
      rw [hcompleted] at hopen
      rcases hopen with hdraft | hpublished | hinProgress
      · cases hdraft
      · cases hpublished
      · cases hinProgress

/-- **Completed work stays settleable.** A proposal that is completed and not settled yet, after
any run in which the closer closes no unsettled proposal, is still completed; and a settlement
of it is accepted, posted to the fund and published. -/
theorem completed_work_stays_settleable (hreach : db.Reachable C) (pk : ℕ) (p : Proposal)
    (hp : db.proposals.get? pk = some p) (hcompleted : p.status = .completed)
    (hrun : Reaches (Db.step C) (fun db a => closesUnsettled db a = false) db db')
    (hunsettled : settled db' pk = false) :
    ∃ p', db'.proposals.get? pk = some p' ∧ p'.status = .completed ∧
      (Operational C → ∀ now member transfer eventId,
        SettlesWith db' p.building now pk member transfer eventId →
        ∃ settlement db'' key s, recordSettlement C db' now pk member transfer eventId =
            .ok (settlement, db'') ∧ db''.settlements.get? key = some s ∧ s.proposal = pk ∧
          (∃ entry fund, db''.fundEntries.get? entry = some (outflowEntry fund s)) ∧
          db''.ledger.any (fun l => l.proposal = pk) = true) := by
  have hboth : ChainInv db' ∧ CompletedOrSettled p.building pk db' := by
    refine hrun.preserves (fun u => ChainInv u ∧ CompletedOrSettled p.building pk u) ?_ ?_
    · rintro u a v ⟨hchain, hinv⟩ hok hstep
      exact ⟨hchain.step (bookStep_of_step C u v a hstep), hinv.step hchain _ pk hok hstep⟩
    · exact ⟨ChainInv.reachable hreach, p, hp, rfl, .inr hcompleted⟩
  obtain ⟨_, p', hp', hbuilding, hstate⟩ := hboth
  have hstatus : p'.status = .completed := by
    rcases hstate with hsettled | hcompleted'
    · rw [hunsettled] at hsettled
      cases hsettled
    · exact hcompleted'
  refine ⟨p', hp', hstatus, fun hop now member transfer eventId hargs => ?_⟩
  rw [← hbuilding] at hargs
  have hreach' : db'.Reachable C := hreach.trans hrun.always
  have hnone : ∀ key s, db'.settlements.get? key = some s → s.proposal ≠ pk := by
    intro key s hs
    exact of_decide_eq_false ((Table.any_eq_false _ _).mp hunsettled key s hs)
  obtain ⟨settlement, db'', hsettle⟩ := recordSettlement_accepts hop hreach' now pk member transfer
    eventId p' hp' hstatus hnone hargs
  obtain ⟨s, hproposal⟩ := recordSettlement_eq_ok _ _ _ _ _ _ _ _ settlement hsettle
  have hreach'' : db''.Reachable C := by
    refine hreach'.tail ⟨.recordSettlement now pk member transfer eventId, trivial, ?_⟩
    show returned (recordSettlement C db' now pk member transfer eventId) = some db''
    rw [hsettle]
    rfl
  have hfund := FundInv.reachable hreach''
  have hstored : db''.settlements.get? db'.settlements.next = some s.stored := by
    rw [s.settlements_get, if_pos rfl]
  have hof : s.stored.proposal = pk := hproposal
  have hpublished := hfund.published _ _ hstored
  rw [hof] at hpublished
  exact ⟨settlement, db'', _, s.stored, hsettle, hstored, hof, hfund.posted _ _ hstored, hpublished⟩

/-- The closer passes over the completed proposal of a case, which is settled afterwards. -/
theorem completed_work_stays_settleable_closer : ∃ db db' : Db, db.Reachable sampleConfig ∧
    Db.step sampleConfig db (.closeExpiredCompletedCases (5000 + ratingWindow)) = some db' ∧
    ∃ settlement db'', recordSettlement sampleConfig db' 7000 1 7 (some 2) sampleSettlementId =
      .ok (settlement, db'') := by
  obtain ⟨start, hrun, hfacts⟩ := decided_case_run
  obtain ⟨db, hstep, hboth⟩ := (Option.any_eq_true _ _).mp hfacts.completed
  obtain ⟨hcompleted, _⟩ := of_decide_eq_true hboth
  have hreach : db.Reachable sampleConfig := (reaches_of_run _ hrun).tail ⟨_, trivial, hstep⟩
  obtain ⟨p, hp, hrow⟩ := Option.map_eq_some_iff.mp hcompleted.proposal
  obtain ⟨hcase, hbuilding, hstatus⟩ := by simpa using hrow
  have hok : closesUnsettled db (.closeExpiredCompletedCases (5000 + ratingWindow)) = false := by
    rw [closesUnsettled, List.any_eq_false]
    intro r hr
    have hlinked := (Table.any_eq_false _ _).mp hcompleted.standalone r.1 r.2
      ((Table.get?_eq_some _ _ _).mpr hr)
    simp only [closingProposal, expiredProposal, hlinked, Bool.false_and]
    decide
  obtain ⟨cases, reports, proposals, heq, _, _, _⟩ :=
    closeExpiredCompletedCases_eq db (5000 + ratingWindow)
  let db' : Db := { db with cases, reports, proposals }
  have hclose : Db.step sampleConfig db (.closeExpiredCompletedCases (5000 + ratingWindow)) =
      some db' := by
    rw [Db.step, heq]
  have hunsettled : settled db' 1 = false := by
    rw [settled, Table.any, List.isEmpty_iff.mp hcompleted.unsettled]
    rfl
  obtain ⟨p', hp', _, hsettle⟩ := completed_work_stays_settleable hreach 1 p hp hstatus
    (Relation.ReflTransGen.single ⟨_, hok, hclose⟩) hunsettled
  rw [hbuilding] at hsettle
  -- The closer writes nothing a settlement reads besides the proposal.
  have hargs := hcompleted.settle.settlesWith
  have hargs' : SettlesWith db' 1 7000 1 7 (some 2) sampleSettlementId :=
    ⟨hargs.manager, hargs.proof, hargs.event, hargs.event_new, hargs.time, hargs.key,
      hargs.fundKey, hargs.fundKey_free⟩
  obtain ⟨settlement, db'', _, _, hsettled, _⟩ :=
    hsettle sample_operational 7000 7 (some 2) sampleSettlementId hargs'
  exact ⟨db, db', hreach, hclose, settlement, db'', hsettled⟩

/-! ## A standalone proposal -/

/-- A standalone proposal is drafted. -/
def draftedStandalone : List Command :=
  [.createBuilding, .createMembership 7 1, .createDocument ⟨1, .quotation⟩,
    .createDocument ⟨1, .paymentProof⟩, .createDocumentVersion ⟨1, byteHash 1, true⟩,
    .createDocumentVersion ⟨2, byteHash 2, true⟩, .createStandaloneProposal 500 1 7]

/-- The proposal is published and decided on. -/
def decidedStandalone : List Command :=
  [.publishProposalVersion 1000 1 7 (samplePublication 500 '1'),
    .decideProposal 3000 1 7 (.bool true) []]

/-- The status of a proposal, and when it was decided on. -/
def proposalStatus (db : Db) (proposal : ℕ) : Option (ProposalStatus × Option ℕ) :=
  (db.proposals.get? proposal).map fun p => (p.status, p.decidedAt)

/-- The state after the work of a standalone proposal. -/
structure StandaloneCompletedFacts (db : Db) : Prop where
  status : proposalStatus db 1 = some (.completed, some 3000)
  unsettled : settled db 1 = false
  closed : proposalStatus (closeExpiredCompletedCases db (4000 + ratingWindow)).2 1 =
    some (.closed, some 3000)
  settles : (Db.step sampleConfig db (.recordSettlement 7000 1 7 (some 2) sampleSettlementId)).any
    (EntryFacts none ·) = true

instance (db : Db) : Decidable (StandaloneCompletedFacts db) :=
  decidable_of_iff (_ ∧ _ ∧ _ ∧ _)
    ⟨fun ⟨h₁, h₂, h₃, h₄⟩ => ⟨h₁, h₂, h₃, h₄⟩, fun ⟨h₁, h₂, h₃, h₄⟩ => ⟨h₁, h₂, h₃, h₄⟩⟩

/-- A further version is published, under the old decision. -/
def Republished (db : Db) : Prop :=
  (db.proposals.get? 1).any (fun p => p.status = .published && p.decidedBy.isSome &&
    p.decidedAt = some 3000 && (p.currentVersion.bind db.versions.get?).any fun v =>
      v.createdAt = 4000) = true ∧ db.proposals.rows.length = 1

instance (db : Db) : Decidable (Republished db) := inferInstanceAs (Decidable (_ ∧ _))

/-- The state after the decision, and what the next calls lead to from it. -/
structure StandaloneFacts (db : Db) : Prop where
  status : proposalStatus db 1 = some (.inProgress, some 3000)
  republished : (Db.step sampleConfig db (.publishProposalVersion 4000 1 7
    (samplePublication 600 '2'))).any (Republished ·) = true
  completed : (Db.step sampleConfig db (.completeProposalWork 4000 1 7 "Old pipe".toList
    "Replaced".toList)).any (StandaloneCompletedFacts ·) = true

instance (db : Db) : Decidable (StandaloneFacts db) :=
  decidable_of_iff (_ ∧ _ ∧ _)
    ⟨fun ⟨h₁, h₂, h₃⟩ => ⟨h₁, h₂, h₃⟩, fun ⟨h₁, h₂, h₃⟩ => ⟨h₁, h₂, h₃⟩⟩

theorem standalone_run : ∃ draft db, run (Db.step sampleConfig) Db.empty draftedStandalone =
    some draft ∧ proposalStatus draft 1 = some (.draft, none) ∧
    run (Db.step sampleConfig) draft decidedStandalone = some db ∧ StandaloneFacts db := by
  have hrun : (run (Db.step sampleConfig) Db.empty draftedStandalone).any (fun draft =>
      proposalStatus draft 1 = some (.draft, none) ∧
      (run (Db.step sampleConfig) draft decidedStandalone).any (StandaloneFacts ·) = true) =
      true := by
    decide +kernel
  obtain ⟨draft, hdraft, hboth⟩ := (Option.any_eq_true _ _).mp hrun
  obtain ⟨hstatus, hrest⟩ := of_decide_eq_true hboth
  obtain ⟨db, hdb, hfacts⟩ := (Option.any_eq_true _ _).mp hrest
  exact ⟨draft, db, hdraft, hstatus, hdb, of_decide_eq_true hfacts⟩

theorem standalone_reachable : ∃ db : Db, db.Reachable sampleConfig ∧ StandaloneFacts db := by
  obtain ⟨draft, db, hdraft, _, hdb, hfacts⟩ := standalone_run
  exact ⟨db, (reaches_of_run _ hdraft).trans (reaches_of_run _ hdb), hfacts⟩

/-- Two weeks after the work the closer shuts the proposal out of its settlement. -/
theorem completed_work_shut_out : ∃ db db' : Db, db.Reachable sampleConfig ∧
    Db.step sampleConfig db (.closeExpiredCompletedCases (4000 + ratingWindow)) = some db' ∧
    (∃ p, db.proposals.get? 1 = some p ∧ p.status = .completed) ∧ settled db 1 = false ∧
    (∃ p', db'.proposals.get? 1 = some p' ∧ p'.status = .closed) ∧ settled db' 1 = false ∧
    ∀ now member transfer eventId settlement db'',
      recordSettlement sampleConfig db' now 1 member transfer eventId ≠ .ok (settlement, db'') := by
  obtain ⟨start, hstart, hfacts⟩ := standalone_reachable
  obtain ⟨db, hstep, hcompleted⟩ := (Option.any_eq_true _ _).mp hfacts.completed
  have hcompleted := of_decide_eq_true hcompleted
  have hreach : db.Reachable sampleConfig := hstart.tail ⟨_, trivial, hstep⟩
  obtain ⟨p, hp, hstatus⟩ := Option.map_eq_some_iff.mp hcompleted.status
  obtain ⟨p', hp', hstatus'⟩ := Option.map_eq_some_iff.mp hcompleted.closed
  have hclosed := (Prod.mk.inj hstatus').1
  obtain ⟨cases, reports, proposals, heq, _, _, _⟩ :=
    closeExpiredCompletedCases_eq db (4000 + ratingWindow)
  refine ⟨db, _, hreach, rfl, ⟨p, hp, (Prod.mk.inj hstatus).1⟩, hcompleted.unsettled,
    ⟨p', hp', hclosed⟩, ?_, ?_⟩
  · rw [heq]
    exact hcompleted.unsettled
  · intro now member transfer eventId settlement db'' hsettle
    obtain ⟨s, hproposal⟩ := recordSettlement_eq_ok _ _ _ _ _ _ _ _ settlement hsettle
    have hrow := s.row_get
    have hcompleted := s.row_completed
    rw [hproposal] at hrow
    cases hp'.symm.trans hrow
    rw [hclosed] at hcompleted
    cases hcompleted

end LamTo.Analysis
