import LamTo.Analysis.FinanceSteps

/-!
# What a step does to proposals

`ProposalChange` lists the five writes a proposal row ever sees, each with the guard the
service tested and the call that made it; `ProposalAdded` the two ways a row comes to be.
`proposals_changed` says that every step of the system changes proposals in these ways only.

SOURCE: src/lamto/finance/proposals.py:199-295, 410-412, src/lamto/maintenance/cases.py:103-180
-/

set_option autoImplicit false

namespace LamTo.Analysis

open LamTo.Library LamTo.Model

/-- The writes to a proposal. -/
inductive ProposalChange (db : Db) (pk : ℕ) (p : Proposal) : Command → Proposal → Prop where
  | kept (a : Command) : ProposalChange db pk p a p
  | decided (now manager membership : ℕ) (proceed : Bool) (note stored : Text)
      (published : p.status = .published) :
      ProposalChange db pk p (.decideProposal now pk manager (.bool proceed) note)
        (Proposal.decide now membership proceed stored p)
  | decidedInView (now manager membership : ℕ) (proceed : Bool) (note stored : Text)
      (published : p.status = .published) :
      ProposalChange db pk p (.decideAndStart now pk manager proceed note)
        (Proposal.decide now membership proceed stored p)
  | completed (a : Command) (now : ℕ) (inProgress : p.status = .inProgress) :
      ProposalChange db pk p a { p with status := .completed, completedAt := some now }
  | closed (now : ℕ) (closing : closingProposal db now pk p = true) :
      ProposalChange db pk p (.closeExpiredCompletedCases now)
        { p with status := .closed, closedAt := some now }
  | published (now creator : ℕ) (args : Publication) (token : Option Text)
      (unfinished : p.status = .draft ∨ p.status = .published ∨ p.status = .inProgress) :
      ProposalChange db pk p (.publishProposalVersion now pk creator args)
        { p with currentVersion := some db.versions.next, status := .published,
                 publicToken := token.or p.publicToken }

/-- The ways a proposal is created. -/
inductive ProposalAdded (db : Db) : Command → Proposal → Prop where
  | forCase (now case creator membership : ℕ) (row : MaintenanceCase)
      (case_get : db.cases.get? case = some row) (workable : Workable row)
      (community : hasReport db case (·.isPrivate) = false)
      (first : ∀ pk p, db.proposals.get? pk = some p → p.case ≠ some case) :
      ProposalAdded db (.createProposal now case creator)
        (.draft now (some case) row.building membership)
  | standalone (now building creator membership : ℕ) (member : Membership)
      (member_get : db.memberships.get? membership = some member)
      (building_eq : member.building = building) :
      ProposalAdded db (.createStandaloneProposal now building creator)
        (.draft now none building membership)

def ProposalsChanged (db : Db) (a : Command) (db' : Db) : Prop :=
  db.proposals.Evolves db'.proposals (fun pk p => ProposalChange db pk p a) (ProposalAdded db a)

/-- No write moves a proposal to another case or building. -/
theorem ProposalChange.case_eq (db : Db) (pk : ℕ) (p p' : Proposal) (a : Command)
    (h : ProposalChange db pk p a p') : p'.case = p.case := by
  cases h with
  | _ => rfl

theorem ProposalChange.building_eq (db : Db) (pk : ℕ) (p p' : Proposal) (a : Command)
    (h : ProposalChange db pk p a p') : p'.building = p.building := by
  cases h with
  | _ => rfl

/-- No proposal is written. -/
theorem ProposalsChanged.of_eq (db db' : Db) (a : Command)
    (h : ∀ pk, db'.proposals.get? pk = db.proposals.get? pk) : ProposalsChanged db a db' :=
  Table.Evolves.of_eq (fun _ _ => .kept a) h

/-- One proposal is written. -/
theorem ProposalsChanged.of_update (db db' : Db) (a : Command) (proposal : ℕ) (row : Proposal)
    (f : Proposal → Proposal) (hrow : db.proposals.get? proposal = some row)
    (h : db'.proposals = db.proposals.update proposal f)
    (hf : ProposalChange db proposal row a (f row)) : ProposalsChanged db a db' := by
  refine Table.Evolves.of_update (fun _ _ => .kept a) proposal f h fun p hp => ?_
  cases hrow.symm.trans hp
  exact hf

/-- A decision, by the service or by the view. -/
theorem ProposalsChanged.of_decided (db mid : Db) (now proposal manager : ℕ) (proceed : Bool)
    (note : Text) (h : WorkStep db (.decideProposal now proposal manager (.bool proceed) note) mid) :
    ProposalsChanged db (.decideAndStart now proposal manager proceed note) mid := by
  cases h with
  | noted _ _ _ _ _ _ hnote => cases hnote
  | decided _ _ _ _ _ _ stored row membership _ hrow hpublished =>
    exact .of_update db _ _ proposal row _ hrow rfl
      (.decidedInView now manager membership proceed note stored hpublished)

/-- Starting work writes no proposal. -/
theorem WorkStep.started_proposals (db db' : Db) (now case manager : ℕ)
    (h : WorkStep db (.startCaseWork now case manager) db') : db'.proposals = db.proposals := by
  cases h with
  | noted _ _ _ _ _ _ hnote => cases hnote
  | started => rfl

/-- **What a service of the maintenance side does to proposals.** -/
theorem WorkStep.proposals_changed (db db' : Db) (a : Command) (h : WorkStep db a db') :
    ProposalsChanged db a db' := by
  induction h with
  | finishedProposal db now proposal manager cause result row _ _ hrow _ hinProgress =>
    exact .of_update db _ _ proposal row _ hrow rfl (.completed _ now hinProgress)
  | finishedCase db now case =>
    obtain ⟨proposals, heq, hrows⟩ := completeCaseProposal_eq
      { db with cases := db.cases.update case fun c => { c with completedAt := some now } } case now
    rw [heq]
    refine Table.Evolves.of_rows (fun _ _ => .kept _) fun pk => ?_
    rcases hrows pk with hsame | ⟨p, hp, _, hinProgress, hdone⟩
    · exact .inl hsame
    · exact .inr ⟨p, _, hp, hdone, .completed _ now hinProgress⟩
  | expired db now =>
    obtain ⟨cases, reports, proposals, heq, _, _, hproposals⟩ := closeExpiredCompletedCases_eq db now
    rw [heq]
    refine Table.Evolves.of_map _ hproposals fun pk p _ => ?_
    split
    · next hclosing => exact .closed now hclosing
    · exact .kept _
  | rated db now resident case satisfied comment row ratings audit =>
    unfold closeRatedCase
    split
    · exact .of_eq db _ _ fun _ => rfl
    · exact .of_eq db _ _ fun _ => rfl
  | proposed db now case creator row membership audit hcase hworkable hcommunity _ hfirst =>
    exact Table.Evolves.of_insert (fun _ _ => .kept _) _ rfl
      (.forCase now case creator membership row hcase hworkable hcommunity hfirst)
  | drafted db now building creator membership member _ hmember hbuilding =>
    exact Table.Evolves.of_insert (fun _ _ => .kept _) _ rfl
      (.standalone now building creator membership member hmember hbuilding)
  | decided db now proposal manager proceed note stored row membership _ hrow hpublished =>
    exact .of_update db _ _ proposal row _ hrow rfl
      (.decided now manager membership proceed note stored hpublished)
  | decidedOnly db db' now proposal manager proceed note row _ _ hdecided =>
    exact .of_decided db db' now proposal manager proceed note hdecided
  | decidedAndStarted db mid db' now proposal manager case note row _ _ hdecided hstarted =>
    have hchanged := ProposalsChanged.of_decided db mid now proposal manager true note hdecided
    rw [ProposalsChanged, hstarted.started_proposals]
    exact hchanged
  | _ => exact .of_eq _ _ _ fun _ => rfl

/-- **What a step does to proposals**, whichever service is called. -/
theorem proposals_changed (C : EvidenceConfig) (db db' : Db) (a : Command)
    (h : Db.step C db a = some db') : ProposalsChanged db a db' := by
  cases service_effect C db db' a h with
  | setup _ hsetup => exact .of_eq db db' a (Table.get?_congr _ _ hsetup.proposals)
  | work _ hwork => exact hwork.proposals_changed db db' a
  | publish creator args p =>
    have hproposals := congrArg (fun d : Db => d.proposals) p.result
    exact .of_update db db' _ p.proposal p.row _ p.row_get hproposals
      (.published p.now creator args p.token p.row_open)
  | settle now member transfer eventId s => exact .of_eq db db' _ fun _ => by rw [s.result]
  | openFund building fund funds _ result => exact .of_eq db db' _ fun _ => by rw [result]
  | record now entryType amountVnd evidence recorder fundEntryId aware r =>
    exact .of_eq db db' _ fun _ => by rw [r.result]
  | verify now verifier v => exact .of_eq db db' _ fun _ => by rw [v.result]

end LamTo.Analysis
