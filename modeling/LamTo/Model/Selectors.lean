import LamTo.Model.Proposals

/-!
# Readers of proposals and decisions

The embedding of what the pages read: the cases a spending proposal may be made for, the
decision shown with a proposal, and the inbox items that ask for one. The texts are those
before translation; the links of the items are left out.

SOURCE: src/lamto/finance/proposals.py, src/lamto/finance/selectors.py,
src/lamto/web/action_inbox.py
-/

set_option autoImplicit false

namespace LamTo.Model

open LamTo.Library

/-- `spending_proposal_cases`: the keys of the cases. Each `exclude` drops a case with a linked
report of the kind. SOURCE: proposals.py:27-34 -/
def spendingProposalCases (db : Db) : List ℕ :=
  ((db.cases.select fun c => c.active && c.completedAt = none).map Prod.fst).filter fun case =>
    !hasReport db case (·.isPrivate) && !hasReport db case (fun r => r.status = .inProgress)

/-- What `proceed_decision` returns; the decider is given by the user of the membership. -/
structure ProceedDecision where
  decidedBy : Option ℕ
  decidedAt : Option ℕ
deriving DecidableEq

/-- `proceed_decision`. SOURCE: selectors.py:288-303 -/
def proceedDecision (db : Db) (proposal : Option Proposal) : Option ProceedDecision :=
  match proposal with
  | none => none
  | some p =>
    match p.decidedBy with
    | none => none
    | some membership =>
      if p.status = .notProceeding then none
      else some ⟨(db.memberships.get? membership).map (·.user), p.decidedAt⟩

/-- `ActionItem`. -/
structure ActionItem where
  kind : Text
  title : Text
  summary : Text
  targetType : Text
  targetId : ℕ
  priority : ℕ
deriving DecidableEq

/-- The item that asks for a decision. SOURCE: action_inbox.py:242-248 -/
def proposalDecisionItem (proposal : ℕ) : ActionItem where
  kind := "proposal_decision".toList
  title := "Proposal decision".toList
  summary := "Proposal #".toList ++ Nat.toDigits 10 proposal ++
    " awaits a proceed decision".toList
  targetType := "Proposal".toList
  targetId := proposal
  priority := 16

/-- `_proposal_decision_items`: the first thirty, oldest first. SOURCE: action_inbox.py:241-250 -/
def proposalDecisionItems (db : Db) (building : ℕ) : List ActionItem :=
  let proposals := (db.proposals.select fun p =>
    p.building = building && p.status = .published && p.decidedAt = none).insertionSort
      fun a b => a.2.createdAt ≤ b.2.createdAt
  (proposals.take 30).map fun r => proposalDecisionItem r.1

end LamTo.Model
