import LamTo.Model.Database

/-!
# The open mismatches of a building

The embedding of `mismatched_ledger_entry_ids` in `web/action_inbox.py`, which the inbox and the
exceptions page share. The query sorts by time alone, so the database may return observations of
one time in any order: the loop is a function of the rows it was given, and `MismatchRows` says
which rows it may be given.

SOURCE: src/lamto/web/action_inbox.py:257-298
-/

set_option autoImplicit false

namespace LamTo.Model

open LamTo.Library

/-- `published_entry__proposal__building_id` -/
def entryBuilding (db : Db) (entry : ℕ) : Option ℕ := do
  let row ← db.ledger.get? entry
  let proposal ← db.proposals.get? row.proposal
  some proposal.building

/-- The mismatch observations of a building. SOURCE: action_inbox.py:263-266 -/
def buildingMismatches (db : Db) (building : ℕ) : List (ℕ × VerificationObservation) :=
  db.observations.rows.filter fun r =>
    decide (r.2.result = .mismatch) && decide (entryBuilding db r.2.publishedEntry = some building)

/-- What `.order_by("-observed_at")` may return of them. -/
structure MismatchRows (db : Db) (building : ℕ) (rows : List (ℕ × VerificationObservation)) :
    Prop where
  perm : rows.Perm (buildingMismatches db building)
  newestFirst : rows.Pairwise fun a b => b.2.observedAt ≤ a.2.observedAt

/-- `.order_by("-observed_at", "-pk")` -/
def isNewer (a b : ℕ × VerificationObservation) : Prop :=
  b.2.observedAt < a.2.observedAt ∨ b.2.observedAt = a.2.observedAt ∧ b.1 ≤ a.1

instance (a b : ℕ × VerificationObservation) : Decidable (isNewer a b) :=
  inferInstanceAs (Decidable (_ ∨ _))

/-- `latest` of the loop. SOURCE: action_inbox.py:271-277 -/
def latestObservation (db : Db) (entry : ℕ) : Option (ℕ × VerificationObservation) :=
  ((db.observations.select fun o => o.publishedEntry = entry).insertionSort isNewer).head?

/-- The latest observation of the entry is a mismatch. -/
def isOpenMismatch (db : Db) (entry : ℕ) : Bool :=
  (latestObservation db entry).any fun r => r.2.result = .mismatch

/-- The loop over the rows. SOURCE: action_inbox.py:267-281 -/
def collectMismatches (db : Db) :
    List ℕ → List (ℕ × VerificationObservation) → List ℕ
  | entryIds, [] => entryIds
  | entryIds, obs :: rows =>
    if obs.2.publishedEntry ∈ entryIds then collectMismatches db entryIds rows
    else if isOpenMismatch db obs.2.publishedEntry then
      collectMismatches db (entryIds ++ [obs.2.publishedEntry]) rows
    else collectMismatches db entryIds rows

/-- `mismatched_ledger_entry_ids`, on the rows the query returns. -/
def mismatchedLedgerEntryIds (db : Db) (rows : List (ℕ × VerificationObservation)) (limit : ℕ) :
    List ℕ :=
  collectMismatches db [] (rows.take limit)

end LamTo.Model
