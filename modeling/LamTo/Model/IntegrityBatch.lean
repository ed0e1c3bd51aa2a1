import LamTo.Model.Integrity

/-!
# The integrity batch of the worker

Each cycle of the worker checks some published entries. The entries without an observation are
read once, before the loop; each check is a transaction of its own, and one that raises is logged
and leaves nothing. `now` is the time of each check, by entry.

SOURCE: src/lamto/config/worker.py:21-26, 70-94
-/

set_option autoImplicit false

namespace LamTo.Model

open LamTo.Library

structure ProcessorResult where
  name : String
  ok : Bool
  detail : Text
  count : ℕ
deriving DecidableEq

/-- The entry has an observation. -/
def observed (db : Db) (entry : ℕ) : Bool := db.observations.any fun o => o.publishedEntry = entry

/-- `order_by("published_at", "pk")` -/
def entriesInOrder (db : Db) : List (ℕ × PublishedLedgerEntry) :=
  db.ledger.rows.insertionSort fun a b =>
    a.2.publishedAt < b.2.publishedAt ∨ a.2.publishedAt = b.2.publishedAt ∧ a.1 ≤ b.1

/-- The entries without an observation, in order. SOURCE: worker.py:76-83 -/
def unobservedEntries (db : Db) : List ℕ :=
  ((entriesInOrder db).map Prod.fst).filter fun entry => !observed db entry

/-- `pending` -/
def pendingEntries (db : Db) (limit : ℕ) : List ℕ := (unobservedEntries db).take limit

/-- The loop: how many checks returned. SOURCE: worker.py:84-90 -/
def verifyEntries (C : EvidenceConfig) (now : ℕ → ℕ) (storage : Storage) (chain : ChainAccess) :
    List ℕ → Db → Db × ℕ
  | [], db => (db, 0)
  | entry :: entries, db =>
    match verifyPublishedEntry C db (now entry) entry storage chain with
    | .ok (_, db) =>
      let (db, count) := verifyEntries C now storage chain entries db
      (db, count + 1)
    | .error _ => verifyEntries C now storage chain entries db

/-- `process_integrity_batch`. SOURCE: worker.py:70-94 -/
def processIntegrityBatch (C : EvidenceConfig) (db : Db) (limit : ℕ) (now : ℕ → ℕ)
    (storage : Storage) (chain : ChainAccess) : Db × ProcessorResult :=
  let (db, count) := verifyEntries C now storage chain (pendingEntries db limit) db
  (db, ⟨"integrity", true, "checked=".toList ++ decimal count, count⟩)

/-- Consecutive runs of the batch, each with its own clock. -/
def integrityRuns (C : EvidenceConfig) (limit : ℕ) (storage : Storage) (chain : ChainAccess) :
    List (ℕ → ℕ) → Db → Db
  | [], db => db
  | now :: rest, db =>
    integrityRuns C limit storage chain rest
      (processIntegrityBatch C db limit now storage chain).1

end LamTo.Model
