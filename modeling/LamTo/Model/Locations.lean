import LamTo.Model.Submissions

/-!
# The locations a resident is offered

The embedding of `active_location_tree`: the active locations of a building, in the order the
database gives them. A location without a parent has no `parent_id`, and PostgreSQL puts rows
without a value after the others. How names compare is the collation of the database.

SOURCE: src/lamto/maintenance/selectors.py:112-117
-/

set_option autoImplicit false

namespace LamTo.Model

open LamTo.Library

/-- The order of names; two names are equal in it only when they are the same text. -/
structure Collation where
  le : Text → Text → Bool
  le_total : ∀ a b, le a b || le b a
  le_trans : ∀ a b c, le a b → le b c → le a c
  le_antisymm : ∀ a b, le a b → le b a → a = b

/-- `ORDER BY name, id` -/
def Collation.nameThenKey (C : Collation) (a b : ℕ × Place) : Bool :=
  if a.2.name = b.2.name then a.1 ≤ b.1 else C.le a.2.name b.2.name

/-- `ORDER BY parent_id, name, id`, the rows without a parent last. -/
def Collation.locationLe (C : Collation) (a b : ℕ × Place) : Bool :=
  match a.2.parent, b.2.parent with
  | some p, some q => if p = q then C.nameThenKey a b else p < q
  | some _, none => true
  | none, some _ => false
  | none, none => C.nameThenKey a b

/-- `active_location_tree`. SOURCE: selectors.py:112-117 -/
def activeLocationTree (C : Collation) (places : Table Place) (building : ℕ) :
    List (ℕ × Place) :=
  (places.rows.filter fun r => decide (r.2.building = building) && r.2.active).mergeSort
    C.locationLe

end LamTo.Model
