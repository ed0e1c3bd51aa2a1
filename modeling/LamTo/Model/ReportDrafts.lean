import Mathlib.Data.List.AList

/-!
# Drafts of reports on the phone

The embedding of `ReportDraftStore` of the resident application. A write or a clear of a draft is
an operation that is chained after the one enqueued before it for the same occupancy; `clearAll`
waits for the chains until there are none and removes every draft.

* An operation waits for the one it is chained after, failed or not. It then waits for the
  preferences, changes them in one call, and completes when that call does. It may fail before the
  change or after it.
* Between two steps of one operation or of one call of `clearAll` any other step may happen: that
  is the order in which the event loop takes them.
* A draft is a value of any type. The preferences that are kept under the same prefix for replies
  are left out; `clearAll` does not wait for their writes.
* A call of `clearAll` records how many operations had been enqueued when it was made and when
  the last chain was gone. The application does not keep these numbers.

SOURCE: src/app/lib/features/reports/report_draft.dart:86-214
-/

set_option autoImplicit false

namespace LamTo.Model

/-- How far an operation is; `settled` says whether it changed the preferences. -/
inductive OpStage where
  | waiting
  | running
  | applied
  | settled (changed : Bool)
deriving DecidableEq

def OpStage.isSettled : OpStage → Bool
  | .settled _ => true
  | _ => false

/-- The operation has changed the preferences. -/
def OpStage.taken : OpStage → Bool
  | .applied => true
  | .settled changed => changed
  | _ => false

/-- `write` of a draft, or `clear`; `previous` is the operation it is chained after. -/
structure DraftOp (V : Type) where
  occupancy : ℕ
  draft : Option V
  previous : Option ℕ
  stage : OpStage
deriving DecidableEq

/-- How far a call of `clearAll` is. -/
inductive ClearPhase where
  | waiting (pending : List ℕ)
  | drained (mark : ℕ)
  | removing (mark : ℕ) (keys : List ℕ)
  | finished (mark : ℕ)
deriving DecidableEq

structure ClearCall where
  called : ℕ
  phase : ClearPhase
deriving DecidableEq

/-- Operations in the order they were enqueued; `chains` is `_writeChains`. -/
structure DraftStore (V : Type) where
  ops : List (DraftOp V)
  chains : AList fun _ : ℕ => ℕ
  prefs : AList fun _ : ℕ => V
  clears : List ClearCall

inductive DraftAction (V : Type) where
  | enqueue (occupancy : ℕ) (draft : Option V)
  | start (op : ℕ)
  | apply (op : ℕ)
  | complete (op : ℕ)
  | clearAll
  | wake (call : ℕ)
  | list (call : ℕ)
  | remove (call : ℕ)

namespace DraftStore

variable {V : Type}

def empty : DraftStore V := ⟨[], ∅, ∅, []⟩

def isSettled (s : DraftStore V) (op : ℕ) : Bool := (s.ops[op]?).any fun o => o.stage.isSettled

def setStage (s : DraftStore V) (op : ℕ) (stage : OpStage) : DraftStore V :=
  { s with ops := s.ops.modify op ({ · with stage }) }

def setPhase (s : DraftStore V) (call : ℕ) (phase : ClearPhase) : DraftStore V :=
  { s with clears := s.clears.modify call ({ · with phase }) }

/-- `_enqueue` -/
def enqueue (s : DraftStore V) (occupancy : ℕ) (draft : Option V) : DraftStore V :=
  { s with
    ops := s.ops ++ [⟨occupancy, draft, s.chains.lookup occupancy, .waiting⟩]
    chains := s.chains.insert occupancy s.ops.length }

/-- `read` -/
def read (s : DraftStore V) (occupancy : ℕ) : Option V := s.prefs.lookup occupancy

/-- `setString` or `remove` -/
def change (s : DraftStore V) (occupancy : ℕ) : Option V → DraftStore V
  | some draft => { s with prefs := s.prefs.insert occupancy draft }
  | none => { s with prefs := s.prefs.erase occupancy }

/-- `while (_writeChains.isNotEmpty)`: what a call of `clearAll` does next. -/
def drain (s : DraftStore V) : ClearPhase :=
  if s.chains.entries = [] then .drained s.ops.length
  else .waiting (s.chains.entries.map fun chain => chain.2)

/-- `_writeChains.removeWhere((_, future) => pending.contains(future))` -/
def dropChains (s : DraftStore V) (pending : List ℕ) : DraftStore V :=
  { s with chains := ⟨s.chains.entries.filter fun chain => chain.2 ∉ pending,
      s.chains.nodupKeys.sublist List.filter_sublist⟩ }

def step (s : DraftStore V) : DraftAction V → Option (DraftStore V)
  | .enqueue occupancy draft => some (s.enqueue occupancy draft)
  | .start op =>
    match s.ops[op]? with
    | some ⟨_, _, previous, .waiting⟩ =>
      if previous.all s.isSettled then some (s.setStage op .running) else none
    | _ => none
  | .apply op =>
    match s.ops[op]? with
    | some ⟨occupancy, draft, _, .running⟩ =>
      some ((s.setStage op .applied).change occupancy draft)
    | _ => none
  | .complete op =>
    match s.ops[op]? with
    | some ⟨_, _, _, .running⟩ => some (s.setStage op (.settled false))
    | some ⟨_, _, _, .applied⟩ => some (s.setStage op (.settled true))
    | _ => none
  | .clearAll => some { s with clears := s.clears ++ [⟨s.ops.length, s.drain⟩] }
  | .wake call =>
    match s.clears[call]? with
    | some ⟨_, .waiting pending⟩ =>
      if pending.all s.isSettled then
        some ((s.dropChains pending).setPhase call (s.dropChains pending).drain)
      else none
    | _ => none
  | .list call =>
    match s.clears[call]? with
    | some ⟨_, .drained mark⟩ => some (s.setPhase call (.removing mark s.prefs.keys))
    | _ => none
  | .remove call =>
    match s.clears[call]? with
    | some ⟨_, .removing mark (key :: keys)⟩ =>
      some ((s.change key none).setPhase call (.removing mark keys))
    | some ⟨_, .removing mark []⟩ => some (s.setPhase call (.finished mark))
    | _ => none

end DraftStore

end LamTo.Model
