import LamTo.Library.Table
import Mathlib.Data.Option.Basic

/-!
# A table under concurrent transactions

The rows of a table, and what open transactions have written to them. A transaction sees what is
committed and, over it, what it wrote itself; the others see its writes once it commits. A row
that one transaction has written or locked is closed to the others until that one ends, so a row
has at most one version that is not committed, and that version says whose it is: `pending`.

* A row is locked by writing it as it is.
* A deleted row has a version without content.
* A key is drawn when the row is inserted, and is not handed out again when the transaction is
  rolled back.

What the results on interleavings use is `get?_view` after each operation.
-/

set_option autoImplicit false

namespace LamTo.Library

namespace Table

variable {α : Type}

/-- The table with the same keys drawn whose rows a function gives. -/
def rebuild (t : Table α) (f : ℕ → Option α) : Table α where
  rows := (List.range t.next).filterMap fun pk => if pk = 0 then none else (f pk).map (pk, ·)
  next := t.next
  ordered := by
    rw [List.pairwise_filterMap]
    refine List.pairwise_lt_range.imp ?_
    intro p q hpq r hr s hs
    split at hr
    · cases hr
    · split at hs
      · cases hs
      · obtain ⟨a, -, rfl⟩ := Option.map_eq_some_iff.mp hr
        obtain ⟨b, -, rfl⟩ := Option.map_eq_some_iff.mp hs
        exact hpq
  below := by
    intro r hr
    obtain ⟨pk, hpk, hrow⟩ := List.mem_filterMap.mp hr
    split at hrow
    · cases hrow
    · obtain ⟨a, -, rfl⟩ := Option.map_eq_some_iff.mp hrow
      exact List.mem_range.mp hpk
  positive := by
    intro r hr
    obtain ⟨pk, hpk, hrow⟩ := List.mem_filterMap.mp hr
    split at hrow
    · cases hrow
    · next hzero =>
      obtain ⟨a, -, rfl⟩ := Option.map_eq_some_iff.mp hrow
      exact Nat.pos_of_ne_zero hzero
  next_pos := t.next_pos

theorem get?_rebuild (t : Table α) (f : ℕ → Option α) (pk : ℕ) (hpos : 0 < pk)
    (hbelow : pk < t.next) : (t.rebuild f).get? pk = f pk := by
  apply Option.ext
  intro a
  rw [get?_eq_some]
  simp only [rebuild, List.mem_filterMap, List.mem_range]
  constructor
  · rintro ⟨q, -, hrow⟩
    split at hrow
    · cases hrow
    · obtain ⟨b, hb, hpair⟩ := Option.map_eq_some_iff.mp hrow
      cases hpair
      exact hb
  · intro ha
    exact ⟨pk, hbelow, by rw [if_neg (Nat.ne_of_gt hpos), ha, Option.map_some]⟩

/-- A function that says nothing outside the keys drawn is what the table says. -/
theorem get?_rebuild_of_bounded (t : Table α) (f : ℕ → Option α)
    (hf : ∀ pk a, f pk = some a → 0 < pk ∧ pk < t.next) (pk : ℕ) :
    (t.rebuild f).get? pk = f pk := by
  by_cases hpk : 0 < pk ∧ pk < t.next
  · exact t.get?_rebuild f pk hpk.1 hpk.2
  · have hnone : f pk = none := by
      cases h : f pk with
      | none => rfl
      | some a => exact absurd (hf pk a h) hpk
    cases h : (t.rebuild f).get? pk with
    | none => rw [hnone]
    | some a =>
      have hbounds : 0 < pk ∧ pk < (t.rebuild f).next :=
        ⟨pos_of_get? _ _ _ h, lt_next_of_get? _ _ _ h⟩
      exact absurd hbounds hpk

end Table

/-- The uncommitted version of a row: whose it is, and the content, none once deleted. -/
structure Pending (C α : Type) where
  owner : C
  row : Option α
deriving DecidableEq

structure Versions (C α : Type) where
  committed : Table α
  pending : ℕ → Option (Pending C α)
  drawn : ∀ pk p, pending pk = some p → 0 < pk ∧ pk < committed.next

namespace Versions

variable {C α : Type}

def empty : Versions C α where
  committed := .empty
  pending _ := none
  drawn := by
    intro pk p h
    cases h

/-- A row is written, deleted or, as it is, locked. -/
def write (v : Versions C α) (c : C) (pk : ℕ) (row : Option α) : Versions C α :=
  if h : 0 < pk ∧ pk < v.committed.next then
    { committed := v.committed
      pending := Function.update v.pending pk (some ⟨c, row⟩)
      drawn := by
        intro q p hp
        by_cases hq : q = pk
        · rw [hq]
          exact h
        · rw [Function.update_of_ne hq] at hp
          exact v.drawn q p hp }
  else v

/-- A row is inserted, under the next key. -/
def insert (v : Versions C α) (c : C) (a : α) : Versions C α where
  committed := v.committed.skip 1
  pending := Function.update v.pending v.committed.next (some ⟨c, some a⟩)
  drawn := by
    intro q p hp
    by_cases hq : q = v.committed.next
    · rw [hq]
      exact ⟨v.committed.next_pos, Nat.lt_succ_self _⟩
    · rw [Function.update_of_ne hq] at hp
      exact ⟨(v.drawn q p hp).1, Nat.lt_succ_of_lt (v.drawn q p hp).2⟩

/-- A statement that is a transaction of its own rewrites a row. -/
def updateNow (v : Versions C α) (pk : ℕ) (f : α → α) : Versions C α where
  committed := v.committed.update pk f
  pending := v.pending
  drawn := v.drawn

/-- A statement that is a transaction of its own inserts a row. -/
def insertNow (v : Versions C α) (a : α) : Versions C α where
  committed := v.committed.insert a
  pending := v.pending
  drawn := fun pk p hp => ⟨(v.drawn pk p hp).1, Nat.lt_succ_of_lt (v.drawn pk p hp).2⟩

/-- A statement that is a transaction of its own deletes rows. -/
def removeNow (v : Versions C α) (p : ℕ → α → Bool) : Versions C α where
  committed := v.committed.remove p
  pending := v.pending
  drawn := v.drawn

section Writing

variable (v : Versions C α) (c : C)

theorem pending_write (pk : ℕ) (row : Option α) (h : 0 < pk ∧ pk < v.committed.next) (q : ℕ) :
    (v.write c pk row).pending q = if q = pk then some ⟨c, row⟩ else v.pending q := by
  rw [write, dif_pos h]
  exact Function.update_apply _ _ _ _

@[simp] theorem committed_write (pk : ℕ) (row : Option α) :
    (v.write c pk row).committed = v.committed := by
  unfold write
  split <;> rfl

theorem get?_write_committed (pk : ℕ) (row : Option α) (q : ℕ) :
    (v.write c pk row).committed.get? q = v.committed.get? q := by
  rw [committed_write]

theorem pending_insert (a : α) (q : ℕ) :
    (v.insert c a).pending q =
      if q = v.committed.next then some ⟨c, some a⟩ else v.pending q :=
  Function.update_apply _ _ _ _

@[simp] theorem get?_insert_committed (a : α) (q : ℕ) :
    (v.insert c a).committed.get? q = v.committed.get? q := rfl

/-- No version is pending under a key that is not drawn. -/
theorem pending_next : v.pending v.committed.next = none := by
  cases h : v.pending v.committed.next with
  | none => rfl
  | some p => exact absurd (v.drawn _ p h).2 (Nat.lt_irrefl _)

theorem pending_insert_other (a : α) (q : ℕ) (p : Pending C α) (hp : p.owner ≠ c) :
    (v.insert c a).pending q = some p ↔ v.pending q = some p := by
  rw [pending_insert]
  by_cases hq : q = v.committed.next
  · subst hq
    rw [if_pos rfl, v.pending_next]
    constructor
    · intro h
      cases h
      exact absurd rfl hp
    · intro h
      cases h
  · rw [if_neg hq]

end Writing

/-! ## Transactions -/

variable [DecidableEq C]

/-- What a transaction sees of a row. -/
def seen (v : Versions C α) (c : C) (pk : ℕ) : Option α :=
  match v.pending pk with
  | some p => if p.owner = c then p.row else v.committed.get? pk
  | none => v.committed.get? pk

theorem seen_bounded (v : Versions C α) (c : C) (pk : ℕ) (a : α) (h : v.seen c pk = some a) :
    0 < pk ∧ pk < v.committed.next := by
  unfold seen at h
  split at h
  · next p hp => exact v.drawn pk p hp
  · exact ⟨v.committed.pos_of_get? pk a h, v.committed.lt_next_of_get? pk a h⟩

/-- What a transaction sees. -/
def view (v : Versions C α) (c : C) : Table α := v.committed.rebuild (v.seen c)

/-- Another transaction has written or locked the row. -/
def locked (v : Versions C α) (c : C) (pk : ℕ) : Bool := (v.pending pk).any (·.owner ≠ c)

/-- An open transaction has a row of a kind, or has written over one: an insertion that the row
would clash with waits for it. -/
def awaits (v : Versions C α) (c : C) (p : α → Bool) : Bool :=
  (List.range v.committed.next).any fun pk => (v.pending pk).any fun w =>
    w.owner ≠ c && (w.row.any p || (v.committed.get? pk).any p)

/-- One statement rewrites, or deletes, the rows of a kind. -/
def updateWhere (v : Versions C α) (c : C) (p : α → Bool) (f : α → Option α) :
    Versions C α where
  committed := v.committed
  pending := fun pk =>
    match v.seen c pk with
    | some a => if p a then some ⟨c, f a⟩ else v.pending pk
    | none => v.pending pk
  drawn := by
    intro pk w hw
    split at hw
    · next a ha => exact v.seen_bounded c pk a ha
    · exact v.drawn pk w hw

/-- A row of the kind is closed to the transaction, whose statement then waits. -/
def lockedWhere (v : Versions C α) (c : C) (p : α → Bool) : Bool :=
  (v.view c).rows.any fun r => p r.2 && v.locked c r.1

/-- The row of a kind that a unique constraint lets stand once, made when there is none; `none`
while another transaction is about to make one. -/
def getOrInsert (v : Versions C α) (c : C) (same : α → Bool) (a : α) : Option (Versions C α) :=
  if (v.view c).any same then some v
  else if v.awaits c same then none
  else some (v.insert c a)

/-- The writes of a transaction are dropped. -/
def rollback (v : Versions C α) (c : C) : Versions C α where
  committed := v.committed
  pending := fun pk => (v.pending pk).filter (·.owner ≠ c)
  drawn := fun pk p hp => v.drawn pk p (Option.filter_eq_some_iff.mp hp).1

/-- The writes of a transaction are what everyone sees. -/
def commit (v : Versions C α) (c : C) : Versions C α where
  committed := v.view c
  pending := fun pk => (v.pending pk).filter (·.owner ≠ c)
  drawn := fun pk p hp => v.drawn pk p (Option.filter_eq_some_iff.mp hp).1

/-! ## Reading -/

@[simp] theorem get?_view (v : Versions C α) (c : C) (pk : ℕ) :
    (v.view c).get? pk = v.seen c pk :=
  v.committed.get?_rebuild_of_bounded (v.seen c) (v.seen_bounded c) pk

@[simp] theorem next_view (v : Versions C α) (c : C) : (v.view c).next = v.committed.next := rfl

/-- A row with no uncommitted version is seen as it is committed. -/
theorem seen_of_none (v : Versions C α) (c : C) (pk : ℕ) (h : v.pending pk = none) :
    v.seen c pk = v.committed.get? pk := by
  rw [seen, h]

/-- A transaction sees its own version of a row. -/
theorem seen_own (v : Versions C α) (c : C) (pk : ℕ) (row : Option α)
    (h : v.pending pk = some ⟨c, row⟩) : v.seen c pk = row := by
  rw [seen, h]
  exact if_pos rfl

/-- A transaction sees the committed version of a row that another has written. -/
theorem seen_other (v : Versions C α) (c : C) (pk : ℕ) (p : Pending C α)
    (h : v.pending pk = some p) (hne : p.owner ≠ c) : v.seen c pk = v.committed.get? pk := by
  rw [seen, h]
  exact if_neg hne

theorem seen_congr (v w : Versions C α) (c : C) (pk : ℕ) (hpending : v.pending pk = w.pending pk)
    (hcommitted : v.committed.get? pk = w.committed.get? pk) : v.seen c pk = w.seen c pk := by
  rw [seen, seen, hpending, hcommitted]

/-- A row is seen in a version of one's own, or as it is committed. -/
theorem seen_cases (v : Versions C α) (c : C) (pk : ℕ) :
    (∃ row, v.pending pk = some ⟨c, row⟩ ∧ v.seen c pk = row) ∨
      (∀ p, v.pending pk = some p → p.owner ≠ c) ∧ v.seen c pk = v.committed.get? pk := by
  cases hp : v.pending pk with
  | none => exact .inr ⟨fun p h => (nomatch h), v.seen_of_none c pk hp⟩
  | some p =>
    obtain ⟨owner, row⟩ := p
    by_cases howner : owner = c
    · subst howner
      exact .inl ⟨row, rfl, v.seen_own owner pk row hp⟩
    · refine .inr ⟨?_, v.seen_other c pk _ hp howner⟩
      intro q hq
      cases hq
      exact howner

/-- What a transaction sees depends on its own versions and on what is committed. -/
theorem seen_eq_of_own (v w : Versions C α) (c : C) (pk : ℕ)
    (hpending : ∀ p, p.owner = c → (v.pending pk = some p ↔ w.pending pk = some p))
    (hcommitted : v.committed.get? pk = w.committed.get? pk) : v.seen c pk = w.seen c pk := by
  rcases v.seen_cases c pk with ⟨row, hrow, hseen⟩ | ⟨hv, hseen⟩
  · rw [hseen, w.seen_own c pk row ((hpending _ rfl).mp hrow)]
  · rcases w.seen_cases c pk with ⟨row, hrow, -⟩ | ⟨-, hseen'⟩
    · exact absurd rfl (hv _ ((hpending ⟨c, row⟩ rfl).mpr hrow))
    · rw [hseen, hseen', hcommitted]

/-- A row is not closed to a transaction when nobody or the transaction itself wrote it. -/
theorem locked_eq_false (v : Versions C α) (c : C) (pk : ℕ) :
    v.locked c pk = false ↔ ∀ p, v.pending pk = some p → p.owner = c := by
  unfold locked
  cases v.pending pk with
  | none => simp
  | some p => simp

/-! ## Reading after a write -/

section After

variable (v : Versions C α) (c : C)

theorem seen_write (pk : ℕ) (row : Option α) (h : 0 < pk ∧ pk < v.committed.next)
    (hfree : v.locked c pk = false) (d : C) (q : ℕ) :
    (v.write c pk row).seen d q = if d = c ∧ q = pk then row else v.seen d q := by
  unfold seen
  rw [pending_write _ _ _ _ h, committed_write]
  by_cases hq : q = pk
  · subst hq
    rw [if_pos rfl]
    by_cases hd : d = c
    · simp [hd]
    · have hother : v.seen d q = v.committed.get? q := by
        cases hp : v.pending q with
        | none => exact v.seen_of_none d q hp
        | some p =>
          have howner := (v.locked_eq_false c q).mp hfree p hp
          exact v.seen_other d q p hp (by rw [howner]; exact fun h => hd h.symm)
      simp only [seen] at hother
      simp [hd, hother, Ne.symm hd]
  · simp [hq]

theorem seen_insert (a : α) (d : C) (q : ℕ) :
    (v.insert c a).seen d q = if d = c ∧ q = v.committed.next then some a else v.seen d q := by
  unfold seen
  rw [pending_insert, get?_insert_committed]
  by_cases hq : q = v.committed.next
  · subst hq
    rw [if_pos rfl, v.pending_next, v.committed.get?_next]
    by_cases hd : d = c
    · simp [hd]
    · simp [hd, Ne.symm hd]
  · simp [hq]

@[simp] theorem committed_updateWhere (p : α → Bool) (f : α → Option α) :
    (v.updateWhere c p f).committed = v.committed := rfl

theorem pending_updateWhere (p : α → Bool) (f : α → Option α) (q : ℕ) (w : Pending C α)
    (h : (v.updateWhere c p f).pending q = some w) :
    v.pending q = some w ∨ ∃ a, v.seen c q = some a ∧ p a = true ∧ w = ⟨c, f a⟩ := by
  simp only [updateWhere] at h
  split at h
  · next a ha =>
    split at h
    · next hp =>
      cases h
      exact .inr ⟨a, ha, hp, rfl⟩
    · exact .inl h
  · exact .inl h

theorem seen_updateWhere (p : α → Bool) (f : α → Option α) (q : ℕ) :
    (v.updateWhere c p f).seen c q =
      (v.seen c q).bind fun a => if p a then f a else some a := by
  cases hseen : v.seen c q with
  | none =>
    have hpending : (v.updateWhere c p f).pending q = v.pending q := by
      simp only [updateWhere, hseen]
    rw [seen_congr _ v c q hpending rfl, hseen, Option.bind_none]
  | some a =>
    rw [Option.bind_some]
    by_cases hp : p a = true
    · have hpending : (v.updateWhere c p f).pending q = some ⟨c, f a⟩ := by
        simp only [updateWhere, hseen, hp, if_true]
      rw [seen_own _ _ _ _ hpending, if_pos hp]
    · have hpending : (v.updateWhere c p f).pending q = v.pending q := by
        simp only [updateWhere, hseen, if_neg hp]
      rw [if_neg hp, seen_congr _ v c q hpending rfl, hseen]

/-- A row that is made or found: nothing changes, or one row is inserted. -/
theorem getOrInsert_eq_some (same : α → Bool) (a : α) (w : Versions C α)
    (h : v.getOrInsert c same a = some w) :
    w = v ∨ w = v.insert c a ∧ ∀ q b, v.seen c q = some b → same b = false := by
  unfold getOrInsert at h
  split at h
  · cases h
    exact .inl rfl
  · next hany =>
    split at h
    · cases h
    · cases h
      refine .inr ⟨rfl, fun q b hb => ?_⟩
      rw [Bool.not_eq_true, Table.any_eq_false] at hany
      exact hany q b (by rw [get?_view]; exact hb)

end After

/-! ## What the writes of a transaction leave to the others -/

section Others

variable (v : Versions C α) (c : C)

theorem pending_write_other (pk : ℕ) (row : Option α) (hfree : v.locked c pk = false) (q : ℕ)
    (p : Pending C α) (hp : p.owner ≠ c) :
    (v.write c pk row).pending q = some p ↔ v.pending q = some p := by
  by_cases hpk : 0 < pk ∧ pk < v.committed.next
  · rw [pending_write _ _ _ _ hpk]
    by_cases hq : q = pk
    · subst hq
      rw [if_pos rfl]
      constructor
      · intro h
        cases h
        exact absurd rfl hp
      · intro h
        exact absurd ((v.locked_eq_false c q).mp hfree p h) hp
    · rw [if_neg hq]
  · rw [write, dif_neg hpk]

theorem lockedWhere_eq_false (p : α → Bool) :
    v.lockedWhere c p = false ↔
      ∀ pk a, v.seen c pk = some a → p a = true → v.locked c pk = false := by
  simp only [lockedWhere, List.any_eq_false, Prod.forall, ← Table.get?_eq_some, get?_view,
    Bool.and_eq_true, not_and, Bool.not_eq_true]

theorem pending_updateWhere_other (p : α → Bool) (f : α → Option α)
    (hfree : v.lockedWhere c p = false) (q : ℕ) (w : Pending C α) (hw : w.owner ≠ c) :
    (v.updateWhere c p f).pending q = some w ↔ v.pending q = some w := by
  have hsame : ∀ a, v.seen c q = some a → p a = true → v.pending q ≠ some w := by
    intro a ha hpa hpending
    have hlocked := (v.lockedWhere_eq_false c p).mp hfree q a ha hpa
    exact hw ((v.locked_eq_false c q).mp hlocked w hpending)
  constructor
  · intro h
    rcases v.pending_updateWhere c p f q w h with h | ⟨a, -, -, rfl⟩
    · exact h
    · exact absurd rfl hw
  · intro h
    cases ha : v.seen c q with
    | none => simpa only [updateWhere, ha] using h
    | some a =>
      have hpa : ¬ p a = true := fun hpa => hsame a ha hpa h
      simpa only [updateWhere, ha, if_neg hpa] using h

end Others

/-! ## The end of a transaction -/

section Ends

variable (v : Versions C α) (c : C)

theorem pending_rollback (q : ℕ) (p : Pending C α) :
    (v.rollback c).pending q = some p ↔ v.pending q = some p ∧ p.owner ≠ c := by
  simp only [rollback, Option.filter_eq_some_iff, decide_eq_true_eq]

theorem pending_commit (q : ℕ) (p : Pending C α) :
    (v.commit c).pending q = some p ↔ v.pending q = some p ∧ p.owner ≠ c := by
  simp only [commit, Option.filter_eq_some_iff, decide_eq_true_eq]

@[simp] theorem committed_rollback : (v.rollback c).committed = v.committed := rfl

theorem get?_commit (q : ℕ) : (v.commit c).committed.get? q = v.seen c q := v.get?_view c q

end Ends

/-! ## What a transaction keeps while another takes a step -/

section Keeping

variable {v : Versions C α} {c d : C}

/-- The versions of a transaction are as they were, and so are the committed rows under them. -/
structure KeepsOwn (d : C) (v w : Versions C α) : Prop where
  pending : ∀ q row, w.pending q = some ⟨d, row⟩ ↔ v.pending q = some ⟨d, row⟩
  committed : ∀ q row, v.pending q = some ⟨d, row⟩ → w.committed.get? q = v.committed.get? q
  next : v.committed.next ≤ w.committed.next

omit [DecidableEq C] in
theorem keepsOwn_self : KeepsOwn d v v where
  pending := fun _ _ => Iff.rfl
  committed := fun _ _ _ => rfl
  next := le_rfl

theorem keepsOwn_write (hd : d ≠ c) (pk : ℕ) (row : Option α) (hfree : v.locked c pk = false) :
    KeepsOwn d v (v.write c pk row) where
  pending := fun q row' => v.pending_write_other c pk row hfree q ⟨d, row'⟩ hd
  committed := fun q _ _ => v.get?_write_committed c pk row q
  next := by rw [committed_write]

omit [DecidableEq C] in
theorem keepsOwn_insert (hd : d ≠ c) (a : α) : KeepsOwn d v (v.insert c a) where
  pending := fun q row => v.pending_insert_other c a q ⟨d, row⟩ hd
  committed := fun _ _ _ => rfl
  next := Nat.le_succ _

theorem keepsOwn_updateWhere (hd : d ≠ c) (p : α → Bool) (f : α → Option α)
    (hfree : v.lockedWhere c p = false) : KeepsOwn d v (v.updateWhere c p f) where
  pending := fun q row => v.pending_updateWhere_other c p f hfree q ⟨d, row⟩ hd
  committed := fun _ _ _ => rfl
  next := le_rfl

theorem keepsOwn_rollback (hd : d ≠ c) : KeepsOwn d v (v.rollback c) where
  pending := fun q row => by rw [pending_rollback, and_iff_left hd]
  committed := fun _ _ _ => rfl
  next := le_rfl

theorem keepsOwn_commit (hd : d ≠ c) : KeepsOwn d v (v.commit c) where
  pending := fun q row => by rw [pending_commit, and_iff_left hd]
  committed := fun q row hq => by rw [get?_commit, v.seen_other c q _ hq hd]
  next := le_rfl

end Keeping

/-! ## Tables that are only inserted into -/

section Inserting

variable {v : Versions C α} {c : C}

/-- The uncommitted versions are rows that are not there yet. -/
structure InsertOnly (v : Versions C α) : Prop where
  fresh : ∀ pk p, v.pending pk = some p → v.committed.get? pk = none
  kept : ∀ pk p, v.pending pk = some p → ∃ a, p.row = some a

/-- A row is committed, or a transaction is about to commit it. -/
def Stored (v : Versions C α) (pk : ℕ) (a : α) : Prop :=
  v.committed.get? pk = some a ∨ ∃ d, v.pending pk = some ⟨d, some a⟩

/-- A unique constraint, over what is committed and what may be. -/
def Unique (same : α → α → Prop) (v : Versions C α) : Prop :=
  ∀ pk qk a b, v.Stored pk a → v.Stored qk b → same a b → pk = qk

omit [DecidableEq C] in
theorem insertOnly_empty : InsertOnly (empty : Versions C α) where
  fresh := fun _ _ h => nomatch h
  kept := fun _ _ h => nomatch h

omit [DecidableEq C] in
theorem InsertOnly.insert (h : InsertOnly v) (a : α) : InsertOnly (v.insert c a) where
  fresh := by
    intro pk p hp
    rw [get?_insert_committed]
    rw [pending_insert] at hp
    split at hp
    · next hpk =>
      rw [hpk]
      exact v.committed.get?_next
    · exact h.fresh pk p hp
  kept := by
    intro pk p hp
    rw [pending_insert] at hp
    split at hp
    · cases hp
      exact ⟨a, rfl⟩
    · exact h.kept pk p hp

omit [DecidableEq C] in
theorem InsertOnly.insertNow (h : InsertOnly v) (a : α) : InsertOnly (v.insertNow a) where
  fresh := by
    intro pk p hp
    have hne : pk ≠ v.committed.next := Nat.ne_of_lt (v.drawn pk p hp).2
    show (v.committed.insert a).get? pk = none
    rw [Table.get?_insert, if_neg hne]
    exact h.fresh pk p hp
  kept := h.kept

/-- What a transaction sees is what is committed and what it has inserted. -/
theorem InsertOnly.seen_eq_some (h : InsertOnly v) (pk : ℕ) (a : α) :
    v.seen c pk = some a ↔
      v.committed.get? pk = some a ∨ v.pending pk = some ⟨c, some a⟩ := by
  rcases v.seen_cases c pk with ⟨row, hrow, hseen⟩ | ⟨hother, hseen⟩
  · rw [hseen, h.fresh pk _ hrow, hrow]
    simp
  · rw [hseen]
    constructor
    · exact .inl
    · rintro (hcommitted | hpending)
      · exact hcommitted
      · exact absurd rfl (hother _ hpending)

theorem InsertOnly.get?_commit (h : InsertOnly v) (pk : ℕ) (a : α) :
    (v.commit c).committed.get? pk = some a ↔
      v.committed.get? pk = some a ∨ v.pending pk = some ⟨c, some a⟩ := by
  rw [Versions.get?_commit]
  exact h.seen_eq_some pk a

theorem InsertOnly.commit (h : InsertOnly v) : InsertOnly (v.commit c) where
  fresh := by
    intro pk p hp
    obtain ⟨hp, hother⟩ := (v.pending_commit c pk p).mp hp
    rw [Versions.get?_commit, v.seen_other c pk p hp hother]
    exact h.fresh pk p hp
  kept := fun pk p hp => h.kept pk p ((v.pending_commit c pk p).mp hp).1

/-- An insertion that waits for nobody clashes with no row another transaction has inserted. -/
theorem awaits_eq_false (p : α → Bool) (h : v.awaits c p = false) (d : C) (pk : ℕ) (a : α)
    (hpending : v.pending pk = some ⟨d, some a⟩) (hne : d ≠ c) : p a = false := by
  unfold awaits at h
  rw [List.any_eq_false] at h
  have hpk := h pk (List.mem_range.mpr (v.drawn pk _ hpending).2)
  rw [hpending] at hpk
  simp only [Option.any_some, ne_eq, hne, not_false_eq_true, decide_true, Bool.true_and,
    Bool.or_eq_true, not_or, Bool.not_eq_true] at hpk
  exact hpk.1

/-- An insertion waits for a row that another transaction is about to commit. -/
theorem InsertOnly.of_awaits (h : InsertOnly v) (p : α → Bool) (hwait : v.awaits c p = true) :
    ∃ d pk a, d ≠ c ∧ v.pending pk = some ⟨d, some a⟩ ∧ p a = true := by
  obtain ⟨pk, -, hpk⟩ := List.any_eq_true.mp hwait
  obtain ⟨w, hw, hboth⟩ := (Option.any_eq_true _ _).mp hpk
  obtain ⟨owner, row⟩ := w
  obtain ⟨a, ha⟩ := h.kept pk _ hw
  change row = some a at ha
  subst ha
  rw [h.fresh pk _ hw] at hboth
  simp only [ne_eq, Option.any_some, Option.any_none, Bool.or_false, Bool.and_eq_true,
    decide_eq_true_eq] at hboth
  exact ⟨owner, pk, a, hboth.1, hw, hboth.2⟩

omit [DecidableEq C] in
theorem stored_insert (a : α) (pk : ℕ) (b : α) (h : (v.insert c a).Stored pk b) :
    v.Stored pk b ∨ pk = v.committed.next ∧ b = a := by
  rcases h with h | ⟨d, h⟩
  · exact .inl (.inl h)
  · rw [pending_insert] at h
    split at h
    · next hpk =>
      cases h
      exact .inr ⟨hpk, rfl⟩
    · exact .inl (.inr ⟨d, h⟩)

theorem InsertOnly.stored_commit (h : InsertOnly v) (pk : ℕ) (a : α)
    (hstored : (v.commit c).Stored pk a) : v.Stored pk a := by
  rcases hstored with hcommitted | ⟨d, hpending⟩
  · rcases (h.get?_commit pk a).mp hcommitted with hbefore | hown
    · exact .inl hbefore
    · exact .inr ⟨c, hown⟩
  · exact .inr ⟨d, ((v.pending_commit c pk _).mp hpending).1⟩

omit [DecidableEq C] in
theorem unique_of_stored {w : Versions C α} {same : α → α → Prop} (h : Unique same v)
    (hstored : ∀ pk a, w.Stored pk a → v.Stored pk a) : Unique same w :=
  fun pk qk a b ha hb => h pk qk a b (hstored pk a ha) (hstored qk b hb)

omit [DecidableEq C] in
theorem unique_empty (same : α → α → Prop) : Unique same (empty : Versions C α) := by
  intro pk qk a b ha
  rcases ha with ha | ⟨d, ha⟩
  · exact nomatch ha
  · exact nomatch ha

omit [DecidableEq C] in
/-- **A row that clashes with none keeps a unique constraint.** -/
theorem Unique.insert {same : α → α → Prop} (h : Unique same v)
    (hsymm : ∀ a b, same a b → same b a) (a : α)
    (ha : ∀ pk b, v.Stored pk b → ¬ same a b) : Unique same (v.insert c a) := by
  intro pk qk x y hx hy hsame
  rcases stored_insert a pk x hx with hold | ⟨hpk, hxa⟩
  · rcases stored_insert a qk y hy with hold' | ⟨hqk, hya⟩
    · exact h pk qk x y hold hold' hsame
    · rw [hya] at hsame
      exact absurd (hsymm _ _ hsame) (ha pk x hold)
  · rcases stored_insert a qk y hy with hold' | ⟨hqk, hya⟩
    · rw [hxa] at hsame
      exact absurd hsame (ha qk y hold')
    · rw [hpk, hqk]

/-- Nothing is committed, and what a transaction had not committed is dropped. -/
structure Drops (c : C) (v w : Versions C α) : Prop where
  committed : w.committed = v.committed
  pending : ∀ pk p, w.pending pk = some p ↔ v.pending pk = some p ∧ p.owner ≠ c

omit [DecidableEq C] in
theorem drops_self (h : ∀ pk p, v.pending pk = some p → p.owner ≠ c) : Drops c v v where
  committed := rfl
  pending := fun pk p => ⟨fun hp => ⟨hp, h pk p hp⟩, fun hp => hp.1⟩

theorem drops_rollback (v : Versions C α) (c : C) : Drops c v (v.rollback c) where
  committed := rfl
  pending := v.pending_rollback c

omit [DecidableEq C] in
theorem Drops.insertOnly {w : Versions C α} (hdrops : Drops c v w) (h : InsertOnly v) :
    InsertOnly w where
  fresh := by
    intro pk p hp
    rw [hdrops.committed]
    exact h.fresh pk p ((hdrops.pending pk p).mp hp).1
  kept := fun pk p hp => h.kept pk p ((hdrops.pending pk p).mp hp).1

omit [DecidableEq C] in
theorem Drops.unique {w : Versions C α} {same : α → α → Prop} (hdrops : Drops c v w)
    (h : Unique same v) : Unique same w := by
  refine unique_of_stored h fun pk a hstored => ?_
  rcases hstored with hrow | ⟨d, hrow⟩
  · rw [hdrops.committed] at hrow
    exact .inl hrow
  · exact .inr ⟨d, ((hdrops.pending pk _).mp hrow).1⟩

/-- What the check of a unique constraint has established when it lets a row in. -/
theorem InsertOnly.not_stored (h : InsertOnly v) (p : α → Bool) (hawaits : v.awaits c p = false)
    (hview : (v.view c).any p = false) (pk : ℕ) (a : α) (hstored : v.Stored pk a) :
    p a = false := by
  have hseen := (Table.any_eq_false _ _).mp hview pk a
  rw [get?_view, h.seen_eq_some] at hseen
  rcases hstored with hcommitted | ⟨d, hpending⟩
  · exact hseen (.inl hcommitted)
  · by_cases hd : d = c
    · subst hd
      exact hseen (.inr hpending)
    · exact awaits_eq_false p hawaits d pk a hpending hd

end Inserting

end Versions

end LamTo.Library
