import LamTo.Library.Versions

/-!
# Rows that are gone

A key is handed out once. So a row that is deleted and committed is gone for good: whatever any
transaction writes, undoes or commits after it, the key names no row again (`Gone`, and what each
operation on a table keeps of it).
-/

set_option autoImplicit false

namespace LamTo.Library.Versions

variable {C α : Type}

/-- A row that was there once and is deleted for good: its key is not handed out again. -/
structure Gone (v : Versions C α) (pk : ℕ) : Prop where
  committed : v.committed.get? pk = none
  pending : v.pending pk = none
  drawn : pk < v.committed.next

namespace Gone

variable {v : Versions C α} {pk : ℕ}

theorem insert (h : Gone v pk) (c : C) (a : α) : Gone (v.insert c a) pk where
  committed := h.committed
  pending := by rw [pending_insert, if_neg (Nat.ne_of_lt h.drawn), h.pending]
  drawn := Nat.lt_succ_of_lt h.drawn

theorem removeNow (h : Gone v pk) (p : ℕ → α → Bool) : Gone (v.removeNow p) pk where
  committed := by
    cases hp : (v.removeNow p).committed.get? pk with
    | none => rfl
    | some a =>
      have hold := ((Table.get?_remove v.committed p pk a).mp hp).1
      rw [h.committed] at hold
      cases hold
  pending := h.pending
  drawn := h.drawn

variable [DecidableEq C]

theorem seen (h : Gone v pk) (c : C) : v.seen c pk = none :=
  (v.seen_of_none c pk h.pending).trans h.committed

/-- What is written is a row that the transaction sees. -/
theorem write (h : Gone v pk) (c : C) (q : ℕ) (row : Option α) (a : α)
    (hseen : v.seen c q = some a) : Gone (v.write c q row) pk where
  committed := by rw [committed_write, h.committed]
  pending := by
    have hne : pk ≠ q := by
      rintro rfl
      rw [h.seen c] at hseen
      cases hseen
    rw [pending_write _ _ _ _ (v.seen_bounded c q a hseen), if_neg hne, h.pending]
  drawn := by rw [committed_write]; exact h.drawn

theorem updateWhere (h : Gone v pk) (c : C) (p : α → Bool) (f : α → Option α) :
    Gone (v.updateWhere c p f) pk where
  committed := h.committed
  pending := by
    simp only [Versions.updateWhere, h.seen c]
    exact h.pending
  drawn := h.drawn

theorem rollback (h : Gone v pk) (c : C) : Gone (v.rollback c) pk where
  committed := h.committed
  pending := by simp only [Versions.rollback, h.pending, Option.filter_none]
  drawn := h.drawn

theorem commit (h : Gone v pk) (c : C) : Gone (v.commit c) pk where
  committed := by rw [get?_commit, h.seen c]
  pending := by simp only [Versions.commit, h.pending, Option.filter_none]
  drawn := h.drawn

/-- A row that a transaction deletes is gone when it commits. -/
theorem of_commit (c : C) (h : v.pending pk = some ⟨c, none⟩) : Gone (v.commit c) pk where
  committed := by rw [get?_commit, v.seen_own c pk _ h]
  pending := by
    simp only [Versions.commit, h]
    exact Option.filter_eq_none_iff.mpr fun w hw => by
      cases hw
      simp
  drawn := (v.drawn pk _ h).2

end Gone

end LamTo.Library.Versions
