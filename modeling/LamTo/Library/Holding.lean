import LamTo.Library.Versions

/-!
# Transactions that hold one row each

Where a transaction writes at most one row of a table, the one it inserted or took under its lock,
the uncommitted versions are what the transactions hold. Two of them never hold the same row, and
a commit puts one row in its place and leaves the others.

`held` says what each transaction holds: the key of the row and its content.
-/

set_option autoImplicit false

namespace LamTo.Library.Versions

variable {C α : Type}

structure Holding (v : Versions C α) (held : C → Option (ℕ × α)) : Prop where
  pending : ∀ pk p, v.pending pk = some p → ∃ a, p.row = some a ∧ held p.owner = some (pk, a)
  holds : ∀ c pk a, held c = some (pk, a) → v.pending pk = some ⟨c, some a⟩

theorem holding_empty : Holding (empty : Versions C α) fun _ => none where
  pending := fun _ _ h => nomatch h
  holds := fun _ _ _ h => nomatch h

variable {v : Versions C α} {held : C → Option (ℕ × α)}

/-- What is stored after a row has been written over. -/
theorem stored_write (c : C) (pk : ℕ) (a : α) (q : ℕ) (b : α)
    (h : (v.write c pk (some a)).Stored q b) : v.Stored q b ∨ b = a := by
  by_cases hdrawn : 0 < pk ∧ pk < v.committed.next
  · rcases h with h | ⟨d, h⟩
    · rw [get?_write_committed] at h
      exact .inl (.inl h)
    · rw [pending_write _ _ _ _ hdrawn] at h
      split at h
      · cases h
        exact .inr rfl
      · exact .inl (.inr ⟨d, h⟩)
  · rw [write, dif_neg hdrawn] at h
    exact .inl h

/-- Two transactions never hold the same row. -/
theorem Holding.unique (h : Holding v held) (c d : C) (pk : ℕ) (a b : α)
    (hc : held c = some (pk, a)) (hd : held d = some (pk, b)) : c = d := by
  have hpending := h.holds c pk a hc
  rw [h.holds d pk b hd] at hpending
  exact congrArg Pending.owner (Option.some.inj hpending).symm

/-- A row that is held has been drawn. -/
theorem Holding.drawn (h : Holding v held) (c : C) (pk : ℕ) (a : α) (hc : held c = some (pk, a)) :
    0 < pk ∧ pk < v.committed.next := v.drawn pk _ (h.holds c pk a hc)

variable [DecidableEq C]

theorem stored_rollback (c : C) (q : ℕ) (b : α) (h : (v.rollback c).Stored q b) : v.Stored q b := by
  rcases h with h | ⟨d, h⟩
  · exact .inl h
  · exact .inr ⟨d, ((v.pending_rollback c q _).mp h).1⟩

theorem stored_commit (c : C) (q : ℕ) (b : α) (h : (v.commit c).Stored q b) : v.Stored q b := by
  rcases h with h | ⟨d, h⟩
  · rw [get?_commit] at h
    rcases v.seen_cases c q with ⟨row, hrow, hseen⟩ | ⟨-, hseen⟩
    · rw [hseen] at h
      subst h
      exact .inr ⟨c, hrow⟩
    · rw [hseen] at h
      exact .inl h
  · exact .inr ⟨d, ((v.pending_commit c q _).mp h).1⟩

/-- A row that a transaction holds is not closed to it. -/
theorem Holding.free (h : Holding v held) (c : C) (pk : ℕ) (a : α) (hc : held c = some (pk, a)) :
    v.locked c pk = false := by
  rw [locked_eq_false]
  intro p hp
  rw [h.holds c pk a hc] at hp
  cases hp
  rfl

/-- A transaction takes a row that nobody else holds, or rewrites the one it holds. -/
theorem Holding.write (h : Holding v held) (c : C) (pk : ℕ) (a : α)
    (hdrawn : 0 < pk ∧ pk < v.committed.next) (hfree : v.locked c pk = false)
    (hone : ∀ q b, held c = some (q, b) → q = pk) :
    Holding (v.write c pk (some a)) (Function.update held c (some (pk, a))) where
  pending := by
    intro q p hp
    rw [pending_write _ _ _ _ hdrawn] at hp
    split at hp
    · next hq =>
      cases hp
      exact ⟨a, rfl, by rw [Function.update_self, hq]⟩
    · next hq =>
      obtain ⟨b, hrow, hheld⟩ := h.pending q p hp
      refine ⟨b, hrow, ?_⟩
      have hne : p.owner ≠ c := by
        intro howner
        rw [howner] at hheld
        exact hq (hone q b hheld)
      rw [Function.update_of_ne hne, hheld]
  holds := by
    intro d q b hd
    rw [pending_write _ _ _ _ hdrawn]
    by_cases hdc : d = c
    · subst hdc
      rw [Function.update_self] at hd
      cases hd
      exact if_pos rfl
    · rw [Function.update_of_ne hdc] at hd
      have hpending := h.holds d q b hd
      have hne : q ≠ pk := by
        rintro rfl
        exact hdc ((v.locked_eq_false c q).mp hfree _ hpending)
      rw [if_neg hne, hpending]

/-- A transaction that holds nothing inserts a row. -/
theorem Holding.insert (h : Holding v held) (c : C) (a : α) (hnone : held c = none) :
    Holding (v.insert c a) (Function.update held c (some (v.committed.next, a))) where
  pending := by
    intro q p hp
    rw [pending_insert] at hp
    split at hp
    · next hq =>
      cases hp
      exact ⟨a, rfl, by rw [Function.update_self, hq]⟩
    · obtain ⟨b, hrow, hheld⟩ := h.pending q p hp
      refine ⟨b, hrow, ?_⟩
      have hne : p.owner ≠ c := by
        intro howner
        rw [howner, hnone] at hheld
        cases hheld
      rw [Function.update_of_ne hne, hheld]
  holds := by
    intro d q b hd
    rw [pending_insert]
    by_cases hdc : d = c
    · subst hdc
      rw [Function.update_self] at hd
      cases hd
      exact if_pos rfl
    · rw [Function.update_of_ne hdc] at hd
      have hpending := h.holds d q b hd
      rw [if_neg (Nat.ne_of_lt (v.drawn q _ hpending).2), hpending]

/-- After the end of a transaction the others hold what they held. -/
theorem Holding.released (h : Holding v held) (c : C) {w : Versions C α}
    (hpending : ∀ q p, w.pending q = some p ↔ v.pending q = some p ∧ p.owner ≠ c) :
    Holding w (Function.update held c none) where
  pending := by
    intro q p hp
    obtain ⟨hp, hne⟩ := (hpending q p).mp hp
    obtain ⟨b, hrow, hheld⟩ := h.pending q p hp
    exact ⟨b, hrow, by rw [Function.update_of_ne hne, hheld]⟩
  holds := by
    intro d q b hd
    have hne : d ≠ c := by
      rintro rfl
      rw [Function.update_self] at hd
      cases hd
    rw [Function.update_of_ne hne] at hd
    exact (hpending q _).mpr ⟨h.holds d q b hd, hne⟩

theorem Holding.rollback (h : Holding v held) (c : C) :
    Holding (v.rollback c) (Function.update held c none) :=
  h.released c fun q p => v.pending_rollback c q p

theorem Holding.commit (h : Holding v held) (c : C) :
    Holding (v.commit c) (Function.update held c none) :=
  h.released c fun q p => v.pending_commit c q p

/-- What a transaction sees of the row it holds. -/
theorem Holding.seen_self (h : Holding v held) (c : C) (pk : ℕ) (a : α)
    (hc : held c = some (pk, a)) : v.seen c pk = some a :=
  v.seen_own c pk _ (h.holds c pk a hc)

/-- A transaction sees a row that it does not hold as it is committed. -/
theorem Holding.seen_of_not_held (h : Holding v held) (c : C) (pk : ℕ)
    (hc : ∀ a, held c ≠ some (pk, a)) : v.seen c pk = v.committed.get? pk := by
  rcases v.seen_cases c pk with ⟨row, hrow, -⟩ | ⟨-, hseen⟩
  · obtain ⟨a, -, hheld⟩ := h.pending pk _ hrow
    exact absurd hheld (hc a)
  · exact hseen

/-- **A commit puts the row in its place.** -/
theorem Holding.get?_commit_self (h : Holding v held) (c : C) (pk : ℕ) (a : α)
    (hc : held c = some (pk, a)) : (v.commit c).committed.get? pk = some a := by
  rw [get?_commit, h.seen_self c pk a hc]

/-- A commit leaves the rows that the transaction does not hold. -/
theorem Holding.get?_commit_other (h : Holding v held) (c : C) (pk : ℕ)
    (hc : ∀ a, held c ≠ some (pk, a)) :
    (v.commit c).committed.get? pk = v.committed.get? pk := by
  rw [get?_commit, h.seen_of_not_held c pk hc]

end LamTo.Library.Versions
