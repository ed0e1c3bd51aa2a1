import LamTo.Library.Versions

/-!
# A unique constraint over rows that are rewritten

Rows clash as a unique constraint says, which may hold among some rows only (a partial index).
A transaction may take a row out of the constraint and put another in its place before it
commits, so the committed rows and the uncommitted versions are not apart from each other: a
version may clash with a committed row that the same transaction has written over.

`Distinct` is what holds instead. An insertion keeps it that has waited for the transactions it
may clash with, a rewriting that clashes with no more than the row did, and both ends of a
transaction.
-/

set_option autoImplicit false

namespace LamTo.Library.Versions

variable {C α : Type}

structure Distinct (clash : α → α → Prop) (v : Versions C α) : Prop where
  committed : ∀ p q a b, v.committed.get? p = some a → v.committed.get? q = some b →
    clash a b → p = q
  pending : ∀ p q c d a b, v.pending p = some ⟨c, some a⟩ → v.pending q = some ⟨d, some b⟩ →
    clash a b → p = q
  mixed : ∀ p q c a b, v.pending p = some ⟨c, some a⟩ → v.committed.get? q = some b →
    clash a b → p = q ∨ ∃ row, v.pending q = some ⟨c, row⟩

variable {clash : α → α → Prop} {v : Versions C α} {c : C}

theorem distinct_empty (clash : α → α → Prop) : Distinct clash (empty : Versions C α) where
  committed := fun _ _ _ _ h => nomatch h
  pending := fun _ _ _ _ _ _ h => nomatch h
  mixed := fun _ _ _ _ _ h => nomatch h

variable [DecidableEq C]

/-- What a transaction sees keeps the constraint. -/
theorem Distinct.seen (h : Distinct clash v) (hsymm : ∀ a b, clash a b → clash b a) (p q : ℕ)
    (a b : α) (ha : v.seen c p = some a) (hb : v.seen c q = some b) (hclash : clash a b) :
    p = q := by
  rcases v.seen_cases c p with ⟨row, hp, hrow⟩ | ⟨hp, hrow⟩
  · rw [hrow] at ha
    subst ha
    rcases v.seen_cases c q with ⟨row', hq, hrow'⟩ | ⟨hq, hrow'⟩
    · rw [hrow'] at hb
      subst hb
      exact h.pending p q c c a b hp hq hclash
    · rw [hrow'] at hb
      rcases h.mixed p q c a b hp hb hclash with heq | ⟨row, hown⟩
      · exact heq
      · exact absurd rfl (hq _ hown)
  · rw [hrow] at ha
    rcases v.seen_cases c q with ⟨row', hq, hrow'⟩ | ⟨hq, hrow'⟩
    · rw [hrow'] at hb
      subst hb
      rcases h.mixed q p c b a hq ha (hsymm a b hclash) with heq | ⟨row, hown⟩
      · exact heq.symm
      · exact absurd rfl (hp _ hown)
    · rw [hrow'] at hb
      exact h.committed p q a b ha hb hclash

theorem Distinct.rollback (h : Distinct clash v) : Distinct clash (v.rollback c) where
  committed := h.committed
  pending := by
    intro p q d e a b hp hq
    exact h.pending p q d e a b ((v.pending_rollback c p _).mp hp).1
      ((v.pending_rollback c q _).mp hq).1
  mixed := by
    intro p q d a b hp hq hclash
    obtain ⟨hp, hd⟩ := (v.pending_rollback c p _).mp hp
    rcases h.mixed p q d a b hp hq hclash with heq | ⟨row, hrow⟩
    · exact .inl heq
    · exact .inr ⟨row, (v.pending_rollback c q _).mpr ⟨hrow, hd⟩⟩

theorem Distinct.commit (h : Distinct clash v) (hsymm : ∀ a b, clash a b → clash b a) :
    Distinct clash (v.commit c) where
  committed := by
    intro p q a b ha hb
    rw [get?_commit] at ha hb
    exact h.seen hsymm p q a b ha hb
  pending := by
    intro p q d e a b hp hq
    exact h.pending p q d e a b ((v.pending_commit c p _).mp hp).1
      ((v.pending_commit c q _).mp hq).1
  mixed := by
    intro p q d a b hp hq hclash
    obtain ⟨hp, hd⟩ := (v.pending_commit c p _).mp hp
    rw [get?_commit] at hq
    rcases v.seen_cases c q with ⟨row, hrow, hseen⟩ | ⟨-, hseen⟩
    · rw [hseen] at hq
      subst hq
      exact .inl (h.pending p q d c a b hp hrow hclash)
    · rw [hseen] at hq
      rcases h.mixed p q d a b hp hq hclash with heq | ⟨row, hrow⟩
      · exact .inl heq
      · exact .inr ⟨row, (v.pending_commit c q _).mpr ⟨hrow, hd⟩⟩

/-- **A row is rewritten** that clashes with no more rows than before. -/
theorem Distinct.write (h : Distinct clash v) (hsymm : ∀ a b, clash a b → clash b a) (pk : ℕ)
    (b : α) (row : Option α) (hfree : v.locked c pk = false) (hb : v.seen c pk = some b)
    (hless : ∀ a, row = some a → ∀ y, clash a y → clash b y) :
    Distinct clash (v.write c pk row) := by
  have hpending := v.pending_write c pk row (v.seen_bounded c pk b hb)
  have hown : ∀ p, v.pending pk = some p → p.owner = c := (v.locked_eq_false c pk).mp hfree
  -- What clashes with the new version clashes with the old one.
  have hnew : ∀ q d y, q ≠ pk → v.pending q = some ⟨d, some y⟩ → ¬ clash b y := by
    intro q d y hq hy hclash
    rcases v.seen_cases c pk with ⟨row', hrow', hseen⟩ | ⟨hnone, hseen⟩
    · rw [hseen] at hb
      subst hb
      exact hq (h.pending pk q c d b y hrow' hy hclash).symm
    · rw [hseen] at hb
      rcases h.mixed q pk d y b hy hb (hsymm b y hclash) with heq | ⟨row', hrow'⟩
      · exact hq heq
      · exact hnone _ hrow' (hown _ hrow')
  refine ⟨?_, ?_, ?_⟩
  · rw [committed_write]
    exact h.committed
  · intro p q d e x y hx hy hclash
    rw [hpending] at hx hy
    split at hx
    · next hp =>
      cases hx
      split at hy
      · next hq => rw [hp, hq]
      · next hq => exact absurd (hless x rfl y hclash) (hnew q e y hq hy)
    · next hp =>
      split at hy
      · cases hy
        exact absurd (hless y rfl x (hsymm x y hclash)) (hnew p d x hp hx)
      · exact h.pending p q d e x y hx hy hclash
  · intro p q d x y hx hy hclash
    rw [committed_write] at hy
    rw [hpending] at hx
    rw [hpending]
    split at hx
    · next hp =>
      cases hx
      by_cases hq : q = pk
      · exact .inl (hp.trans hq.symm)
      · rw [if_neg hq]
        have hold := hless x rfl y hclash
        rcases v.seen_cases c pk with ⟨row', hrow', hseen⟩ | ⟨-, hseen⟩
        · rw [hseen] at hb
          subst hb
          rcases h.mixed pk q c b y hrow' hy hold with heq | hrow
          · exact absurd heq.symm hq
          · exact .inr hrow
        · rw [hseen] at hb
          exact absurd (h.committed pk q b y hb hy hold).symm hq
    · next hp =>
      rcases h.mixed p q d x y hx hy hclash with heq | ⟨row', hrow'⟩
      · exact .inl heq
      · by_cases hq : q = pk
        · rw [hq] at hrow'
          have hd := hown _ hrow'
          subst hd
          exact .inr ⟨row, if_pos hq⟩
        · rw [if_neg hq]
          exact .inr ⟨row', hrow'⟩

/-- **A row is inserted** that has waited for those it may clash with. -/
theorem Distinct.insert (h : Distinct clash v) (hsymm : ∀ a b, clash a b → clash b a) (a : α)
    (p : α → Bool) (hp : ∀ b, clash a b → p b = true) (hawaits : v.awaits c p = false)
    (hview : (v.view c).any p = false) : Distinct clash (v.insert c a) := by
  have hseen : ∀ q b, v.seen c q = some b → ¬ clash a b := by
    intro q b hb hclash
    have hno := (Table.any_eq_false _ _).mp hview q b (by rw [get?_view]; exact hb)
    rw [hp b hclash] at hno
    cases hno
  have hother : ∀ q d row, v.pending q = some ⟨d, row⟩ → d ≠ c →
      row.any p = false ∧ (v.committed.get? q).any p = false := by
    intro q d row hrow hd
    unfold awaits at hawaits
    rw [List.any_eq_false] at hawaits
    have hq := hawaits q (List.mem_range.mpr (v.drawn q _ hrow).2)
    rw [hrow] at hq
    simpa [hd] using hq
  have hfree : ∀ q d b, v.pending q = some ⟨d, some b⟩ → ¬ clash a b := by
    intro q d b hb hclash
    by_cases hd : d = c
    · subst hd
      exact hseen q b (v.seen_own d q _ hb) hclash
    · have := (hother q d _ hb hd).1
      rw [Option.any_some, hp b hclash] at this
      cases this
  refine ⟨h.committed, ?_, ?_⟩
  · intro q r d e x y hx hy hclash
    rw [pending_insert] at hx hy
    split at hx
    · next hq =>
      cases hx
      split at hy
      · next hr => rw [hq, hr]
      · exact absurd hclash (hfree r e y hy)
    · split at hy
      · cases hy
        exact absurd (hsymm _ _ hclash) (hfree q d x hx)
      · exact h.pending q r d e x y hx hy hclash
  · intro q r d x y hx hy hclash
    have hr : r ≠ v.committed.next := Nat.ne_of_lt (v.committed.lt_next_of_get? r y hy)
    rw [pending_insert] at hx
    rw [pending_insert, if_neg hr]
    split at hx
    · cases hx
      rcases v.seen_cases c r with ⟨row, hrow, -⟩ | ⟨hnot, hsame⟩
      · exact .inr ⟨row, hrow⟩
      · exact absurd hclash (hseen r y (hsame.trans hy))
    · exact h.mixed q r d x y hx hy hclash

/-- Rows of a kind are deleted in one statement. -/
theorem Distinct.deleteWhere (h : Distinct clash v) (p : α → Bool)
    (hfree : v.lockedWhere c p = false) : Distinct clash (v.updateWhere c p fun _ => none) := by
  have hold : ∀ q d a, (v.updateWhere c p fun _ => none).pending q = some ⟨d, some a⟩ →
      v.pending q = some ⟨d, some a⟩ := by
    intro q d a ha
    rcases v.pending_updateWhere c p _ q _ ha with hold | ⟨b, -, -, hnew⟩
    · exact hold
    · cases hnew
  refine ⟨h.committed, fun q r d e a b ha hb => h.pending q r d e a b (hold q d a ha) (hold r e b hb),
    fun q r d a b ha hb hclash => ?_⟩
  rcases h.mixed q r d a b (hold q d a ha) hb hclash with heq | ⟨row, hrow⟩
  · exact .inl heq
  · by_cases hd : d = c
    · subst hd
      cases hpending : (v.updateWhere d p fun _ => none).pending r with
      | none =>
        simp only [updateWhere] at hpending
        split at hpending
        · split at hpending
          · cases hpending
          · rw [hrow] at hpending
            cases hpending
        · rw [hrow] at hpending
          cases hpending
      | some w =>
        rcases v.pending_updateWhere d p _ r _ hpending with hsame | ⟨x, -, -, hnew⟩
        · rw [hrow] at hsame
          cases hsame
          exact .inr ⟨row, rfl⟩
        · exact .inr ⟨none, by rw [hnew]⟩
    · exact .inr ⟨row, (v.pending_updateWhere_other c p _ hfree r ⟨d, row⟩ hd).mpr hrow⟩

end LamTo.Library.Versions
