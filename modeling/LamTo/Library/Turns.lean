import LamTo.Library.Outcome

/-!
# Loops that thread a state

`turns f s as` runs `f` over a list, each turn from the state the one before left, and collects
what the turns return; the first error ends the loop.
-/

set_option autoImplicit false

namespace LamTo.Library

variable {σ α β ε : Type}

def turns (f : σ → α → Except ε (β × σ)) : σ → List α → Except ε (List β × σ)
  | s, [] => .ok ([], s)
  | s, a :: as => do
    let (b, s) ← f s a
    let (bs, s) ← turns f s as
    return (b :: bs, s)

variable {f : σ → α → Except ε (β × σ)} {s t : σ} {as : List α} {bs : List β}

theorem turns_nil : turns f s [] = .ok (bs, t) ↔ bs = [] ∧ t = s := by
  constructor
  · intro h
    obtain ⟨rfl, rfl⟩ := Prod.mk.inj (Except.ok.inj h)
    exact ⟨rfl, rfl⟩
  · rintro ⟨rfl, rfl⟩
    rfl

theorem turns_cons (a : α) : turns f s (a :: as) = .ok (bs, t) ↔
    ∃ b u bs', f s a = .ok (b, u) ∧ turns f u as = .ok (bs', t) ∧ bs = b :: bs' := by
  rw [turns]
  constructor
  · intro h
    obtain ⟨⟨b, u⟩, hturn, h⟩ := (bind_eq_ok _ _ _).mp h
    obtain ⟨⟨bs', v⟩, hrest, h⟩ := (bind_eq_ok _ _ _).mp h
    obtain ⟨rfl, rfl⟩ := Prod.mk.inj (Except.ok.inj h)
    exact ⟨b, u, bs', hturn, hrest, rfl⟩
  · rintro ⟨b, u, bs', hturn, hrest, rfl⟩
    rw [hturn, ok_bind]
    dsimp only
    rw [hrest]
    rfl

/-- **What one turn relates a loop relates.** -/
theorem turns_relates (R : σ → σ → Prop) (hrefl : ∀ u, R u u)
    (htrans : ∀ u v w, R u v → R v w → R u w)
    (hturn : ∀ u a b v, f u a = .ok (b, v) → R u v) (h : turns f s as = .ok (bs, t)) : R s t := by
  induction as generalizing s bs with
  | nil =>
    obtain ⟨_, rfl⟩ := turns_nil.mp h
    exact hrefl t
  | cons a as ih =>
    obtain ⟨b, u, bs', hfirst, hrest, _⟩ := (turns_cons a).mp h
    exact htrans _ _ _ (hturn _ _ _ _ hfirst) (ih hrest)

end LamTo.Library
