import Mathlib.Algebra.BigOperators.Group.List.Basic

/-!
# Sums over the entries of a kind

What a report adds up: the values of the entries of a list that satisfy a test. A test that
splits into two splits its sum, and the order of the entries does not matter.
-/

set_option autoImplicit false

namespace LamTo.Library

section FilteredSums

variable {E A : Type} [AddCommMonoid A] (value : E → A)

/-- The sum of the values of the entries that satisfy `p`. -/
def sumWhere (p : E → Bool) (entries : List E) : A := ((entries.filter p).map value).sum

theorem sumWhere_nil (p : E → Bool) : sumWhere value p [] = 0 := rfl

theorem sumWhere_cons (p : E → Bool) (e : E) (entries : List E) :
    sumWhere value p (e :: entries) =
      (if p e = true then value e else 0) + sumWhere value p entries := by
  unfold sumWhere
  cases h : p e with
  | true => simp [h]
  | false => simp [h]

theorem sumWhere_congr (p q : E → Bool) (entries : List E) (h : ∀ e ∈ entries, p e = q e) :
    sumWhere value p entries = sumWhere value q entries := by
  unfold sumWhere
  rw [List.filter_congr h]

theorem sumWhere_all (p : E → Bool) (entries : List E) (h : ∀ e ∈ entries, p e = true) :
    sumWhere value p entries = (entries.map value).sum := by
  unfold sumWhere
  rw [List.filter_eq_self.mpr h]

theorem sumWhere_none (p : E → Bool) (entries : List E) (h : ∀ e ∈ entries, p e = false) :
    sumWhere value p entries = 0 := by
  unfold sumWhere
  rw [List.filter_eq_nil_iff.mpr fun e he => by simp [h e he]]
  rfl

theorem sumWhere_perm (p : E → Bool) (entries entries' : List E) (h : entries.Perm entries') :
    sumWhere value p entries = sumWhere value p entries' :=
  ((h.filter p).map value).sum_eq

theorem sumWhere_concat (p : E → Bool) (e : E) (entries : List E) :
    sumWhere value p (entries ++ [e]) =
      sumWhere value p entries + if p e = true then value e else 0 := by
  rw [sumWhere_perm value p _ _ (List.perm_append_singleton e entries), sumWhere_cons, add_comm]

/-- A test that is one of two exclusive tests. -/
theorem sumWhere_split (p q r : E → Bool) (entries : List E)
    (h : ∀ e ∈ entries, p e = (q e || r e) ∧ (q e && r e) = false) :
    sumWhere value p entries = sumWhere value q entries + sumWhere value r entries := by
  induction entries with
  | nil => simp [sumWhere_nil]
  | cons e entries ih =>
    have hrest := ih fun x hx => h x (List.mem_cons_of_mem e hx)
    obtain ⟨hp, hqr⟩ := h e List.mem_cons_self
    rw [sumWhere_cons, sumWhere_cons, sumWhere_cons, hrest, hp]
    cases hq : q e with
    | true =>
      have hr : r e = false := by simpa [hq] using hqr
      simp only [hr, Bool.or_false, if_true, Bool.false_eq_true, if_false, zero_add]
      exact (add_assoc _ _ _).symm
    | false =>
      simp only [Bool.false_or, Bool.false_eq_true, if_false, zero_add]
      exact add_left_comm _ _ _

/-- The sums over the entries of each of some distinct keys add up to the sum over all of
them. -/
theorem sum_map_sumWhere {K : Type} [DecidableEq K] (p : K → E → Bool) (keys : List K)
    (entries : List E) (hkeys : keys.Nodup)
    (hone : ∀ e ∈ entries, ∀ k l, p k e = true → p l e = true → k = l) :
    (keys.map fun k => sumWhere value (p k) entries).sum =
      sumWhere value (fun e => keys.any fun k => p k e) entries := by
  induction keys with
  | nil => exact (sumWhere_none value _ entries fun _ _ => rfl).symm
  | cons k keys ih =>
    rw [List.map_cons, List.sum_cons, ih (List.nodup_cons.mp hkeys).2]
    refine (sumWhere_split value (fun e => (k :: keys).any fun l => p l e) (p k)
      (fun e => keys.any fun l => p l e) entries fun e he => ⟨List.any_cons, ?_⟩).symm
    rw [Bool.and_eq_false_iff]
    by_cases hk : p k e = true
    · right
      rw [List.any_eq_false]
      intro l hl hpl
      exact (List.nodup_cons.mp hkeys).1 (hone e he k l hk hpl ▸ hl)
    · exact Or.inl (Bool.not_eq_true _ ▸ hk)

end FilteredSums

end LamTo.Library
