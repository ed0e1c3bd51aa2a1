import Mathlib.Data.List.Nodup

/-!
# The first item of each key

A loop over a list that skips the items whose key it has met, and those whose key is not wanted,
keeps the first item of every wanted key, in the order of the list.
-/

set_option autoImplicit false

namespace LamTo.Library

variable {α κ : Type} [DecidableEq κ] (key : α → κ) (wanted : κ → Bool)

/-- The items that are kept, the keys met so far given. -/
def firsts : List κ → List α → List α
  | _, [] => []
  | met, a :: as =>
    if key a ∈ met then firsts met as
    else if wanted (key a) then a :: firsts (met ++ [key a]) as
    else firsts met as

theorem firsts_sublist (met : List κ) (as : List α) : (firsts key wanted met as).Sublist as := by
  induction as generalizing met with
  | nil => exact List.Sublist.refl []
  | cons a as ih =>
    rw [firsts]
    split
    · exact (ih met).cons a
    · split
      · exact (ih _).cons_cons a
      · exact (ih met).cons a

/-- A kept item is the first of its key. -/
theorem first_of_mem_firsts (met : List κ) (as : List α) (a : α)
    (h : a ∈ firsts key wanted met as) :
    key a ∉ met ∧ wanted (key a) = true ∧
      ∃ before after, as = before ++ a :: after ∧ ∀ b ∈ before, key b ≠ key a := by
  induction as generalizing met with
  | nil => cases h
  | cons c as ih =>
    rw [firsts] at h
    split at h
    · next hmet =>
      obtain ⟨hnew, hwanted, before, after, rfl, hbefore⟩ := ih met h
      refine ⟨hnew, hwanted, c :: before, after, rfl, List.forall_mem_cons.mpr ⟨?_, hbefore⟩⟩
      exact fun heq => hnew (heq ▸ hmet)
    · next hmet =>
      split at h
      · next hwanted =>
        rcases List.mem_cons.mp h with rfl | h
        · exact ⟨hmet, hwanted, [], as, rfl, fun b hb => absurd hb List.not_mem_nil⟩
        · obtain ⟨hnew, hwanted', before, after, rfl, hbefore⟩ := ih _ h
          rw [List.mem_append, List.mem_singleton, not_or] at hnew
          refine ⟨hnew.1, hwanted', c :: before, after, rfl,
            List.forall_mem_cons.mpr ⟨Ne.symm hnew.2, hbefore⟩⟩
      · next hwanted =>
        obtain ⟨hnew, hwanted', before, after, rfl, hbefore⟩ := ih met h
        refine ⟨hnew, hwanted', c :: before, after, rfl,
          List.forall_mem_cons.mpr ⟨?_, hbefore⟩⟩
        exact fun heq => hwanted (heq ▸ hwanted')

theorem keys_firsts_nodup (met : List κ) (as : List α) :
    ((firsts key wanted met as).map key).Nodup := by
  induction as generalizing met with
  | nil => exact List.nodup_nil
  | cons a as ih =>
    rw [firsts]
    split
    · exact ih met
    · split
      · rw [List.map_cons, List.nodup_cons]
        refine ⟨fun hmem => ?_, ih _⟩
        obtain ⟨b, hb, hkey⟩ := List.mem_map.mp hmem
        refine (first_of_mem_firsts key wanted _ as b hb).1 ?_
        rw [hkey]
        simp
      · exact ih met

/-- **The keys that are kept**: the wanted ones among the items, but for those met before. -/
theorem mem_keys_firsts (met : List κ) (as : List α) (k : κ) :
    k ∈ (firsts key wanted met as).map key ↔
      k ∉ met ∧ wanted k = true ∧ ∃ a ∈ as, key a = k := by
  constructor
  · intro h
    obtain ⟨a, ha, rfl⟩ := List.mem_map.mp h
    obtain ⟨hnew, hwanted, _⟩ := first_of_mem_firsts key wanted met as a ha
    exact ⟨hnew, hwanted, a, (firsts_sublist key wanted met as).subset ha, rfl⟩
  · rintro ⟨hnew, hwanted, a, ha, rfl⟩
    induction as generalizing met with
    | nil => cases ha
    | cons c as ih =>
      rw [firsts]
      by_cases hsame : key c = key a
      · rw [if_neg (hsame ▸ hnew), if_pos (hsame ▸ hwanted), List.map_cons, hsame]
        exact List.mem_cons_self
      · have hrest : a ∈ as := by
          rcases List.mem_cons.mp ha with rfl | ha
          · exact absurd rfl hsame
          · exact ha
        split
        · exact ih met hrest hnew
        · split
          · refine List.mem_cons_of_mem _ (ih _ hrest ?_)
            rw [List.mem_append, List.mem_singleton, not_or]
            exact ⟨hnew, Ne.symm hsame⟩
          · exact ih met hrest hnew

end LamTo.Library
