import Mathlib.Data.List.Flatten
import Mathlib.Data.List.Nodup
import Mathlib.Logic.Function.Iterate

/-!
# Sweeps over a list of waiting items

A sweep takes the first `limit` items that wait; those it is done with go, and those that stay are
at the front again in the next one. `Grouped` says when `k` sweeps are enough, from the list alone:
the items that go can be cut, in order, into at most `k` groups such that each group and the items
that stay before any of its members fit into one sweep together (`sweeps_done_iff`).
-/

set_option autoImplicit false

namespace LamTo.Library

variable {α : Type}

/-- One sweep. -/
def sweep (limit : ℕ) (stays : α → Bool) (l : List α) : List α :=
  (l.take limit).filter stays ++ l.drop limit

/-- For each item that goes, in order, the number of items before it that stay; `b` of them are
before the list. -/
def ahead (stays : α → Bool) : ℕ → List α → List ℕ
  | _, [] => []
  | b, a :: l => if stays a then ahead stays (b + 1) l else b :: ahead stays b l

/-- The items that go can be cut into at most `k` groups that fit. -/
def Grouped (limit k : ℕ) (bs : List ℕ) : Prop :=
  ∃ groups : List (List ℕ), groups.flatten = bs ∧ groups.length ≤ k ∧
    ∀ g ∈ groups, ∀ b ∈ g, b + g.length ≤ limit

section Counting

variable (stays : α → Bool)

theorem ahead_append (b : ℕ) (l l' : List α) :
    ahead stays b (l ++ l') = ahead stays b l ++ ahead stays (b + l.countP stays) l' := by
  induction l generalizing b with
  | nil => rfl
  | cons a l ih =>
    rw [List.cons_append, ahead, ahead, List.countP_cons]
    split
    · rw [ih, Nat.add_assoc, Nat.add_comm 1]
    · rw [ih, Nat.add_zero, List.cons_append]

theorem ahead_eq_nil (b : ℕ) (l : List α) : ahead stays b l = [] ↔ ∀ a ∈ l, stays a = true := by
  induction l generalizing b with
  | nil => simp [ahead]
  | cons a l ih =>
    rw [ahead, List.forall_mem_cons]
    split
    · next ha => rw [ih, and_iff_right ha]
    · next ha => simp [ha]

/-- Each of the numbers is between those before the list and those before its end. -/
theorem ahead_bounds (b : ℕ) (l : List α) (c : ℕ) (h : c ∈ ahead stays b l) :
    b ≤ c ∧ c ≤ b + l.countP stays := by
  induction l generalizing b with
  | nil => cases h
  | cons a l ih =>
    rw [ahead] at h
    rw [List.countP_cons]
    split at h
    · next ha =>
      have hrest := ih (b + 1) h
      rw [if_pos ha]
      omega
    · next ha =>
      rw [if_neg ha, Nat.add_zero]
      rcases List.mem_cons.mp h with rfl | htail
      · exact ⟨Nat.le_refl _, Nat.le_add_right _ _⟩
      · exact ih b htail

theorem length_ahead (b : ℕ) (l : List α) :
    (ahead stays b l).length + l.countP stays = l.length := by
  induction l generalizing b with
  | nil => rfl
  | cons a l ih =>
    rw [ahead, List.countP_cons, List.length_cons]
    split
    · rw [← ih (b + 1), Nat.add_assoc]
    · rw [← ih b, List.length_cons]
      omega

/-- A sweep takes the first of the items that go, and leaves before the others what stays. -/
theorem ahead_sweep (limit : ℕ) (l : List α) :
    ahead stays 0 (sweep limit stays l) =
      ahead stays ((l.take limit).countP stays) (l.drop limit) := by
  have hnone : ahead stays 0 ((l.take limit).filter stays) = [] :=
    (ahead_eq_nil stays 0 _).mpr fun a ha => (List.mem_filter.mp ha).2
  have hcount : ((l.take limit).filter stays).countP stays = (l.take limit).countP stays := by
    rw [List.countP_filter]
    simp only [Bool.and_self]
  rw [sweep, ahead_append, hnone, hcount, List.nil_append, Nat.zero_add]

theorem ahead_split (limit : ℕ) (l : List α) :
    ahead stays 0 l = ahead stays 0 (l.take limit) ++ ahead stays 0 (sweep limit stays l) := by
  rw [ahead_sweep, ← Nat.zero_add ((l.take limit).countP stays), ← ahead_append,
    List.take_append_drop]

end Counting

section Groups

variable {limit k : ℕ} {bs : List ℕ}

theorem grouped_zero : Grouped limit 0 bs ↔ bs = [] := by
  constructor
  · rintro ⟨groups, rfl, hlength, _⟩
    rw [List.length_eq_zero_iff.mp (Nat.le_zero.mp hlength)]
    rfl
  · rintro rfl
    exact ⟨[], rfl, Nat.le_refl 0, fun g hg => by cases hg⟩

theorem Grouped.nil : Grouped limit k [] := ⟨[], rfl, Nat.zero_le k, fun g hg => by cases hg⟩

theorem Grouped.cons (g : List ℕ) (hg : ∀ b ∈ g, b + g.length ≤ limit) (h : Grouped limit k bs) :
    Grouped limit (k + 1) (g ++ bs) := by
  obtain ⟨groups, rfl, hlength, hfit⟩ := h
  refine ⟨g :: groups, rfl, Nat.succ_le_succ hlength, ?_⟩
  exact List.forall_mem_cons.mpr ⟨hg, hfit⟩

/-- The first group, and the others. -/
theorem Grouped.uncons (h : Grouped limit (k + 1) bs) :
    ∃ g rest, bs = g ++ rest ∧ (∀ b ∈ g, b + g.length ≤ limit) ∧ Grouped limit k rest := by
  obtain ⟨groups, rfl, hlength, hfit⟩ := h
  cases groups with
  | nil => exact ⟨[], [], rfl, fun b hb => (by cases hb), .nil⟩
  | cons g groups =>
    obtain ⟨hg, hrest⟩ := List.forall_mem_cons.mp hfit
    exact ⟨g, groups.flatten, rfl, hg, groups, rfl, Nat.le_of_succ_le_succ hlength, hrest⟩

/-- What is left of groups that fit still fits. -/
theorem Grouped.drop (n : ℕ) (h : Grouped limit k bs) : Grouped limit k (bs.drop n) := by
  induction k generalizing bs n with
  | zero =>
    rw [grouped_zero.mp h, List.drop_nil]
    exact .nil
  | succ k ih =>
    obtain ⟨g, rest, rfl, hg, hrest⟩ := h.uncons
    rw [List.drop_append]
    refine .cons (g.drop n) (fun b hb => ?_) (ih (n - g.length) hrest)
    have hfits := hg b (List.mem_of_mem_drop hb)
    rw [List.length_drop]
    omega

end Groups

/-! ## Sweeps -/

section Sweeps

variable (limit : ℕ) (stays : α → Bool)

/-- A first group that fits goes in the first sweep. -/
theorem group_le_first (l : List α) (g rest : List ℕ) (hsplit : ahead stays 0 l = g ++ rest)
    (hg : ∀ b ∈ g, b + g.length ≤ limit) :
    g.length ≤ (ahead stays 0 (l.take limit)).length := by
  by_contra hlonger
  rw [Nat.not_le] at hlonger
  -- Then a member of the group is behind the first sweep, with all that stays in it before.
  have hfirst := length_ahead stays 0 (l.take limit)
  rw [ahead_split stays limit l, ahead_sweep] at hsplit
  obtain ⟨more, hmore⟩ : ∃ more, g = ahead stays 0 (l.take limit) ++ more := by
    have hle := Nat.le_of_lt hlonger
    refine ⟨g.drop (ahead stays 0 (l.take limit)).length, ?_⟩
    have htake := congrArg (List.take (ahead stays 0 (l.take limit)).length) hsplit
    rw [List.take_left, List.take_append_of_le_length hle] at htake
    conv_lhs => rw [← List.take_append_drop (ahead stays 0 (l.take limit)).length g]
    rw [← htake]
  cases more with
  | nil =>
    rw [hmore, List.append_nil] at hlonger
    exact Nat.lt_irrefl _ hlonger
  | cons c more =>
    have hc : c ∈ ahead stays ((l.take limit).countP stays) (l.drop limit) := by
      rw [hmore, List.append_assoc] at hsplit
      rw [List.append_cancel_left hsplit]
      exact List.mem_append_left _ List.mem_cons_self
    have hne : l.drop limit ≠ [] := by
      intro hnil
      rw [hnil] at hc
      cases hc
    have hfull : (l.take limit).length = limit :=
      List.length_take_of_le (Nat.le_of_not_le (List.drop_eq_nil_iff.not.mp hne))
    have hbound := (ahead_bounds stays _ _ c hc).1
    have hfits := hg c (by rw [hmore]; exact List.mem_append_right _ List.mem_cons_self)
    omega

/-- **`k` sweeps are enough exactly when the items that go can be cut into `k` groups that fit.** -/
theorem sweeps_done_iff (k : ℕ) (l : List α) :
    (∀ a ∈ (sweep limit stays)^[k] l, stays a = true) ↔ Grouped limit k (ahead stays 0 l) := by
  induction k generalizing l with
  | zero => rw [Function.iterate_zero_apply, grouped_zero, ahead_eq_nil]
  | succ k ih =>
    rw [Function.iterate_succ_apply, ih]
    constructor
    · intro h
      rw [ahead_split stays limit l]
      refine h.cons _ fun b hb => ?_
      have hbound := (ahead_bounds stays 0 _ b hb).2
      have hlength := length_ahead stays 0 (l.take limit)
      have htake := List.length_take_le limit l
      omega
    · intro h
      obtain ⟨g, rest, hsplit, hg, hrest⟩ := h.uncons
      have hle := group_le_first limit stays l g rest hsplit hg
      -- The first sweep takes the group and maybe more.
      have hdrop : ahead stays 0 (sweep limit stays l) =
          rest.drop ((ahead stays 0 (l.take limit)).length - g.length) := by
        rw [ahead_split stays limit l] at hsplit
        have hboth := congrArg (List.drop (ahead stays 0 (l.take limit)).length) hsplit
        rw [List.drop_left, List.drop_append, List.drop_eq_nil_of_le hle, List.nil_append] at hboth
        exact hboth
      rw [hdrop]
      exact hrest.drop _

/-- No item comes to those that wait. -/
theorem mem_of_mem_sweeps (k : ℕ) (l : List α) (a : α) (h : a ∈ (sweep limit stays)^[k] l) :
    a ∈ l := by
  induction k generalizing l with
  | zero => exact h
  | succ k ih =>
    rcases List.mem_append.mp (ih (sweep limit stays l) h) with hfirst | hrest
    · exact List.mem_of_mem_take (List.mem_filter.mp hfirst).1
    · exact List.mem_of_mem_drop hrest

/-- A sweep of distinct items drops those it takes that go. -/
theorem sweep_eq_filter [DecidableEq α] (l : List α) (h : l.Nodup) :
    sweep limit stays l = l.filter fun a => !(decide (a ∈ l.take limit) && !stays a) := by
  have hnodup : (l.take limit ++ l.drop limit).Nodup := by rwa [List.take_append_drop]
  have hdisjoint := List.disjoint_of_nodup_append hnodup
  conv_rhs => rw [← List.take_append_drop limit l, List.filter_append]
  rw [sweep]
  congr 1
  · refine List.filter_congr fun a ha => ?_
    rw [List.take_append_drop, decide_eq_true ha, Bool.true_and, Bool.not_not]
  · symm
    rw [List.filter_eq_self]
    intro a ha
    rw [List.take_append_drop, decide_eq_false (fun hmem => hdisjoint hmem ha)]
    rfl

end Sweeps

end LamTo.Library
