import Mathlib.Algebra.GroupWithZero.Nat
import Mathlib.Data.List.Basic

/-!
# Parts joined with a separator

Parts of which only the last may hold the separator are read off their join again, when their
number is known. If the parts of one join do not hold it at all, its separators are counted by
the number of parts, so no other parts of that number have the same join.
-/

set_option autoImplicit false

namespace LamTo.Library

variable {α : Type}

/-- Two texts cut at their first separator. -/
theorem append_cons_cancel (sep : α) (x y u v : List α) (hx : sep ∉ x) (hy : sep ∉ y)
    (h : x ++ sep :: u = y ++ sep :: v) : x = y ∧ u = v := by
  induction x generalizing y with
  | nil =>
    cases y with
    | nil => exact ⟨rfl, (List.cons.inj h).2⟩
    | cons b y => exact absurd (List.cons.inj h).1 (List.ne_of_not_mem_cons hy)
  | cons a x ih =>
    cases y with
    | nil => exact absurd (List.cons.inj h).1.symm (List.ne_of_not_mem_cons hx)
    | cons b y =>
      obtain ⟨rfl, htail⟩ := List.cons.inj h
      obtain ⟨rfl, rfl⟩ := ih y (List.not_mem_of_not_mem_cons hx)
        (List.not_mem_of_not_mem_cons hy) htail
      exact ⟨rfl, rfl⟩

/-- **The parts of a join**, when only the last may hold the separator. -/
theorem intercalate_injective (sep : α) (xs ys : List (List α)) (hlength : xs.length = ys.length)
    (hx : ∀ x ∈ xs.dropLast, sep ∉ x) (hy : ∀ y ∈ ys.dropLast, sep ∉ y)
    (h : [sep].intercalate xs = [sep].intercalate ys) : xs = ys := by
  induction xs generalizing ys with
  | nil => exact (List.length_eq_zero_iff.mp hlength.symm).symm
  | cons x xs ih =>
    cases ys with
    | nil => cases hlength
    | cons y ys =>
      have hlength' : xs.length = ys.length := Nat.succ.inj hlength
      cases xs with
      | nil =>
        obtain rfl := List.length_eq_zero_iff.mp hlength'.symm
        rw [List.intercalate_singleton, List.intercalate_singleton] at h
        rw [h]
      | cons x' xs =>
        cases ys with
        | nil => cases hlength'
        | cons y' ys =>
          rw [List.dropLast_cons_cons] at hx hy
          rw [List.intercalate_cons_cons, List.intercalate_cons_cons, List.append_assoc,
            List.append_assoc, List.singleton_append, List.singleton_append] at h
          obtain ⟨rfl, htail⟩ := append_cons_cancel sep x y _ _ (hx x List.mem_cons_self)
            (hy y List.mem_cons_self) h
          rw [ih (y' :: ys) hlength' (fun z hz => hx z (List.mem_cons_of_mem x hz))
            (fun z hz => hy z (List.mem_cons_of_mem x hz)) htail]

variable [DecidableEq α]

/-- The separators of a join: those between the parts and those within. -/
theorem count_intercalate (sep : α) (x : List α) (xs : List (List α)) :
    ([sep].intercalate (x :: xs)).count sep =
      xs.length + ((x :: xs).map (List.count sep)).sum := by
  induction xs generalizing x with
  | nil =>
    rw [List.intercalate_singleton]
    simp
  | cons y xs ih =>
    rw [List.intercalate_cons_cons, List.count_append, List.count_append, ih y]
    simp only [List.count_singleton_self, List.length_cons, List.map_cons, List.sum_cons]
    omega

/-- **Parts without the separator are the only ones of their number with their join.** -/
theorem eq_of_intercalate_eq (sep : α) (xs ys : List (List α)) (hlength : xs.length = ys.length)
    (hx : ∀ x ∈ xs, sep ∉ x) (h : [sep].intercalate xs = [sep].intercalate ys) : xs = ys := by
  have hy : ∀ y ∈ ys, sep ∉ y := by
    cases xs with
    | nil =>
      rw [List.length_eq_zero_iff.mp hlength.symm]
      exact fun y hy => absurd hy List.not_mem_nil
    | cons x xs =>
      cases ys with
      | nil => cases hlength
      | cons y ys =>
        have hfree : ((x :: xs).map (List.count sep)).sum = 0 := by
          refine List.sum_eq_zero_iff_forall_eq_nat.mpr fun n hn => ?_
          obtain ⟨z, hz, rfl⟩ := List.mem_map.mp hn
          exact List.count_eq_zero.mpr (hx z hz)
        have hcount := congrArg (List.count sep) h
        have hmore : xs.length = ys.length := Nat.succ.inj hlength
        rw [count_intercalate, count_intercalate, hfree, hmore, Nat.add_zero] at hcount
        have hzero : ((y :: ys).map (List.count sep)).sum = 0 := by omega
        intro z hz
        exact List.count_eq_zero.mp
          (List.sum_eq_zero_iff_forall_eq_nat.mp hzero _ (List.mem_map_of_mem hz))
  exact intercalate_injective sep xs ys hlength
    (fun x hmem => hx x (List.dropLast_subset xs hmem))
    (fun y hmem => hy y (List.dropLast_subset ys hmem)) h

end LamTo.Library
