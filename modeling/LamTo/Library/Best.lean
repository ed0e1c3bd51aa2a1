import Mathlib.Order.Lattice

/-!
# The best of a list

A scan that keeps the best candidate it has met, and its score: a candidate takes the place of the
best when its score is strictly higher. It starts from a floor without a candidate.

`bestFrom_cases` says where the winner stands: every candidate before it scores less, and none
after it scores more.
-/

set_option autoImplicit false

namespace LamTo.Library

variable {α S : Type} [LinearOrder S]

/-- One candidate, against the best so far. -/
def better (best : Option α × S) (x : α × S) : Option α × S :=
  if best.2 < x.2 then (some x.1, x.2) else best

def bestFrom (best : Option α × S) (xs : List (α × S)) : Option α × S := xs.foldl better best

/-- A score that no candidate exceeds stays the best. -/
theorem bestFrom_of_le (best : Option α × S) (xs : List (α × S)) (h : ∀ x ∈ xs, x.2 ≤ best.2) :
    bestFrom best xs = best := by
  induction xs with
  | nil => rfl
  | cons x xs ih =>
    have hx : better best x = best := if_neg (not_lt.mpr (h x List.mem_cons_self))
    rw [bestFrom, List.foldl_cons, hx]
    exact ih fun y hy => h y (List.mem_cons_of_mem x hy)

/-- The best is the one at the start, or the first of the highest scores. -/
theorem bestFrom_cases (best : Option α × S) (xs : List (α × S)) :
    ((∀ x ∈ xs, x.2 ≤ best.2) ∧ bestFrom best xs = best) ∨
      ∃ before x after, xs = before ++ x :: after ∧ best.2 < x.2 ∧
        (∀ y ∈ before, y.2 < x.2) ∧ (∀ y ∈ after, y.2 ≤ x.2) ∧
        bestFrom best xs = (some x.1, x.2) := by
  induction xs generalizing best with
  | nil =>
    refine .inl ⟨fun x hx => ?_, rfl⟩
    cases hx
  | cons z xs ih =>
    have hcons : bestFrom best (z :: xs) = bestFrom (better best z) xs := rfl
    rw [hcons]
    by_cases hz : best.2 < z.2
    · have hbetter : better best z = (some z.1, z.2) := if_pos hz
      rw [hbetter]
      refine .inr ?_
      rcases ih (some z.1, z.2) with ⟨hle, hbest⟩ | ⟨before, x, after, rfl, hlt, hb, ha, hbest⟩
      · refine ⟨[], z, xs, rfl, hz, fun y hy => ?_, hle, hbest⟩
        cases hy
      · refine ⟨z :: before, x, after, rfl, lt_trans hz hlt, ?_, ha, hbest⟩
        intro y hy
        rcases List.mem_cons.mp hy with rfl | hy
        · exact hlt
        · exact hb y hy
    · have hbetter : better best z = best := if_neg hz
      rw [hbetter]
      rcases ih best with ⟨hle, hbest⟩ | ⟨before, x, after, rfl, hlt, hb, ha, hbest⟩
      · refine .inl ⟨?_, hbest⟩
        intro y hy
        rcases List.mem_cons.mp hy with rfl | hy
        · exact not_lt.mp hz
        · exact hle y hy
      · refine .inr ⟨z :: before, x, after, rfl, hlt, ?_, ha, hbest⟩
        intro y hy
        rcases List.mem_cons.mp hy with rfl | hy
        · exact lt_of_le_of_lt (not_lt.mp hz) hlt
        · exact hb y hy

variable {floor score : S} {xs : List (α × S)}

/-- **There is no best** when no score is above the floor. -/
theorem bestFrom_eq_none : (bestFrom (none, floor) xs).1 = none ↔ ∀ x ∈ xs, x.2 ≤ floor := by
  constructor
  · intro h
    rcases bestFrom_cases (none, floor) xs with ⟨hle, -⟩ | ⟨-, x, -, -, -, -, -, hbest⟩
    · exact hle
    · rw [hbest] at h
      cases h
  · intro h
    rw [bestFrom_of_le _ _ h]

/-- **The best is a candidate**, with its score. -/
theorem mem_of_bestFrom {a : α} (h : bestFrom (none, floor) xs = (some a, score)) :
    (a, score) ∈ xs := by
  rcases bestFrom_cases (none, floor) xs with ⟨-, hbest⟩ | ⟨before, x, after, rfl, -, -, -, hbest⟩
  · rw [h] at hbest
    cases hbest
  · rw [h] at hbest
    cases hbest
    exact List.mem_append_right before List.mem_cons_self

/-- **No candidate has a better score.** -/
theorem le_of_bestFrom {best : Option α} (h : bestFrom (none, floor) xs = (best, score))
    (x : α × S) (hx : x ∈ xs) : x.2 ≤ score := by
  rcases bestFrom_cases (none, floor) xs with
    ⟨hle, hbest⟩ | ⟨before, y, after, rfl, -, hbefore, hafter, hbest⟩
  · rw [h] at hbest
    cases hbest
    exact hle x hx
  · rw [h] at hbest
    cases hbest
    rcases List.mem_append.mp hx with hx | hx
    · exact le_of_lt (hbefore x hx)
    · rcases List.mem_cons.mp hx with rfl | hx
      · exact le_refl _
      · exact hafter x hx

end LamTo.Library
