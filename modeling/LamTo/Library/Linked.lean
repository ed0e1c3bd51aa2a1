import Mathlib.Data.List.Basic

/-!
# Linked lists of records

A list of records is linked when each names its predecessor: `prev` of the first is `start`,
and `prev` of every other is `next` of the one before it. New records are appended at the
end, so the rule is about the last.
-/

set_option autoImplicit false

namespace LamTo.Library

variable {α β : Type}

def Linked (prev next : α → β) : β → List α → Prop
  | _, [] => True
  | start, a :: as => prev a = start ∧ Linked prev next (next a) as

variable (prev next : α → β)

/-- A record may be appended when it names the last one. -/
theorem linked_concat (start : β) (as : List α) (a : α) :
    Linked prev next start (as ++ [a]) ↔
      Linked prev next start as ∧ prev a = (as.getLast?.map next).getD start := by
  induction as generalizing start with
  | nil => simp [Linked]
  | cons b bs ih =>
    rw [List.cons_append]
    simp only [Linked, ih, and_assoc]
    cases bs with
    | nil => simp
    | cons c cs => simp [List.getLast?_eq_some_getLast]

theorem linked_congr (prev' next' : α → β) (start : β) (as : List α)
    (h : ∀ a ∈ as, prev' a = prev a ∧ next' a = next a) (hlinked : Linked prev next start as) :
    Linked prev' next' start as := by
  induction as generalizing start with
  | nil => trivial
  | cons a as ih =>
    obtain ⟨hprev, hnext⟩ := h a List.mem_cons_self
    refine ⟨hprev.trans hlinked.1, ?_⟩
    rw [hnext]
    exact ih _ (fun b hb => h b (List.mem_cons_of_mem a hb)) hlinked.2

/-- Two neighbours. -/
theorem Linked.neighbours (start : β) (as : List α) (h : Linked prev next start as) (k : ℕ)
    (a b : α) (ha : as[k]? = some a) (hb : as[k + 1]? = some b) : prev b = next a := by
  induction as generalizing start k with
  | nil => simp at ha
  | cons c cs ih =>
    cases k with
    | zero =>
      rw [List.getElem?_cons_zero, Option.some.injEq] at ha
      rw [List.getElem?_cons_succ] at hb
      subst ha
      cases cs with
      | nil => simp at hb
      | cons d ds =>
        rw [List.getElem?_cons_zero, Option.some.injEq] at hb
        subst hb
        exact h.2.1
    | succ k =>
      rw [List.getElem?_cons_succ] at ha hb
      exact ih _ h.2 k ha hb

end LamTo.Library
