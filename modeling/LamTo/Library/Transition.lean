import Mathlib.Logic.Relation

/-!
# Runs of a step function

A system is a partial step function over states and actions. `Reaches step ok s t` says
that `t` is reached from `s` by steps each of which meets `ok` in the state it is taken
from; `ok` is a condition on runs, and `Always` the one every step meets.

`Reaches.preserves` and `Reaches.monotone` are the two rules the results on runs are proved
with: what one step preserves a run preserves, and what one step relates a run relates.
-/

set_option autoImplicit false

namespace LamTo.Library

variable {σ α : Type}

/-- The condition every step meets. -/
def Always : σ → α → Prop := fun _ _ => True

/-- One step that meets the condition. -/
def Next (step : σ → α → Option σ) (ok : σ → α → Prop) (s t : σ) : Prop :=
  ∃ a, ok s a ∧ step s a = some t

def Reaches (step : σ → α → Option σ) (ok : σ → α → Prop) : σ → σ → Prop :=
  Relation.ReflTransGen (Next step ok)

/-- A schedule of actions, carried out in order; `none` when one of them is not enabled. -/
def run (step : σ → α → Option σ) : σ → List α → Option σ
  | s, [] => some s
  | s, a :: as => (step s a).bind fun t => run step t as

/-- The system that refuses a step outside the condition. -/
def guarded (step : σ → α → Option σ) (ok : σ → α → Prop) [∀ s a, Decidable (ok s a)] :
    σ → α → Option σ :=
  fun s a => if ok s a then step s a else none

section Rules

variable {step : σ → α → Option σ} {ok : σ → α → Prop} {s t : σ}

/-- **What one step preserves a run preserves.** -/
theorem Reaches.preserves (P : σ → Prop)
    (hstep : ∀ u a v, P u → ok u a → step u a = some v → P v)
    (h : Reaches step ok s t) (hs : P s) : P t := by
  induction h with
  | refl => exact hs
  | tail _ hnext ih =>
    obtain ⟨a, hok, ha⟩ := hnext
    exact hstep _ a _ ih hok ha

/-- **What one step relates a run relates**, under an invariant. -/
theorem Reaches.monotone (P : σ → Prop) (R : σ → σ → Prop) (hrefl : ∀ u, R u u)
    (htrans : ∀ u v w, R u v → R v w → R u w)
    (hinv : ∀ u a v, P u → ok u a → step u a = some v → P v)
    (hstep : ∀ u a v, P u → ok u a → step u a = some v → R u v)
    (h : Reaches step ok s t) (hs : P s) : R s t := by
  induction h with
  | refl => exact hrefl s
  | tail hreach hnext ih =>
    obtain ⟨a, hok, ha⟩ := hnext
    have hP := Reaches.preserves P hinv hreach hs
    exact htrans _ _ _ ih (hstep _ a _ hP hok ha)

/-- A run under a condition is a run under a weaker one. -/
theorem Reaches.weaken {ok' : σ → α → Prop} (h : Reaches step ok s t)
    (hok : ∀ u a, ok u a → ok' u a) : Reaches step ok' s t := by
  induction h with
  | refl => exact Relation.ReflTransGen.refl
  | tail _ hnext ih =>
    obtain ⟨a, hmet, ha⟩ := hnext
    exact ih.tail ⟨a, hok _ a hmet, ha⟩

/-- A run under a condition is a run. -/
theorem Reaches.always (h : Reaches step ok s t) : Reaches step Always s t :=
  h.weaken fun _ _ _ => trivial

/-- A schedule of actions that always meet the condition is a run under it. -/
theorem reaches_of_run_where (as : List α) (hok : ∀ a ∈ as, ∀ u, ok u a)
    (h : run step s as = some t) : Reaches step ok s t := by
  induction as generalizing s with
  | nil =>
    cases h
    exact Relation.ReflTransGen.refl
  | cons a as ih =>
    obtain ⟨u, hu, hrest⟩ := Option.bind_eq_some_iff.mp h
    have hnext : Next step ok s u := ⟨a, hok a List.mem_cons_self s, hu⟩
    exact Relation.ReflTransGen.head hnext (ih (fun b hb => hok b (List.mem_cons_of_mem a hb)) hrest)

theorem reaches_of_run (as : List α) (h : run step s as = some t) :
    Reaches step Always s t :=
  reaches_of_run_where as (fun _ _ _ => trivial) h

/-- A run of the guarded system is a run that meets the condition. -/
theorem Reaches.of_guarded [∀ s a, Decidable (ok s a)]
    (h : Reaches (guarded step ok) Always s t) : Reaches step ok s t := by
  induction h with
  | refl => exact Relation.ReflTransGen.refl
  | tail _ hnext ih =>
    obtain ⟨a, _, ha⟩ := hnext
    unfold guarded at ha
    split at ha
    · next hok => exact ih.tail ⟨a, hok, ha⟩
    · cases ha

end Rules

/-- A schedule that ends in a state with `P` is a run to one. -/
theorem exists_of_run (step : σ → α → Option σ) (s : σ) (P : σ → Prop) [DecidablePred P]
    (as : List α) (h : (run step s as).any (fun t => decide (P t)) = true) :
    ∃ t, Reaches step Always s t ∧ P t := by
  obtain ⟨t, ht, hP⟩ := (Option.any_eq_true _ _).mp h
  exact ⟨t, reaches_of_run as ht, of_decide_eq_true hP⟩

end LamTo.Library
