import Mathlib.Tactic.Basic

/-!
# Calls that return or raise

A call that may raise is an `Except`. `require` is the guard such code is full of; the
lemmas read a successful call backwards: every guard held and every step returned.
-/

set_option autoImplicit false

namespace LamTo.Library

variable {ε α β : Type}

/-- Raise `e` unless `p` holds. -/
def require (p : Prop) [Decidable p] (e : ε) : Except ε Unit :=
  if p then .ok () else .error e

/-- The value of an option, or `e`. -/
def orRaise (o : Option α) (e : ε) : Except ε α :=
  match o with
  | some a => .ok a
  | none => .error e

theorem bind_eq_ok (x : Except ε α) (f : α → Except ε β) (b : β) :
    (x >>= f) = .ok b ↔ ∃ a, x = .ok a ∧ f a = .ok b := by
  cases x with
  | error e => simp [bind, Except.bind]
  | ok a => simp [bind, Except.bind]

@[simp] theorem ok_bind (a : α) (f : α → Except ε β) : (Except.ok a >>= f) = f a := rfl

@[simp] theorem error_bind (e : ε) (f : α → Except ε β) :
    (Except.error e >>= f) = .error e := rfl

theorem pure_eq_ok (a b : α) : (pure a : Except ε α) = .ok b ↔ a = b := by
  simp [pure, Except.pure]

theorem map_eq_ok (x : Except ε α) (f : α → β) (b : β) :
    x.map f = .ok b ↔ ∃ a, x = .ok a ∧ f a = b := by
  cases x with
  | error e => simp [Except.map]
  | ok a => simp [Except.map]

@[simp] theorem require_eq_ok (p : Prop) [Decidable p] (e : ε) (u : Unit) :
    require p e = .ok u ↔ p := by
  unfold require
  split <;> simp_all

theorem require_true (p : Prop) [Decidable p] (e : ε) (h : p) :
    require p e = .ok () := if_pos h

@[simp] theorem orRaise_eq_ok (o : Option α) (e : ε) (a : α) :
    orRaise o e = .ok a ↔ o = some a := by
  cases o <;> simp [orRaise]

theorem eq_ok_of_toOption (x : Except ε α) (a : α) (h : x.toOption = some a) : x = .ok a := by
  cases x with
  | error e => cases h
  | ok b =>
    cases h
    rfl

/-- What a successful traversal returns comes from the list. -/
theorem mem_of_mapM_some (f : α → Option β) (xs : List α) (ys : List β)
    (h : xs.mapM f = some ys) : ∀ y ∈ ys, ∃ x ∈ xs, f x = some y := by
  induction xs generalizing ys with
  | nil =>
    cases h
    simp
  | cons x xs ih =>
    simp only [List.mapM_cons, Option.bind_eq_bind, Option.bind_eq_some_iff, Option.pure_def,
      Option.some.injEq] at h
    obtain ⟨z, hz, zs, hzs, rfl⟩ := h
    intro y hy
    rcases List.mem_cons.mp hy with rfl | hy
    · exact ⟨x, List.mem_cons_self, hz⟩
    · obtain ⟨w, hw, hwy⟩ := ih zs hzs y hy
      exact ⟨w, List.mem_cons_of_mem _ hw, hwy⟩

/-- What a successful traversal returns, element by element. -/
theorem mapM_eq_ok (f : α → Except ε β) (xs : List α) (ys : List β) (h : xs.mapM f = .ok ys) :
    (∀ y ∈ ys, ∃ x ∈ xs, f x = .ok y) ∧ ∀ x ∈ xs, ∃ y ∈ ys, f x = .ok y := by
  induction xs generalizing ys with
  | nil =>
    cases h
    simp
  | cons x xs ih =>
    simp only [List.mapM_cons, bind_eq_ok, pure_eq_ok] at h
    obtain ⟨z, hz, zs, hzs, rfl⟩ := h
    obtain ⟨hleft, hright⟩ := ih zs hzs
    constructor
    · refine List.forall_mem_cons.mpr ⟨⟨x, List.mem_cons_self, hz⟩, fun y hy => ?_⟩
      obtain ⟨w, hw, hwy⟩ := hleft y hy
      exact ⟨w, List.mem_cons_of_mem _ hw, hwy⟩
    · refine List.forall_mem_cons.mpr ⟨⟨z, List.mem_cons_self, hz⟩, fun w hw => ?_⟩
      obtain ⟨y, hy, hwy⟩ := hright w hw
      exact ⟨y, List.mem_cons_of_mem _ hy, hwy⟩

theorem exists_mapM_ok (f : α → Except ε β) (xs : List α) (h : ∀ x ∈ xs, ∃ y, f x = .ok y) :
    ∃ ys, xs.mapM f = .ok ys := by
  induction xs with
  | nil => exact ⟨[], rfl⟩
  | cons x xs ih =>
    obtain ⟨⟨y, hy⟩, hxs⟩ := List.forall_mem_cons.mp h
    obtain ⟨ys, hys⟩ := ih hxs
    refine ⟨y :: ys, ?_⟩
    rw [List.mapM_cons, hy, ok_bind, hys, ok_bind]
    rfl

/-- What a successful traversal returns, through a function that knows each result. -/
theorem map_of_mapM_ok {γ : Type} (f : α → Except ε β) (g : β → γ) (h : α → γ) (xs : List α)
    (ys : List β) (hf : ∀ x y, f x = .ok y → g y = h x) (hys : xs.mapM f = .ok ys) :
    ys.map g = xs.map h := by
  induction xs generalizing ys with
  | nil =>
    cases hys
    rfl
  | cons x xs ih =>
    simp only [List.mapM_cons, bind_eq_ok, pure_eq_ok] at hys
    obtain ⟨y, hy, zs, hzs, rfl⟩ := hys
    rw [List.map_cons, List.map_cons, hf x y hy, ih zs hzs]

/-- A loop returns when every round does. -/
theorem forM_eq_ok (f : α → Except ε Unit) (xs : List α) :
    xs.forM f = .ok () ↔ ∀ x ∈ xs, f x = .ok () := by
  induction xs with
  | nil =>
    constructor
    · intro _ x hx
      cases hx
    · intro _
      rfl
  | cons x xs ih =>
    show (f x >>= fun _ => xs.forM f) = .ok () ↔ _
    rw [bind_eq_ok, List.forall_mem_cons]
    constructor
    · rintro ⟨_, hx, hxs⟩
      exact ⟨hx, ih.mp hxs⟩
    · rintro ⟨hx, hxs⟩
      exact ⟨(), hx, ih.mpr hxs⟩

end LamTo.Library
