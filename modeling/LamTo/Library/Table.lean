import Mathlib.Data.List.Basic
import Mathlib.Data.List.Nodup
import Mathlib.Order.MinMax

/-!
# Tables with generated keys

A table holds its rows in key order. Keys come from a counter that starts at one and only
grows; a key once handed out is never handed out again, and `skip` drops keys the way a
sequence does when the call that drew them fails.

What a reader of a table needs is `get?` after each operation and membership in `rows`;
the invariants are fields, so every table that can be written down has them. `Evolves` says
what happened to a table between two states, row by row.
-/

set_option autoImplicit false

namespace LamTo.Library

structure Table (α : Type) where
  rows : List (ℕ × α)
  next : ℕ
  ordered : rows.Pairwise fun a b => a.1 < b.1
  below : ∀ r ∈ rows, r.1 < next
  positive : ∀ r ∈ rows, 0 < r.1
  next_pos : 0 < next

namespace Table

variable {α : Type}

def empty : Table α where
  rows := []
  next := 1
  ordered := List.Pairwise.nil
  below := by simp
  positive := by simp
  next_pos := Nat.one_pos

/-- The row with a given key. -/
def get? (t : Table α) (pk : ℕ) : Option α :=
  (t.rows.find? fun r => r.1 = pk).map Prod.snd

/-- The table with one more row, under the next key. -/
def insert (t : Table α) (a : α) : Table α where
  rows := t.rows ++ [(t.next, a)]
  next := t.next + 1
  ordered := by
    rw [List.pairwise_append]
    refine ⟨t.ordered, List.pairwise_singleton _ _, ?_⟩
    intro r hr s hs
    rw [List.mem_singleton.mp hs]
    exact t.below r hr
  below := by
    intro r hr
    rcases List.mem_append.mp hr with hr | hr
    · exact Nat.lt_succ_of_lt (t.below r hr)
    · rw [List.mem_singleton.mp hr]
      exact Nat.lt_succ_self _
  positive := by
    intro r hr
    rcases List.mem_append.mp hr with hr | hr
    · exact t.positive r hr
    · rw [List.mem_singleton.mp hr]
      exact t.next_pos
  next_pos := Nat.succ_pos _

/-- The change one row update makes to a stored row. -/
def updateRow (pk : ℕ) (f : α → α) (r : ℕ × α) : ℕ × α :=
  if r.1 = pk then (r.1, f r.2) else r

theorem updateRow_fst (pk : ℕ) (f : α → α) (r : ℕ × α) : (updateRow pk f r).1 = r.1 := by
  unfold updateRow
  split <;> rfl

/-- The table with the row of one key rewritten. -/
def update (t : Table α) (pk : ℕ) (f : α → α) : Table α where
  rows := t.rows.map (updateRow pk f)
  next := t.next
  ordered := by
    rw [List.pairwise_map]
    exact t.ordered.imp fun h => by rw [updateRow_fst, updateRow_fst]; exact h
  below := by
    intro r hr
    obtain ⟨s, hs, rfl⟩ := List.mem_map.mp hr
    rw [updateRow_fst]
    exact t.below s hs
  positive := by
    intro r hr
    obtain ⟨s, hs, rfl⟩ := List.mem_map.mp hr
    rw [updateRow_fst]
    exact t.positive s hs
  next_pos := t.next_pos

/-- The same rows, with `n` keys dropped from the counter. -/
def skip (t : Table α) (n : ℕ) : Table α where
  rows := t.rows
  next := t.next + n
  ordered := t.ordered
  below := fun r hr => Nat.lt_add_right n (t.below r hr)
  positive := t.positive
  next_pos := Nat.add_pos_left t.next_pos n

/-- The table with every row rewritten. -/
def mapRows (t : Table α) (f : ℕ → α → α) : Table α where
  rows := t.rows.map fun r => (r.1, f r.1 r.2)
  next := t.next
  ordered := by
    rw [List.pairwise_map]
    exact t.ordered
  below := by
    intro r hr
    obtain ⟨s, hs, rfl⟩ := List.mem_map.mp hr
    exact t.below s hs
  positive := by
    intro r hr
    obtain ⟨s, hs, rfl⟩ := List.mem_map.mp hr
    exact t.positive s hs
  next_pos := t.next_pos

/-- The table without the rows of a kind; their keys are not drawn again. -/
def remove (t : Table α) (p : ℕ → α → Bool) : Table α where
  rows := t.rows.filter fun r => !p r.1 r.2
  next := t.next
  ordered := t.ordered.filter _
  below := fun r hr => t.below r (List.mem_filter.mp hr).1
  positive := fun r hr => t.positive r (List.mem_filter.mp hr).1
  next_pos := t.next_pos

/-- The table with a row under a key of the caller's choice, which no row may have. -/
def insertAt (t : Table α) (pk : ℕ) (a : α) (h : 0 < pk ∧ ∀ r ∈ t.rows, r.1 ≠ pk) :
    Table α where
  rows := (t.rows.filter fun r => r.1 < pk) ++ (pk, a) :: t.rows.filter fun r => pk < r.1
  next := max t.next (pk + 1)
  ordered := by
    rw [List.pairwise_append, List.pairwise_cons]
    refine ⟨t.ordered.filter _, ⟨?_, t.ordered.filter _⟩, ?_⟩
    · intro r hr
      simpa using (List.mem_filter.mp hr).2
    · intro r hr s hs
      have hr' : r.1 < pk := by simpa using (List.mem_filter.mp hr).2
      rcases List.mem_cons.mp hs with rfl | hs
      · exact hr'
      · have hs' : pk < s.1 := by simpa using (List.mem_filter.mp hs).2
        exact Nat.lt_trans hr' hs'
  below := by
    intro r hr
    rcases List.mem_append.mp hr with hr | hr
    · exact lt_max_of_lt_left (t.below r (List.mem_filter.mp hr).1)
    · rcases List.mem_cons.mp hr with rfl | hr
      · exact lt_max_of_lt_right (Nat.lt_succ_self _)
      · exact lt_max_of_lt_left (t.below r (List.mem_filter.mp hr).1)
  positive := by
    intro r hr
    rcases List.mem_append.mp hr with hr | hr
    · exact t.positive r (List.mem_filter.mp hr).1
    · rcases List.mem_cons.mp hr with rfl | hr
      · exact h.1
      · exact t.positive r (List.mem_filter.mp hr).1
  next_pos := lt_max_of_lt_left t.next_pos

/-- The first row, in key order, of a kind. -/
def first? (t : Table α) (p : α → Bool) : Option (ℕ × α) := t.rows.find? fun r => p r.2

/-- The rows of a kind, in key order. -/
def select (t : Table α) (p : α → Bool) : List (ℕ × α) := t.rows.filter fun r => p r.2

def any (t : Table α) (p : α → Bool) : Bool := t.rows.any fun r => p r.2

/-! ## Reading -/

theorem keys_nodup (t : Table α) : (t.rows.map Prod.fst).Nodup := by
  rw [List.Nodup, List.pairwise_map]
  exact t.ordered.imp fun h => Nat.ne_of_lt h

theorem rows_nodup (t : Table α) : t.rows.Nodup := t.keys_nodup.of_map

theorem key_inj (t : Table α) (pk : ℕ) (a b : α) (ha : (pk, a) ∈ t.rows)
    (hb : (pk, b) ∈ t.rows) : a = b :=
  (Prod.mk.inj (List.inj_on_of_nodup_map t.keys_nodup ha hb rfl)).2

theorem get?_eq_some (t : Table α) (pk : ℕ) (a : α) :
    t.get? pk = some a ↔ (pk, a) ∈ t.rows := by
  constructor
  · intro h
    obtain ⟨r, hr, rfl⟩ := Option.map_eq_some_iff.mp h
    have hpk : r.1 = pk := by simpa using List.find?_some hr
    rw [← hpk]
    exact List.mem_of_find?_eq_some hr
  · intro h
    cases hfind : t.rows.find? fun r => r.1 = pk with
    | none =>
      have := List.find?_eq_none.mp hfind (pk, a) h
      simp at this
    | some r =>
      have hpk : r.1 = pk := by simpa using List.find?_some hfind
      have hmem : (pk, r.2) ∈ t.rows := by
        rw [← hpk]
        exact List.mem_of_find?_eq_some hfind
      rw [get?, hfind, Option.map_some, t.key_inj pk a r.2 h hmem]

theorem get?_ext (t u : Table α) (h : ∀ pk a, (pk, a) ∈ t.rows ↔ (pk, a) ∈ u.rows) (pk : ℕ) :
    t.get? pk = u.get? pk := by
  apply Option.ext
  intro a
  rw [get?_eq_some, get?_eq_some, h]

@[simp] theorem get?_empty (pk : ℕ) : (empty : Table α).get? pk = none := rfl

theorem lt_next_of_get? (t : Table α) (pk : ℕ) (a : α) (h : t.get? pk = some a) :
    pk < t.next := t.below _ ((t.get?_eq_some pk a).mp h)

theorem pos_of_get? (t : Table α) (pk : ℕ) (a : α) (h : t.get? pk = some a) : 0 < pk :=
  t.positive _ ((t.get?_eq_some pk a).mp h)

theorem get?_next (t : Table α) : t.get? t.next = none := by
  cases h : t.get? t.next with
  | none => rfl
  | some a => exact absurd (t.lt_next_of_get? _ a h) (Nat.lt_irrefl _)

theorem get?_congr (t u : Table α) (h : t.rows = u.rows) (pk : ℕ) : t.get? pk = u.get? pk := by
  rw [get?, get?, h]

theorem any_eq_false (t : Table α) (p : α → Bool) :
    t.any p = false ↔ ∀ pk a, t.get? pk = some a → p a = false := by
  simp only [any, List.any_eq_false, Bool.not_eq_true, Prod.forall, get?_eq_some]

theorem any_eq_true (t : Table α) (p : α → Bool) :
    t.any p = true ↔ ∃ pk a, t.get? pk = some a ∧ p a = true := by
  simp only [any, List.any_eq_true, Prod.exists, get?_eq_some]

/-- The row a search finds is a row, and of the kind searched for. -/
theorem first?_eq_some (t : Table α) (p : α → Bool) (pk : ℕ) (a : α)
    (h : t.first? p = some (pk, a)) : t.get? pk = some a ∧ p a = true := by
  unfold first? at h
  have hp := List.find?_some h
  exact ⟨(t.get?_eq_some pk a).mpr (List.mem_of_find?_eq_some h), hp⟩

theorem first?_eq_none (t : Table α) (p : α → Bool) :
    t.first? p = none ↔ ∀ pk a, t.get? pk = some a → p a = false := by
  simp only [first?, List.find?_eq_none, Bool.not_eq_true, Prod.forall, get?_eq_some]

theorem mem_select (t : Table α) (p : α → Bool) (pk : ℕ) (a : α) :
    (pk, a) ∈ t.select p ↔ t.get? pk = some a ∧ p a = true := by
  rw [select, List.mem_filter, get?_eq_some]

theorem select_congr (t u : Table α) (p : α → Bool) (h : t.rows = u.rows) :
    t.select p = u.select p := by
  rw [select, select, h]

/-- At most one row is of a kind when two such rows have one key. -/
theorem select_length_le_one (t : Table α) (p : α → Bool)
    (h : ∀ pk a q b, t.get? pk = some a → t.get? q = some b → p a = true → p b = true → pk = q) :
    (t.select p).length ≤ 1 := by
  have hordered : (t.select p).Pairwise fun a b => a.1 < b.1 := t.ordered.filter _
  have hmem : ∀ r ∈ t.select p, t.get? r.1 = some r.2 ∧ p r.2 = true := fun r hr =>
    (t.mem_select p r.1 r.2).mp hr
  generalize t.select p = rows at hordered hmem
  match rows, hordered, hmem with
  | [], _, _ => exact Nat.zero_le 1
  | [_], _, _ => exact Nat.le_refl 1
  | a :: b :: rest, hordered, hmem =>
    obtain ⟨ha, hpa⟩ := hmem a (by simp)
    obtain ⟨hb, hpb⟩ := hmem b (by simp)
    have hlt := (List.pairwise_cons.mp hordered).1 b List.mem_cons_self
    exact absurd (h a.1 a.2 b.1 b.2 ha hb hpa hpb) (Nat.ne_of_lt hlt)

/-- A search that only one row answers finds it. -/
theorem first?_eq_of_unique (t : Table α) (p : α → Bool) (pk : ℕ) (a : α)
    (h : t.get? pk = some a) (hp : p a = true)
    (hunique : ∀ q b, t.get? q = some b → p b = true → q = pk) :
    t.first? p = some (pk, a) := by
  cases hfirst : t.first? p with
  | none =>
    have := (t.first?_eq_none p).mp hfirst pk a h
    rw [hp] at this
    cases this
  | some r =>
    obtain ⟨q, b⟩ := r
    obtain ⟨hq, hb⟩ := t.first?_eq_some p q b hfirst
    obtain rfl := hunique q b hq hb
    rw [h] at hq
    cases hq
    rfl

/-! ## Reading after a write -/

theorem get?_insert (t : Table α) (a : α) (pk : ℕ) :
    (t.insert a).get? pk = if pk = t.next then some a else t.get? pk := by
  apply Option.ext
  intro b
  rw [get?_eq_some]
  simp only [insert, List.mem_append, List.mem_singleton, Prod.mk.injEq]
  split
  · next hpk =>
    subst hpk
    rw [← get?_eq_some, get?_next]
    simp [eq_comm]
  · next hpk => simp [hpk, get?_eq_some]

@[simp] theorem get?_insert_self (t : Table α) (a : α) : (t.insert a).get? t.next = some a := by
  rw [get?_insert, if_pos rfl]

/-- A row that was there is there after an insertion. -/
theorem get?_insert_of_some (t : Table α) (a b : α) (pk : ℕ) (h : t.get? pk = some b) :
    (t.insert a).get? pk = some b := by
  rw [get?_insert, if_neg (Nat.ne_of_lt (t.lt_next_of_get? pk b h)), h]

/-- A new row comes last among the rows of its kind. -/
theorem select_insert (t : Table α) (a : α) (p : α → Bool) :
    (t.insert a).select p = t.select p ++ if p a then [(t.next, a)] else [] := by
  simp only [select, insert, List.filter_append, List.filter_singleton, Bool.cond_eq_ite]

theorem get?_update (t : Table α) (pk : ℕ) (f : α → α) (q : ℕ) :
    (t.update pk f).get? q = if q = pk then (t.get? q).map f else t.get? q := by
  have hfind : ∀ rows : List (ℕ × α),
      ((rows.map (updateRow pk f)).find? fun r => r.1 = q) =
        (rows.find? fun r => r.1 = q).map (updateRow pk f) := by
    intro rows
    rw [List.find?_map]
    simp only [Function.comp_def, updateRow_fst]
  have hkey : ∀ r, (t.rows.find? fun r => r.1 = q) = some r → r.1 = q := by
    intro r hr
    simpa using List.find?_some hr
  simp only [get?, update, hfind]
  cases h : t.rows.find? fun r => r.1 = q with
  | none => simp
  | some r =>
    simp only [Option.map_some, updateRow, hkey r h]
    split <;> rfl

@[simp] theorem get?_update_self (t : Table α) (pk : ℕ) (f : α → α) :
    (t.update pk f).get? pk = (t.get? pk).map f := by
  rw [get?_update, if_pos rfl]

theorem get?_update_ne (t : Table α) (pk q : ℕ) (f : α → α) (h : q ≠ pk) :
    (t.update pk f).get? q = t.get? q := by
  rw [get?_update, if_neg h]

/-- What an update keeps of every row, the table keeps. -/
theorem get?_update_map {β : Type} (t : Table α) (pk : ℕ) (f : α → α) (g : α → β)
    (h : ∀ a, g (f a) = g a) (q : ℕ) :
    ((t.update pk f).get? q).map g = (t.get? q).map g := by
  rw [get?_update]
  split
  · cases t.get? q <;> simp [h]
  · rfl

@[simp] theorem get?_mapRows (t : Table α) (f : ℕ → α → α) (pk : ℕ) :
    (t.mapRows f).get? pk = (t.get? pk).map (f pk) := by
  have hkey : ∀ r, (t.rows.find? fun r => r.1 = pk) = some r → r.1 = pk := by
    intro r hr
    simpa using List.find?_some hr
  simp only [get?, mapRows, List.find?_map, Function.comp_def]
  cases h : t.rows.find? fun r => r.1 = pk with
  | none => rfl
  | some r => simp [hkey r h]

theorem get?_remove (t : Table α) (p : ℕ → α → Bool) (pk : ℕ) (a : α) :
    (t.remove p).get? pk = some a ↔ t.get? pk = some a ∧ p pk a = false := by
  rw [get?_eq_some, get?_eq_some, remove, List.mem_filter, Bool.not_eq_true']

@[simp] theorem get?_skip (t : Table α) (n pk : ℕ) : (t.skip n).get? pk = t.get? pk := rfl

/-- Putting a row at its key only permutes the rows. -/
theorem insertAt_perm (t : Table α) (pk : ℕ) (a : α) (h : 0 < pk ∧ ∀ r ∈ t.rows, r.1 ≠ pk) :
    (t.insertAt pk a h).rows.Perm ((pk, a) :: t.rows) := by
  have hlarger : (t.rows.filter fun r => decide (pk < r.1)) =
      t.rows.filter fun r => !decide (r.1 < pk) := by
    apply List.filter_congr
    intro r hr
    have hne := h.2 r hr
    simp only [← decide_not, decide_eq_decide]
    omega
  refine List.perm_middle.trans (List.Perm.cons _ ?_)
  rw [hlarger]
  exact List.filter_append_perm _ t.rows

theorem get?_insertAt (t : Table α) (pk : ℕ) (a : α) (h : 0 < pk ∧ ∀ r ∈ t.rows, r.1 ≠ pk)
    (q : ℕ) : (t.insertAt pk a h).get? q = if q = pk then some a else t.get? q := by
  apply Option.ext
  intro b
  rw [get?_eq_some, (t.insertAt_perm pk a h).mem_iff, List.mem_cons, Prod.mk.injEq]
  split
  · next hq =>
    subst hq
    have hnot : (q, b) ∉ t.rows := fun hmem => h.2 _ hmem rfl
    simp [hnot, eq_comm]
  · next hq => simp [hq, get?_eq_some]

/-! ## A table before and after -/

/-- No row is lost: each is found again under its key, changed by `R`, and a further row is
under the next key, by `N`. -/
structure Evolves (t u : Table α) (R : ℕ → α → α → Prop) (N : α → Prop) : Prop where
  kept : ∀ pk a, t.get? pk = some a → ∃ b, u.get? pk = some b ∧ R pk a b
  found : ∀ pk b, u.get? pk = some b →
    (∃ a, t.get? pk = some a ∧ R pk a b) ∨ (pk = t.next ∧ N b)

section Evolution

variable {t u : Table α} {R : ℕ → α → α → Prop} {N : α → Prop}

/-- Row by row: a row is as it was, or changed. -/
theorem Evolves.of_rows (hrefl : ∀ pk a, R pk a a)
    (h : ∀ pk, u.get? pk = t.get? pk ∨
      ∃ a b, t.get? pk = some a ∧ u.get? pk = some b ∧ R pk a b) : Evolves t u R N := by
  constructor
  · intro pk a ha
    rcases h pk with hsame | ⟨c, b, hc, hb, hR⟩
    · exact ⟨a, hsame.trans ha, hrefl pk a⟩
    · cases ha.symm.trans hc
      exact ⟨b, hb, hR⟩
  · intro pk b hb
    rcases h pk with hsame | ⟨a, c, ha, hc, hR⟩
    · exact .inl ⟨b, hsame.symm.trans hb, hrefl pk b⟩
    · cases hb.symm.trans hc
      exact .inl ⟨a, ha, hR⟩

theorem Evolves.of_eq (hrefl : ∀ pk a, R pk a a) (h : ∀ pk, u.get? pk = t.get? pk) :
    Evolves t u R N := .of_rows hrefl fun pk => .inl (h pk)

/-- Every row is rewritten by a function. -/
theorem Evolves.of_map (f : ℕ → α → α) (h : ∀ pk, u.get? pk = (t.get? pk).map (f pk))
    (hf : ∀ pk a, t.get? pk = some a → R pk a (f pk a)) : Evolves t u R N := by
  constructor
  · intro pk a ha
    refine ⟨f pk a, ?_, hf pk a ha⟩
    rw [h, ha, Option.map_some]
  · intro pk b hb
    rw [h] at hb
    obtain ⟨a, ha, rfl⟩ := Option.map_eq_some_iff.mp hb
    exact .inl ⟨a, ha, hf pk a ha⟩

/-- One row is rewritten. -/
theorem Evolves.of_update (hrefl : ∀ pk a, R pk a a) (key : ℕ) (f : α → α)
    (h : u = t.update key f) (hf : ∀ a, t.get? key = some a → R key a (f a)) :
    Evolves t u R N := by
  refine .of_rows hrefl fun pk => ?_
  rw [h, get?_update]
  split
  · next hpk =>
    subst hpk
    cases hget : t.get? pk with
    | none => exact .inl rfl
    | some a => exact .inr ⟨a, f a, rfl, rfl, hf a hget⟩
  · exact .inl rfl

/-- One row is added. -/
theorem Evolves.of_insert (hrefl : ∀ pk a, R pk a a) (a : α) (h : u = t.insert a) (ha : N a) :
    Evolves t u R N := by
  constructor
  · intro pk b hb
    refine ⟨b, ?_, hrefl pk b⟩
    rw [h]
    exact get?_insert_of_some _ _ _ _ hb
  · intro pk b hb
    rw [h, get?_insert] at hb
    split at hb
    · next hpk =>
      cases hb
      exact .inr ⟨hpk, ha⟩
    · exact .inl ⟨b, hb, hrefl pk b⟩

/-- A weaker account of the same change. -/
theorem Evolves.imp {R' : ℕ → α → α → Prop} {N' : α → Prop} (h : Evolves t u R N)
    (hR : ∀ pk a b, t.get? pk = some a → R pk a b → R' pk a b) (hN : ∀ a, N a → N' a) :
    Evolves t u R' N' := by
  constructor
  · intro pk a ha
    obtain ⟨b, hb, hab⟩ := h.kept pk a ha
    exact ⟨b, hb, hR pk a b ha hab⟩
  · intro pk b hb
    rcases h.found pk b hb with ⟨a, ha, hab⟩ | ⟨hnext, hnew⟩
    · exact .inl ⟨a, ha, hR pk a b ha hab⟩
    · exact .inr ⟨hnext, hN b hnew⟩

end Evolution

end Table

end LamTo.Library
