import LamTo.Library.JsonRoundTrip
import Mathlib.Tactic.IntervalCases

/-!
# Which characters a writer adds

A JSON text consists of the characters of its strings and keys and of a few the writer adds:
quotation marks, brackets, digits, the letters of the three words and those of the escapes. A
character that is none of these, and in no string or key, is not in the text.
-/

set_option autoImplicit false

namespace LamTo.Library.Json

mutual
/-- The character is in no string and in no key of the value. -/
def Without (c : Char) : Json → Prop
  | .str s => c ∉ s
  | .float lit => c ∉ lit
  | .arr xs => WithoutElements c xs
  | .obj ms => WithoutMembers c ms
  | .null => True
  | .bool _ => True
  | .int _ => True
def WithoutElements (c : Char) : List Json → Prop
  | [] => True
  | x :: xs => Without c x ∧ WithoutElements c xs
def WithoutMembers (c : Char) : List (Text × Json) → Prop
  | [] => True
  | (k, v) :: ms => c ∉ k ∧ Without c v ∧ WithoutMembers c ms
end

theorem withoutElements_iff (c : Char) (xs : List Json) :
    WithoutElements c xs ↔ ∀ x ∈ xs, Without c x := by
  induction xs with
  | nil => simp [WithoutElements]
  | cons x xs ih => simp [WithoutElements, ih]

theorem withoutMembers_iff (c : Char) (ms : List (Text × Json)) :
    WithoutMembers c ms ↔ ∀ m ∈ ms, c ∉ m.1 ∧ Without c m.2 := by
  induction ms with
  | nil => simp [WithoutMembers]
  | cons m ms ih =>
    obtain ⟨k, v⟩ := m
    simp [WithoutMembers, ih, and_assoc]

mutual
theorem without_sortKeys (c : Char) : ∀ j : Json, Without c j → Without c (sortKeys j)
  | .null, _ => trivial
  | .bool _, _ => trivial
  | .int _, _ => trivial
  | .str _, h => h
  | .float _, h => h
  | .arr xs, h => without_sortElements c xs h
  | .obj ms, h => by
    refine (withoutMembers_iff c _).mpr fun m hm => ?_
    exact (withoutMembers_iff c _).mp (without_sortMembers c ms h) m
      ((List.mem_insertionSort keyLe).mp hm)
theorem without_sortElements (c : Char) :
    ∀ xs : List Json, WithoutElements c xs → WithoutElements c (sortElements xs)
  | [], _ => trivial
  | x :: xs, h => ⟨without_sortKeys c x h.1, without_sortElements c xs h.2⟩
theorem without_sortMembers (c : Char) :
    ∀ ms : List (Text × Json), WithoutMembers c ms → WithoutMembers c (sortMembers ms)
  | [], _ => trivial
  | (_, v) :: ms, h => ⟨h.1, without_sortKeys c v h.2.1, without_sortMembers c ms h.2.2⟩
end

/-- What the writer adds to the strings. -/
def writerCharacters : Text := "\"\\\x7b\x7d[],:-0123456789abcdefnrtuls".toList

theorem digitChar_mem_writerCharacters (d : ℕ) (h : d < 16) :
    Nat.digitChar d ∈ writerCharacters := by
  interval_cases d <;> decide

/-- An escape is written with added characters, or is the character itself. -/
theorem mem_escape (c d : Char) (h : c ∈ escape d) : c ∈ writerCharacters ∨ c = d := by
  unfold escape at h
  split_ifs at h with h₁ h₂ h₃ h₄ h₅ h₆ h₇ hcontrol
  all_goals
    simp only [List.mem_cons, List.not_mem_nil, or_false] at h
  · rcases h with rfl | rfl <;> exact .inl (by decide)
  · rcases h with rfl | rfl <;> exact .inl (by decide)
  · rcases h with rfl | rfl <;> exact .inl (by decide)
  · rcases h with rfl | rfl <;> exact .inl (by decide)
  · rcases h with rfl | rfl <;> exact .inl (by decide)
  · rcases h with rfl | rfl <;> exact .inl (by decide)
  · rcases h with rfl | rfl <;> exact .inl (by decide)
  · left
    rcases h with rfl | rfl | rfl | rfl | rfl | rfl
    · decide
    · decide
    · decide
    · decide
    · exact digitChar_mem_writerCharacters _ (by omega)
    · exact digitChar_mem_writerCharacters _ (Nat.mod_lt _ (by decide))
  · exact .inr h

variable {c : Char} (hc : c ∉ writerCharacters)
include hc

theorem notMem_quote (s : Text) (h : c ∉ s) : c ∉ quote s := by
  intro hmem
  rw [quote, List.mem_cons, List.mem_append, List.mem_singleton, List.mem_flatMap] at hmem
  rcases hmem with rfl | ⟨d, hd, hescape⟩ | rfl
  · exact hc (by decide)
  · rcases mem_escape c d hescape with hadded | rfl
    · exact hc hadded
    · exact h hd
  · exact hc (by decide)

theorem notMem_toDigits (n : ℕ) : c ∉ Nat.toDigits 10 n := by
  intro hmem
  have hdigit := Nat.isDigit_of_mem_toDigits (by decide) (by decide) hmem
  have hadded : ∀ d : Char, d.isDigit = true → d ∈ writerCharacters := by
    intro d hd
    have hchar : d = Char.ofNat d.toNat := (Char.ofNat_toNat d).symm
    simp only [Char.isDigit, Bool.and_eq_true, decide_eq_true_eq, ge_iff_le,
      UInt32.le_iff_toNat_le] at hd
    have hlo : 48 ≤ d.toNat := hd.1
    have hhi : d.toNat ≤ 57 := hd.2
    generalize d.toNat = n at hchar hlo hhi
    rw [hchar]
    interval_cases n <;> decide
  exact hc (hadded c hdigit)

theorem notMem_renderInt (i : Int) : c ∉ renderInt i := by
  cases i with
  | ofNat n => exact notMem_toDigits hc n
  | negSucc n =>
    intro hmem
    rcases List.mem_cons.mp hmem with rfl | hmem
    · exact hc (by decide)
    · exact notMem_toDigits hc (n + 1) hmem

mutual
/-- **The text of a value has no character but its own and the writer's.** -/
theorem notMem_render : ∀ j : Json, Without c j → c ∉ render j
  | .null, _ => fun h => hc ((show _ ⊆ writerCharacters by decide) h)
  | .bool true, _ => fun h => hc ((show _ ⊆ writerCharacters by decide) h)
  | .bool false, _ => fun h => hc ((show _ ⊆ writerCharacters by decide) h)
  | .int i, _ => notMem_renderInt hc i
  | .float _, h => h
  | .str s, h => notMem_quote hc s h
  | .arr [], _ => fun h => hc ((show _ ⊆ writerCharacters by decide) h)
  | .arr (x :: xs), h => by
    intro hmem
    rw [render, List.mem_cons, List.mem_append] at hmem
    rcases hmem with rfl | hmem | hmem
    · exact hc (by decide)
    · exact notMem_render x h.1 hmem
    · exact notMem_renderElements xs h.2 hmem
  | .obj [], _ => fun h => hc ((show _ ⊆ writerCharacters by decide) h)
  | .obj ((k, v) :: ms), h => by
    intro hmem
    rw [render, List.mem_cons, List.mem_append, List.mem_cons, List.mem_append] at hmem
    rcases hmem with rfl | hmem | rfl | hmem | hmem
    · exact hc (by decide)
    · exact notMem_quote hc k h.1 hmem
    · exact hc (by decide)
    · exact notMem_render v h.2.1 hmem
    · exact notMem_renderMembers ms h.2.2 hmem
theorem notMem_renderElements : ∀ xs : List Json, WithoutElements c xs → c ∉ renderElements xs
  | [], _ => fun h => hc ((show _ ⊆ writerCharacters by decide) h)
  | x :: xs, h => by
    intro hmem
    rw [renderElements, List.mem_cons, List.mem_append] at hmem
    rcases hmem with rfl | hmem | hmem
    · exact hc (by decide)
    · exact notMem_render x h.1 hmem
    · exact notMem_renderElements xs h.2 hmem
theorem notMem_renderMembers :
    ∀ ms : List (Text × Json), WithoutMembers c ms → c ∉ renderMembers ms
  | [], _ => fun h => hc ((show _ ⊆ writerCharacters by decide) h)
  | (k, v) :: ms, h => by
    intro hmem
    rw [renderMembers, List.mem_cons, List.mem_append, List.mem_cons, List.mem_append] at hmem
    rcases hmem with rfl | hmem | rfl | hmem | hmem
    · exact hc (by decide)
    · exact notMem_quote hc k h.1 hmem
    · exact hc (by decide)
    · exact notMem_render v h.2.1 hmem
    · exact notMem_renderMembers ms h.2.2 hmem
end

end LamTo.Library.Json
