import LamTo.Library.JsonRoundTrip
import Mathlib.Data.List.Induction
import Mathlib.Tactic.IntervalCases

/-!
# Lower-case hexadecimal of a fixed width

`hexDigits w n` is the `w`-digit lower-case text of `n`, `hexNat` reads it back. A text of
lower-case digits and a number below `16 ^ w` determine each other, so a column that is
checked to hold such a text holds one number, with one spelling.
-/

set_option autoImplicit false

namespace LamTo.Library

def isLowerHex (c : Char) : Bool := ('0' ≤ c && c ≤ '9') || ('a' ≤ c && c ≤ 'f')

def hexDigits : ℕ → ℕ → Text
  | 0, _ => []
  | w + 1, n => hexDigits w (n / 16) ++ [Nat.digitChar (n % 16)]

def hexNat (cs : Text) : ℕ := cs.foldl (fun n c => 16 * n + (Json.hexValue c).getD 0) 0

/-- Two digits a byte, upper case allowed; `none` when a character is no digit or one is
left over. -/
def hexBytes : Text → Option (List (BitVec 8))
  | [] => some []
  | a :: b :: cs => do
    let a ← Json.hexValue a
    let b ← Json.hexValue b
    let bs ← hexBytes cs
    pure (BitVec.ofNat 8 (16 * a + b) :: bs)
  | [_] => none

/-- Two lower-case digits for each byte. -/
def byteText (bs : List (BitVec 8)) : Text := bs.flatMap fun b => hexDigits 2 b.toNat

/-- The number of the bytes, most significant first. -/
def bigEndian (bs : List (BitVec 8)) : ℕ := bs.foldl (fun n b => 256 * n + b.toNat) 0

/-! ## Digits -/

theorem isLowerHex_digitChar (d : ℕ) (h : d < 16) : isLowerHex (Nat.digitChar d) = true := by
  interval_cases d <;> rfl

/-- A lower-case digit is the digit of its value. -/
theorem exists_digitChar (c : Char) (h : isLowerHex c = true) :
    ∃ d, d < 16 ∧ c = Nat.digitChar d := by
  have hchar : c = Char.ofNat c.toNat := (Char.ofNat_toNat c).symm
  simp only [isLowerHex, Bool.or_eq_true, Bool.and_eq_true, decide_eq_true_eq, Char.le_def,
    UInt32.le_iff_toNat_le] at h
  rcases h with ⟨hlo, hhi⟩ | ⟨hlo, hhi⟩
  · have hlo' : 48 ≤ c.toNat := hlo
    have hhi' : c.toNat ≤ 57 := hhi
    refine ⟨c.toNat - 48, by omega, ?_⟩
    generalize c.toNat = n at hchar hlo' hhi'
    rw [hchar]
    interval_cases n <;> rfl
  · have hlo' : 97 ≤ c.toNat := hlo
    have hhi' : c.toNat ≤ 102 := hhi
    refine ⟨c.toNat - 87, by omega, ?_⟩
    generalize c.toNat = n at hchar hlo' hhi'
    rw [hchar]
    interval_cases n <;> rfl

/-! ## Writing and reading -/

@[simp] theorem hexDigits_length (w n : ℕ) : (hexDigits w n).length = w := by
  induction w generalizing n with
  | zero => rfl
  | succ w ih => simp [hexDigits, ih]

theorem isLowerHex_of_mem_hexDigits (w n : ℕ) (c : Char) (hc : c ∈ hexDigits w n) :
    isLowerHex c = true := by
  induction w generalizing n with
  | zero => cases hc
  | succ w ih =>
    rcases List.mem_append.mp hc with hc | hc
    · exact ih (n / 16) hc
    · rw [List.mem_singleton.mp hc]
      exact isLowerHex_digitChar _ (Nat.mod_lt _ (by decide))

theorem hexNat_concat (cs : Text) (c : Char) :
    hexNat (cs ++ [c]) = 16 * hexNat cs + (Json.hexValue c).getD 0 := by
  simp only [hexNat, List.foldl_append, List.foldl_cons, List.foldl_nil]

/-- **Reading what was written.** -/
theorem hexNat_hexDigits (w n : ℕ) (h : n < 16 ^ w) : hexNat (hexDigits w n) = n := by
  induction w generalizing n with
  | zero =>
    have hn : n = 0 := by simpa using h
    rw [hn]
    rfl
  | succ w ih =>
    have hdiv : n / 16 < 16 ^ w := by
      rw [Nat.pow_succ] at h
      omega
    rw [hexDigits, hexNat_concat, ih _ hdiv, Json.hexValue_digitChar _ (Nat.mod_lt _ (by decide))]
    simp only [Option.getD_some]
    omega

/-- **Writing what was read**: a text of lower-case digits is the text of its number. -/
theorem hexDigits_hexNat (cs : Text) (h : ∀ c ∈ cs, isLowerHex c = true) :
    hexDigits cs.length (hexNat cs) = cs := by
  induction cs using List.reverseRecOn with
  | nil => rfl
  | append_singleton cs c ih =>
    obtain ⟨d, hd, rfl⟩ := exists_digitChar c (h c (by simp))
    have hcs := ih (fun c hc => h c (by simp [hc]))
    rw [List.length_append, List.length_singleton, hexDigits, hexNat_concat,
      Json.hexValue_digitChar d hd]
    simp only [Option.getD_some]
    rw [show (16 * hexNat cs + d) / 16 = hexNat cs by omega,
      show (16 * hexNat cs + d) % 16 = d by omega, hcs]

theorem hexNat_lt (cs : Text) (h : ∀ c ∈ cs, isLowerHex c = true) :
    hexNat cs < 16 ^ cs.length := by
  induction cs using List.reverseRecOn with
  | nil => simp [hexNat]
  | append_singleton cs c ih =>
    obtain ⟨d, hd, rfl⟩ := exists_digitChar c (h c (by simp))
    have hcs := ih (fun c hc => h c (by simp [hc]))
    rw [hexNat_concat, Json.hexValue_digitChar d hd, List.length_append, List.length_singleton, Nat.pow_succ]
    simp only [Option.getD_some]
    omega

theorem hexDigits_injective (w m n : ℕ) (hm : m < 16 ^ w) (hn : n < 16 ^ w)
    (h : hexDigits w m = hexDigits w n) : m = n := by
  rw [← hexNat_hexDigits w m hm, h, hexNat_hexDigits w n hn]

/-! ## Bytes -/

theorem byteText_cons (b : BitVec 8) (bs : List (BitVec 8)) :
    byteText (b :: bs) =
      Nat.digitChar (b.toNat / 16) :: Nat.digitChar (b.toNat % 16) :: byteText bs := by
  have hlt := b.isLt
  have hdigits : hexDigits 2 b.toNat =
      [Nat.digitChar (b.toNat / 16 % 16), Nat.digitChar (b.toNat % 16)] := rfl
  rw [byteText, List.flatMap_cons, hdigits, Nat.mod_eq_of_lt (show b.toNat / 16 < 16 by omega)]
  rfl

theorem byteText_append (bs cs : List (BitVec 8)) :
    byteText (bs ++ cs) = byteText bs ++ byteText cs := List.flatMap_append

@[simp] theorem byteText_length (bs : List (BitVec 8)) :
    (byteText bs).length = 2 * bs.length := by
  induction bs with
  | nil => rfl
  | cons b bs ih =>
    rw [byteText_cons, List.length_cons, List.length_cons, ih, List.length_cons]
    omega

theorem isLowerHex_of_mem_byteText (bs : List (BitVec 8)) (c : Char) (hc : c ∈ byteText bs) :
    isLowerHex c = true := by
  obtain ⟨b, _, hb⟩ := List.mem_flatMap.mp hc
  exact isLowerHex_of_mem_hexDigits 2 b.toNat c hb

/-- **Reading the bytes that were written.** -/
theorem hexBytes_byteText (bs : List (BitVec 8)) : hexBytes (byteText bs) = some bs := by
  induction bs with
  | nil => rfl
  | cons b bs ih =>
    have hlt := b.isLt
    have hvalue : 16 * (b.toNat / 16) + b.toNat % 16 = b.toNat := by omega
    rw [byteText_cons, hexBytes, Json.hexValue_digitChar _ (by omega),
      Json.hexValue_digitChar _ (Nat.mod_lt _ (by decide)), ih]
    simp only [Option.bind_eq_bind, Option.bind_some, hvalue, BitVec.ofNat_toNat,
      BitVec.setWidth_eq]
    rfl

theorem byteText_injective (bs cs : List (BitVec 8)) (h : byteText bs = byteText cs) :
    bs = cs := by
  have hread := hexBytes_byteText bs
  rw [h, hexBytes_byteText] at hread
  exact (Option.some.inj hread).symm

theorem bigEndian_concat (bs : List (BitVec 8)) (b : BitVec 8) :
    bigEndian (bs ++ [b]) = 256 * bigEndian bs + b.toNat := by
  simp only [bigEndian, List.foldl_append, List.foldl_cons, List.foldl_nil]

theorem bigEndian_lt (bs : List (BitVec 8)) : bigEndian bs < 256 ^ bs.length := by
  induction bs using List.reverseRecOn with
  | nil => exact Nat.one_pos
  | append_singleton bs b ih =>
    have hlt := b.isLt
    rw [bigEndian_concat, List.length_append, List.length_singleton, Nat.pow_succ]
    omega

/-- The digits of the bytes spell the number of the bytes. -/
theorem hexNat_byteText (bs : List (BitVec 8)) : hexNat (byteText bs) = bigEndian bs := by
  induction bs using List.reverseRecOn with
  | nil => rfl
  | append_singleton bs b ih =>
    have hlt := b.isLt
    have hdigits : byteText [b] =
        [Nat.digitChar (b.toNat / 16)] ++ [Nat.digitChar (b.toNat % 16)] := byteText_cons b []
    rw [byteText_append, hdigits, ← List.append_assoc, hexNat_concat, hexNat_concat, ih,
      bigEndian_concat, Json.hexValue_digitChar _ (by omega),
      Json.hexValue_digitChar _ (Nat.mod_lt _ (by decide))]
    simp only [Option.getD_some]
    omega

end LamTo.Library
