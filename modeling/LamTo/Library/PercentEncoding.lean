import LamTo.Library.Utf8

/-!
# Percent-encoding

The bytes of a text are written one after the other: letters, digits and four marks stand for
themselves, and of any other byte the two hexadecimal digits are written behind a percent sign.
What was written is read back, and it consists of unreserved characters and percent signs.
-/

set_option autoImplicit false

namespace LamTo.Library.Percent

/-- The characters that stand for themselves. -/
def isUnreserved (c : Char) : Bool := c.isAlphanum || c = '_' || c = '.' || c = '-' || c = '~'

def upperDigit (d : ℕ) : Char := (Nat.digitChar d).toUpper

def quoteByte (b : UInt8) : Text :=
  if isUnreserved (Char.ofNat b.toNat) then [Char.ofNat b.toNat]
  else ['%', upperDigit (b.toNat / 16), upperDigit (b.toNat % 16)]

def quoteBytes (bytes : List UInt8) : Text := bytes.flatMap quoteByte

/-- `urllib.parse.quote(t, safe="")` -/
def quote (t : Text) : Text := quoteBytes (Utf8.encode t)

/-- The bytes that were written; `none` where no two digits follow a percent sign. -/
def unquoteBytes : Text → Option (List UInt8)
  | [] => some []
  | '%' :: a :: b :: t => do
    let high ← Json.hexValue a
    let low ← Json.hexValue b
    let bytes ← unquoteBytes t
    return UInt8.ofNat (16 * high + low) :: bytes
  | c :: t =>
    if c ≠ '%' ∧ c.toNat < 128 then (unquoteBytes t).map (UInt8.ofNat c.toNat :: ·) else none

def unquote (t : Text) : Option Text := (unquoteBytes t).bind Utf8.decode

/-! ## Characters -/

theorem isUnreserved_upperDigit (d : ℕ) (h : d < 16) : isUnreserved (upperDigit d) = true := by
  have hall : ∀ d < 16, isUnreserved (upperDigit d) = true := by decide
  exact hall d h

theorem hexValue_upperDigit (d : ℕ) (h : d < 16) : Json.hexValue (upperDigit d) = some d := by
  have hall : ∀ d < 16, Json.hexValue (upperDigit d) = some d := by decide
  exact hall d h

theorem toNat_lt_of_isAlphanum (c : Char) (h : c.isAlphanum = true) : c.toNat < 128 := by
  have hcases : ((decide (65 ≤ c.val ∧ c.val ≤ 90) || 97 ≤ c.val && c.val ≤ 122) ||
      48 ≤ c.val && c.val ≤ 57) = true := h
  simp only [Bool.or_eq_true, Bool.and_eq_true, decide_eq_true_eq, UInt32.le_iff_toNat_le] at hcases
  have hval : c.val.toNat = c.toNat := rfl
  rcases hcases with (⟨_, hle⟩ | ⟨_, hle⟩) | ⟨_, hle⟩ <;> (rw [hval] at hle; simp at hle; omega)

theorem toNat_lt_of_isUnreserved (c : Char) (h : isUnreserved c = true) : c.toNat < 128 := by
  simp only [isUnreserved, Bool.or_eq_true, decide_eq_true_eq] at h
  rcases h with (((h | rfl) | rfl) | rfl) | rfl
  · exact toNat_lt_of_isAlphanum c h
  all_goals decide

theorem ne_percent_of_isUnreserved (c : Char) (h : isUnreserved c = true) : c ≠ '%' := by
  rintro rfl
  revert h
  decide

/-! ## Reading back -/

theorem unquoteBytes_unreserved (c : Char) (t : Text) (h : isUnreserved c = true) :
    unquoteBytes (c :: t) = (unquoteBytes t).map (UInt8.ofNat c.toNat :: ·) := by
  have hne := ne_percent_of_isUnreserved c h
  rw [unquoteBytes, if_pos ⟨hne, toNat_lt_of_isUnreserved c h⟩]
  exact fun _ _ _ heq => absurd heq hne

theorem toNat_ofNat_byte (b : UInt8) : (Char.ofNat b.toNat).toNat = b.toNat := by
  have hvalid : b.toNat.isValidChar := .inl (by have hlt := b.toNat_lt; omega)
  rw [Char.ofNat, dif_pos hvalid]
  rfl

theorem unquoteBytes_quoteByte (b : UInt8) (t : Text) :
    unquoteBytes (quoteByte b ++ t) = (unquoteBytes t).map (b :: ·) := by
  have hlt := b.toNat_lt
  unfold quoteByte
  split
  · next h =>
    rw [List.singleton_append, unquoteBytes_unreserved _ t h, toNat_ofNat_byte, UInt8.ofNat_toNat]
  · rw [List.cons_append, List.cons_append, List.cons_append, List.nil_append, unquoteBytes,
      hexValue_upperDigit _ (by omega), hexValue_upperDigit _ (by omega)]
    have hbyte : UInt8.ofNat (16 * (b.toNat / 16) + b.toNat % 16) = b := by
      rw [Nat.div_add_mod, UInt8.ofNat_toNat]
    cases unquoteBytes t with
    | none => rfl
    | some bytes => simp only [Option.bind_eq_bind, Option.bind_some, hbyte]; rfl

theorem unquoteBytes_quoteBytes (bytes : List UInt8) :
    unquoteBytes (quoteBytes bytes) = some bytes := by
  induction bytes with
  | nil => rfl
  | cons b bytes ih =>
    have hcons : quoteBytes (b :: bytes) = quoteByte b ++ quoteBytes bytes := rfl
    rw [hcons, unquoteBytes_quoteByte, ih]
    rfl

/-- **Reading inverts writing.** -/
theorem unquote_quote (t : Text) : unquote (quote t) = some t := by
  rw [unquote, quote, unquoteBytes_quoteBytes, Option.bind_some, Utf8.decode_encode]

/-! ## What is written -/

theorem mem_quote (t : Text) (c : Char) (h : c ∈ quote t) : isUnreserved c = true ∨ c = '%' := by
  obtain ⟨b, _, hb⟩ := List.mem_flatMap.mp h
  have hlt := b.toNat_lt
  unfold quoteByte at hb
  split at hb
  · next hc =>
    rw [List.mem_singleton.mp hb]
    exact .inl hc
  · rcases List.mem_cons.mp hb with rfl | hb
    · exact .inr rfl
    · rcases List.mem_cons.mp hb with rfl | hb
      · exact .inl (isUnreserved_upperDigit _ (by omega))
      · rw [List.mem_singleton.mp hb]
        exact .inl (isUnreserved_upperDigit _ (by omega))

end LamTo.Library.Percent
