import LamTo.Library.Json

/-!
# UTF-8 over lists of bytes

Texts are lists of code points, and their bytes are lists here too, so that encoding and
decoding evaluate. The bytes of one code point and the reading of the first are those of the
standard library.
-/

set_option autoImplicit false

namespace LamTo.Library.Utf8

/-- `str.encode("utf-8")` -/
def encode (s : Text) : List UInt8 := s.flatMap String.utf8EncodeChar

/-- Reads code points off the front; `n` is at least their number. -/
def decodeFuel : ℕ → List UInt8 → Option Text
  | _, [] => some []
  | 0, _ :: _ => none
  | n + 1, b :: bs => do
    let c ← (ByteArray.mk ⟨b :: bs⟩).utf8DecodeChar? 0
    let cs ← decodeFuel n ((b :: bs).drop c.utf8Size)
    some (c :: cs)

/-- `bytes.decode("utf-8")`; `none` for bytes that are no text. -/
def decode (bs : List UInt8) : Option Text := decodeFuel bs.length bs

theorem encode_cons (c : Char) (s : Text) : encode (c :: s) = String.utf8EncodeChar c ++ encode s :=
  rfl

/-- The first code point of an encoded text is read back. -/
theorem utf8DecodeChar?_encode (c : Char) (bs : List UInt8) :
    (ByteArray.mk ⟨String.utf8EncodeChar c ++ bs⟩).utf8DecodeChar? 0 = some c := by
  have happend : ByteArray.mk ⟨String.utf8EncodeChar c ++ bs⟩ =
      (String.utf8EncodeChar c).toByteArray ++ ByteArray.mk ⟨bs⟩ := by
    apply ByteArray.ext
    simp [ByteArray.data_append, List.data_toByteArray]
  rw [happend]
  exact ByteArray.utf8DecodeChar?_utf8EncodeChar_append

theorem decodeFuel_encode (s : Text) (n : ℕ) (hn : s.length ≤ n) :
    decodeFuel n (encode s) = some s := by
  induction s generalizing n with
  | nil => cases n <;> rfl
  | cons c s ih =>
    obtain ⟨m, rfl⟩ : ∃ m, n = m + 1 := ⟨n - 1, by simp at hn; omega⟩
    have hlength := String.length_utf8EncodeChar c
    have hne : String.utf8EncodeChar c ≠ [] := by
      intro h
      rw [h] at hlength
      exact absurd hlength.symm (Nat.ne_of_gt c.utf8Size_pos)
    obtain ⟨b, bs, hbs⟩ := List.exists_cons_of_ne_nil hne
    have hfirst := utf8DecodeChar?_encode c (encode s)
    rw [hbs, List.cons_append] at hfirst
    have hrest : ((b :: (bs ++ encode s)).drop c.utf8Size) = encode s := by
      rw [← List.cons_append, ← hbs, ← hlength, List.drop_left]
    rw [encode_cons, hbs, List.cons_append, decodeFuel, hfirst, Option.bind_eq_bind,
      Option.bind_some, hrest, ih m (by simpa using hn)]
    rfl

theorem length_le_length_encode (s : Text) : s.length ≤ (encode s).length := by
  induction s with
  | nil => exact Nat.le_refl 0
  | cons c s ih =>
    have hpos := c.utf8Size_pos
    rw [encode_cons, List.length_append, String.length_utf8EncodeChar, List.length_cons]
    omega

/-- **Decoding inverts encoding.** -/
theorem decode_encode (s : Text) : decode (encode s) = some s :=
  decodeFuel_encode s _ (length_le_length_encode s)

theorem encode_injective (s t : Text) (h : encode s = encode t) : s = t := by
  have hdecode := congrArg decode h
  rw [decode_encode, decode_encode] at hdecode
  exact Option.some.inj hdecode

end LamTo.Library.Utf8
