import Mathlib.Algebra.Order.Ring.Nat
import Mathlib.Data.List.Basic

/-!
# Frames with a length in front

A stream carries a content in frames: four bytes in network order give a length, and that many
bytes follow; a length of zero ends the stream. The reader takes the frames off the front of the
bytes it has and answers once the end has come, with the content and the bytes that are left.

The content does not depend on how it was cut, and a reader that has only a part of a stream
does not answer: more bytes do not change an answer that was given.
-/

set_option autoImplicit false

namespace LamTo.Library

/-- `struct.pack("!I", n)` -/
def packLength (n : ℕ) : List UInt8 :=
  [UInt8.ofNat (n / 256 / 256 / 256), UInt8.ofNat (n / 256 / 256), UInt8.ofNat (n / 256),
    UInt8.ofNat n]

def unpackLength (a b c d : UInt8) : ℕ :=
  ((a.toNat * 256 + b.toNat) * 256 + c.toNat) * 256 + d.toNat

theorem unpackLength_packLength (n : ℕ) (h : n < 4294967296) :
    unpackLength (UInt8.ofNat (n / 256 / 256 / 256)) (UInt8.ofNat (n / 256 / 256))
      (UInt8.ofNat (n / 256)) (UInt8.ofNat n) = n := by
  have hfirst : n / 256 / 256 / 256 < 256 := by omega
  simp only [unpackLength, UInt8.toNat_ofNat', Nat.reducePow, Nat.mod_eq_of_lt hfirst,
    Nat.div_add_mod']

def frame (chunk : List UInt8) : List UInt8 := packLength chunk.length ++ chunk

/-- The frames of the chunks and the end of the stream. -/
def writeFrames (chunks : List (List UInt8)) : List UInt8 := chunks.flatMap frame ++ packLength 0

/-- The content of a stream, and the bytes after its end. -/
def readFrames : List UInt8 → Option (List UInt8 × List UInt8)
  | a :: b :: c :: d :: rest =>
    if unpackLength a b c d = 0 then some ([], rest)
    else if rest.length < unpackLength a b c d then none
    else (readFrames (rest.drop (unpackLength a b c d))).map fun r =>
      (rest.take (unpackLength a b c d) ++ r.1, r.2)
  | _ => none
termination_by bytes => bytes.length
decreasing_by
  simp only [List.length_drop, List.length_cons]
  omega

theorem readFrames_cons (a b c d : UInt8) (rest : List UInt8) :
    readFrames (a :: b :: c :: d :: rest) =
      if unpackLength a b c d = 0 then some ([], rest)
      else if rest.length < unpackLength a b c d then none
      else (readFrames (rest.drop (unpackLength a b c d))).map fun r =>
        (rest.take (unpackLength a b c d) ++ r.1, r.2) := by
  rw [readFrames]

theorem readFrames_end (rest : List UInt8) :
    readFrames (packLength 0 ++ rest) = some ([], rest) := by
  have hzero : unpackLength 0 0 0 0 = 0 := by decide
  have hpack : packLength 0 = [0, 0, 0, 0] := by decide
  rw [hpack, List.cons_append, List.cons_append, List.cons_append, List.cons_append,
    List.nil_append, readFrames_cons, if_pos hzero]

theorem readFrames_frame (chunk rest : List UInt8) (hne : chunk ≠ [])
    (hlength : chunk.length < 4294967296) :
    readFrames (frame chunk ++ rest) = (readFrames rest).map fun r => (chunk ++ r.1, r.2) := by
  have hpos : chunk.length ≠ 0 := fun h => hne (List.length_eq_zero_iff.mp h)
  have henough : ¬ (chunk ++ rest).length < chunk.length := by
    rw [List.length_append]
    omega
  rw [frame, packLength, List.append_assoc, List.cons_append, List.cons_append, List.cons_append,
    List.cons_append, List.nil_append, readFrames_cons, unpackLength_packLength _ hlength,
    if_neg hpos, if_neg henough, List.drop_left, List.take_left]

/-- **The chunks are read back joined**, however the content was cut. -/
theorem readFrames_writeFrames (chunks : List (List UInt8)) (rest : List UInt8)
    (h : ∀ chunk ∈ chunks, chunk ≠ [] ∧ chunk.length < 4294967296) :
    readFrames (writeFrames chunks ++ rest) = some (chunks.flatten, rest) := by
  induction chunks with
  | nil =>
    rw [writeFrames, List.flatMap_nil, List.nil_append, readFrames_end]
    rfl
  | cons chunk chunks ih =>
    obtain ⟨hne, hlength⟩ := h chunk List.mem_cons_self
    have htail := ih fun c hc => h c (List.mem_cons_of_mem chunk hc)
    rw [writeFrames] at htail
    rw [writeFrames, List.flatMap_cons, List.append_assoc, List.append_assoc,
      readFrames_frame chunk _ hne hlength, ← List.append_assoc, htail, Option.map_some,
      List.flatten_cons]

/-- More bytes do not change an answer. -/
theorem readFrames_append (bytes more content rest : List UInt8)
    (h : readFrames bytes = some (content, rest)) :
    readFrames (bytes ++ more) = some (content, rest ++ more) := by
  induction bytes using readFrames.induct generalizing content rest with
  | case1 a b c d tail hzero =>
    rw [readFrames_cons, if_pos hzero] at h
    obtain ⟨rfl, rfl⟩ := Prod.mk.inj (Option.some.inj h)
    rw [List.cons_append, List.cons_append, List.cons_append, List.cons_append, readFrames_cons,
      if_pos hzero]
  | case2 a b c d tail hzero hshort =>
    rw [readFrames_cons, if_neg hzero, if_pos hshort] at h
    cases h
  | case3 a b c d tail hzero henough ih =>
    rw [readFrames_cons, if_neg hzero, if_neg henough, Option.map_eq_some_iff] at h
    obtain ⟨⟨inner, left⟩, hinner, heq⟩ := h
    obtain ⟨rfl, rfl⟩ := Prod.mk.inj heq
    have hle : unpackLength a b c d ≤ tail.length := Nat.not_lt.mp henough
    have henough' : ¬ (tail ++ more).length < unpackLength a b c d := by
      rw [List.length_append]
      omega
    rw [List.cons_append, List.cons_append, List.cons_append, List.cons_append, readFrames_cons,
      if_neg hzero, if_neg henough', List.drop_append_of_le_length hle,
      List.take_append_of_le_length hle, ih inner left hinner, Option.map_some]
  | case4 bytes hshort =>
    rw [readFrames] at h
    · cases h
    · exact hshort

/-- **A part of a stream has no content, or it is the whole stream.** -/
theorem readFrames_prefix (chunks : List (List UInt8)) (part content rest : List UInt8)
    (h : ∀ chunk ∈ chunks, chunk ≠ [] ∧ chunk.length < 4294967296)
    (hpart : part <+: writeFrames chunks) (hread : readFrames part = some (content, rest)) :
    part = writeFrames chunks ∧ content = chunks.flatten := by
  obtain ⟨more, hmore⟩ := hpart
  have hlong := readFrames_append part more content rest hread
  have hwhole := readFrames_writeFrames chunks [] h
  rw [List.append_nil] at hwhole
  rw [hmore, hwhole] at hlong
  obtain ⟨hcontent, hrest⟩ := Prod.mk.inj (Option.some.inj hlong)
  obtain ⟨-, rfl⟩ := List.append_eq_nil_iff.mp hrest.symm
  rw [List.append_nil] at hmore
  exact ⟨hmore, hcontent.symm⟩

end LamTo.Library
