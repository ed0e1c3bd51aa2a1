import LamTo.Model.ChainClient
import Mathlib.Tactic.IntervalCases

/-!
# Texts on the row, words on the chain

A row spells its hashes as checked lower-case texts, the registry holds words. The two
determine each other, so the worker's comparison of texts decides equality of what they
stand for (`recordMatchesEvent_eq_true`), and the record `submit` asks for is one that
compares equal.

SOURCE: src/lamto/evidence/worker.py:67-80, src/lamto/evidence/chain.py:79-83
-/

set_option autoImplicit false

namespace LamTo.Analysis

open LamTo.Library LamTo.Model

/-! ## Texts of 32 bytes -/

theorem isHash64_iff (t : Text) :
    isHash64 t = true ↔ t.length = 64 ∧ ∀ c ∈ t, isLowerHex c = true := by
  simp [isHash64, List.all_eq_true]

theorem isBytes32Text_iff (t : Text) :
    isBytes32Text t = true ↔ ∃ ds, t = '0' :: 'x' :: ds ∧ isHash64 ds = true := by
  constructor
  · intro h
    simp only [isBytes32Text, Bool.and_eq_true, decide_eq_true_eq] at h
    refine ⟨t.drop 2, ?_, h.2⟩
    have hsplit := List.take_append_drop 2 t
    rw [h.1] at hsplit
    exact hsplit.symm
  · rintro ⟨ds, rfl, hds⟩
    simpa [isBytes32Text] using hds

theorem bytes32Text_value (t : Text) (h : isBytes32Text t = true) :
    bytes32Text (bytes32Value t) = t := by
  obtain ⟨ds, rfl, hds⟩ := (isBytes32Text_iff t).mp h
  obtain ⟨hlen, hlower⟩ := (isHash64_iff ds).mp hds
  have hlt : hexNat ds < 2 ^ 256 := by
    have hbound := hexNat_lt ds hlower
    rwa [hlen] at hbound
  have hdigits := hexDigits_hexNat ds hlower
  rw [hlen] at hdigits
  simp only [bytes32Text, bytes32Value, List.drop_succ_cons, List.drop_zero, BitVec.toNat_ofNat,
    Nat.mod_eq_of_lt hlt, hdigits]

theorem bytes32Value_text (b : Bytes32) : bytes32Value (bytes32Text b) = b := by
  simp only [bytes32Value, bytes32Text, List.drop_succ_cons, List.drop_zero]
  rw [hexNat_hexDigits 64 b.toNat b.isLt, BitVec.ofNat_toNat]
  exact BitVec.setWidth_eq b

theorem bytes32Text_ne_nil (b : Bytes32) : bytes32Text b ≠ [] := by simp [bytes32Text]

/-! ## Lower case -/

theorem toLower_of_isLowerHex (c : Char) (h : isLowerHex c = true) : c.toLower = c := by
  obtain ⟨d, hd, rfl⟩ := exists_digitChar c h
  interval_cases d <;> rfl

theorem lower_of_digits (t : Text) (h : ∀ c ∈ t, isLowerHex c = true) : lower t = t := by
  rw [lower, List.map_congr_left fun c hc => toLower_of_isLowerHex c (h c hc), List.map_id']

theorem lower_hash64 (t : Text) (h : isHash64 t = true) : lower t = t :=
  lower_of_digits t ((isHash64_iff t).mp h).2

theorem lower_bytes32 (t : Text) (h : isBytes32Text t = true) : lower t = t := by
  obtain ⟨ds, rfl, hds⟩ := (isBytes32Text_iff t).mp h
  have htail := lower_hash64 ds hds
  simp only [lower, List.map_cons] at htail ⊢
  rw [htail]
  rfl

theorem isBytes32Text_text (b : Bytes32) : isBytes32Text (bytes32Text b) = true := by
  rw [isBytes32Text_iff]
  refine ⟨hexDigits 64 b.toNat, rfl, (isHash64_iff _).mpr ⟨hexDigits_length _ _, ?_⟩⟩
  exact fun c hc => isLowerHex_of_mem_hexDigits 64 b.toNat c hc

/-- A digest does not start with `0x`: the letter is no hexadecimal digit. -/
theorem take_two_ne_of_hash64 (t : Text) (h : isHash64 t = true) : t.take 2 ≠ ['0', 'x'] := by
  intro htake
  have hx : 'x' ∈ t := by
    have hmem : 'x' ∈ t.take 2 := by rw [htake]; simp
    exact List.mem_of_mem_take hmem
  have hlower := ((isHash64_iff t).mp h).2 'x' hx
  exact absurd hlower (by decide)

theorem normalizePayloadHash_hash64 (t : Text) (h : isHash64 t = true) :
    normalizePayloadHash t = t := by
  unfold normalizePayloadHash
  rw [lower_hash64 t h, if_neg (take_two_ne_of_hash64 t h)]

theorem normalizePayloadHash_text (b : Bytes32) :
    normalizePayloadHash (bytes32Text b) = hexDigits 64 b.toNat := by
  unfold normalizePayloadHash
  rw [lower_bytes32 _ (isBytes32Text_text b)]
  rfl

theorem payloadHashForChain_hash64 (t : Text) (h : isHash64 t = true) :
    payloadHashForChain t = '0' :: 'x' :: t := by
  unfold payloadHashForChain
  rw [lower_hash64 t h, if_neg (take_two_ne_of_hash64 t h)]

/-! ## The match test -/

/-- The registry holds the row's event: a record under its id with its payload hash, its
previous hash, its type and its signer. -/
structure RecordedAs (A : AddressCodec) (registry : Registry) (i : Identity) : Prop where
  present : registry.Present (bytes32Value i.eventId)
  payloadHash : bytes32Text (registry.records (bytes32Value i.eventId)).payloadHash
    = '0' :: 'x' :: i.payloadHash
  previousHash : bytes32Text (registry.records (bytes32Value i.eventId)).previousHash
    = i.previousHash
  eventType : (registry.records (bytes32Value i.eventId)).eventType.toNat = i.eventType
  signer : A.parse i.signerAddress = some (registry.records (bytes32Value i.eventId)).signer

theorem checksum_injective (A : AddressCodec) (a b : Address) (h : A.checksum a = A.checksum b) :
    a = b := by
  have hparse := A.parse_checksum a
  rw [h, A.parse_checksum] at hparse
  exact (Option.some.inj hparse).symm

theorem find_eq_some (A : AddressCodec) (registry : Registry) (i : Identity) (r : ChainRecord)
    (h : find A registry i = some r) :
    registry.Present (bytes32Value i.eventId) ∧
      r = { payloadHash := bytes32Text (registry.records (bytes32Value i.eventId)).payloadHash
            previousHash := bytes32Text (registry.records (bytes32Value i.eventId)).previousHash
            eventType := (registry.records (bytes32Value i.eventId)).eventType.toNat
            signer := A.checksum (registry.records (bytes32Value i.eventId)).signer
            recordedAt := (registry.records (bytes32Value i.eventId)).recordedAt.toNat } := by
  simp only [find] at h
  split at h
  · cases h
  · next hne => exact ⟨hne, (Option.some.inj h).symm⟩

/-- **The worker's match test decides `RecordedAs`** for the record it found. -/
theorem recordMatchesEvent_eq_true (A : AddressCodec) (registry : Registry) (i : Identity)
    (r : ChainRecord) (hfind : find A registry i = some r) :
    recordMatchesEvent A r i = some true ↔ RecordedAs A registry i := by
  obtain ⟨hpresent, rfl⟩ := find_eq_some A registry i r hfind
  unfold recordMatchesEvent
  simp only [normalizePayloadHash_text, normalizePayloadHash_hash64 _ i.payloadHash_sha256,
    lower_bytes32 _ (isBytes32Text_text _), lower_bytes32 _ i.previousHash_bytes32]
  constructor
  · intro h
    split at h
    · next hguard =>
      obtain ⟨hpayload, hprevious, htype⟩ := hguard
      simp only [AddressCodec.toChecksumAddress, A.parse_checksum, Option.map_some,
        Option.bind_eq_bind, Option.bind_some] at h
      cases hparse : A.parse i.signerAddress with
      | none =>
        rw [hparse] at h
        cases h
      | some a =>
        rw [hparse] at h
        simp only [Option.map_some, Option.bind_some, Option.some.injEq, decide_eq_true_eq] at h
        have hsigner := checksum_injective A _ _ h
        refine ⟨hpresent, ?_, hprevious, htype, ?_⟩
        · rw [bytes32Text, hpayload]
        · rw [hparse, hsigner]
    · cases h
  · intro h
    have hpayload := h.payloadHash
    simp only [bytes32Text, List.cons.injEq, true_and] at hpayload
    rw [if_pos ⟨hpayload, h.previousHash, h.eventType⟩]
    simp [AddressCodec.toChecksumAddress, A.parse_checksum, h.signer]

/-- The call `submit` builds, in the row's own terms. -/
theorem recordEvidenceCall_eq_some (A : AddressCodec) (i : Identity) (c : Call)
    (h : recordEvidenceCall A i = some c) :
    ∃ signer signature, A.parse i.signerAddress = some signer ∧
      c = .recordEvidence (bytes32Value i.eventId) (bytes32Value ('0' :: 'x' :: i.payloadHash))
        (bytes32Value i.previousHash) (BitVec.ofNat 8 i.eventType) signer signature := by
  simp only [recordEvidenceCall, Option.bind_eq_bind, Option.bind_eq_some_iff,
    Option.some.injEq] at h
  obtain ⟨signer, hsigner, signature, _, rfl⟩ := h
  rw [payloadHashForChain_hash64 _ i.payloadHash_sha256]
  exact ⟨signer, signature, hsigner, rfl⟩

/-- What `submit` asks for is the row's event once it is recorded. -/
theorem recordedAs_of_call (A : AddressCodec) (registry : Registry) (i : Identity)
    (signer : Address) (time : BitVec 64) (hsigner : A.parse i.signerAddress = some signer)
    (hpresent : registry.Present (bytes32Value i.eventId))
    (hrecord : registry.records (bytes32Value i.eventId)
      = ⟨bytes32Value ('0' :: 'x' :: i.payloadHash), bytes32Value i.previousHash,
          BitVec.ofNat 8 i.eventType, signer, time⟩) :
    RecordedAs A registry i := by
  have hpayload : isBytes32Text ('0' :: 'x' :: i.payloadHash) = true :=
    (isBytes32Text_iff _).mpr ⟨i.payloadHash, rfl, i.payloadHash_sha256⟩
  have htype : i.eventType < 2 ^ 8 := by
    have := i.eventType_known.2
    omega
  refine ⟨hpresent, ?_, ?_, ?_, ?_⟩
  · rw [hrecord]
    exact bytes32Text_value _ hpayload
  · rw [hrecord]
    exact bytes32Text_value _ i.previousHash_bytes32
  · rw [hrecord]
    simp only [BitVec.toNat_ofNat, Nat.mod_eq_of_lt htype]
  · rw [hrecord]
    exact hsigner

end LamTo.Analysis
