import LamTo.Analysis.QueuedEvidence

/-!
# One text for a signature

`normalize_signature` reads 65 bytes from a text or takes them as they are, and writes them
back in lower case with the recovery byte 27 or 28.

* what it writes it reads again, so a second application changes nothing;
* the text determines the bytes and the bytes the text, so two inputs share a text exactly when
  their bytes agree up to the spelling of the recovery byte;
* the range of `s` is that of the contract's library: no stored signature is turned away there
  for its length or for being malleable.

SOURCE: src/lamto/evidence/signatures.py:53-73, 93-100, chain/src/EvidenceRegistry.sol:57-60
-/

set_option autoImplicit false

namespace LamTo.Analysis

open LamTo.Library LamTo.Model

/-! ## Reading what was written -/

theorem not_isHexSpace_of_lowerHex (c : Char) (h : isLowerHex c = true) :
    isHexSpace c = false := by
  obtain ⟨d, hd, rfl⟩ := exists_digitChar c h
  interval_cases d <;> rfl

/-- Without whitespace `bytes.fromhex` reads two digits a byte. -/
theorem fromHex_eq_hexBytes (t : Text) (h : ∀ c ∈ t, isLowerHex c = true) :
    fromHex t = hexBytes t := by
  induction t using fromHex.induct with
  | case1 => rfl
  | case2 a hspace =>
    rw [not_isHexSpace_of_lowerHex a (h a (by simp))] at hspace
    cases hspace
  | case3 a hspace => rw [fromHex, if_neg hspace, hexBytes]
  | case4 a b cs hspace _ =>
    rw [not_isHexSpace_of_lowerHex a (h a (by simp))] at hspace
    cases hspace
  | case5 a b cs hspace ih =>
    have hrest := ih fun c hc => h c (by simp [hc])
    rw [fromHex, if_neg hspace, hrest, hexBytes]

theorem fromHex_byteText (bs : Bytes) : fromHex (byteText bs) = some bs := by
  rw [fromHex_eq_hexBytes _ (isLowerHex_of_mem_byteText bs), hexBytes_byteText]

theorem raw_byteText (bs : Bytes) :
    (SignatureValue.str ('0' :: 'x' :: byteText bs)).raw = .ok bs := by
  have hbare : bareHex ('0' :: 'x' :: byteText bs) = byteText bs := rfl
  rw [SignatureValue.raw, hbare, fromHex_byteText]
  rfl

/-- The platform key's library writes the bytes without a prefix. -/
theorem raw_bare_byteText (bs : Bytes) : (SignatureValue.str (byteText bs)).raw = .ok bs := by
  have hbare : bareHex (byteText bs) = byteText bs := by
    refine if_neg fun htake => ?_
    have hx : 'x' ∈ (byteText bs).take 2 := by
      rw [htake]
      simp
    exact absurd (isLowerHex_of_mem_byteText bs 'x' (List.mem_of_mem_take hx)) (by decide)
  rw [SignatureValue.raw, hbare, fromHex_byteText]
  rfl

/-! ## The form -/

/-- 65 bytes in the form the contract's library takes. -/
structure CanonicalSignature (bs : Bytes) : Prop where
  length : bs.length = 65
  r : 0 < bigEndian (bs.take 32) ∧ bigEndian (bs.take 32) < secp256k1N
  s : 0 < bigEndian ((bs.drop 32).take 32) ∧
    bigEndian ((bs.drop 32).take 32) ≤ secp256k1N / 2
  v : bs.drop 64 = [27] ∨ bs.drop 64 = [28]

/-- The last byte of 65. -/
theorem drop_of_length (bs : Bytes) (h : bs.length = 65) : ∃ v, bs.drop 64 = [v] := by
  have hone : (bs.drop 64).length = 1 := by rw [List.length_drop, h]
  exact List.length_eq_one_iff.mp hone

theorem canonical_iff (bs : Bytes) (h : bs.length = 65) :
    isCanonicalSecp256k1 bs = true ↔ CanonicalSignature bs := by
  obtain ⟨v, hv⟩ := drop_of_length bs h
  simp only [isCanonicalSecp256k1, hv, List.all_cons, List.all_nil, Bool.and_true,
    Bool.and_eq_true, Bool.or_eq_true, decide_eq_true_eq]
  constructor
  · rintro ⟨⟨hr, hs⟩, hbyte⟩
    exact ⟨h, hr, hs, by rcases hbyte with rfl | rfl <;> simp [hv]⟩
  · intro hc
    refine ⟨⟨hc.r, hc.s⟩, ?_⟩
    rcases hc.v with hlast | hlast
    · rw [hv] at hlast
      exact .inl (List.singleton_inj.mp hlast)
    · rw [hv] at hlast
      exact .inr (List.singleton_inj.mp hlast)

theorem withRecoveryByte_length (bs : Bytes) (h : bs.length = 65) :
    (withRecoveryByte bs).length = 65 := by
  rw [withRecoveryByte, List.length_append, List.length_map, List.length_take,
    List.length_drop, h]
  rfl

theorem withRecoveryByte_take (bs : Bytes) (h : bs.length = 65) :
    (withRecoveryByte bs).take 64 = bs.take 64 := by
  have htake : (bs.take 64).length = 64 := by
    rw [List.length_take, h]
    rfl
  rw [withRecoveryByte, List.take_append_of_le_length (Nat.le_of_eq htake.symm),
    List.take_of_length_le (Nat.le_of_eq htake)]

theorem withRecoveryByte_drop (bs : Bytes) (h : bs.length = 65) :
    (withRecoveryByte bs).drop 64 = (bs.drop 64).map recoveryByte := by
  have htake : (bs.take 64).length = 64 := by
    rw [List.length_take, h]
    rfl
  rw [withRecoveryByte, List.drop_append_of_le_length (Nat.le_of_eq htake.symm),
    List.drop_of_length_le (Nat.le_of_eq htake), List.nil_append]

/-- A canonical signature has its recovery byte already. -/
theorem CanonicalSignature.withRecoveryByte {bs : Bytes} (h : CanonicalSignature bs) :
    withRecoveryByte bs = bs := by
  have hmap : (bs.drop 64).map recoveryByte = bs.drop 64 := by
    rcases h.v with hv | hv <;> rw [hv] <;> rfl
  rw [LamTo.Model.withRecoveryByte, hmap, List.take_append_drop]

/-- **A successful call read backwards.** -/
theorem normalizeSignature_eq_ok (signature : SignatureValue) (t : Text) :
    normalizeSignature signature = .ok t ↔
      ∃ raw, signature.raw = .ok raw ∧ raw.length = 65 ∧
        CanonicalSignature (withRecoveryByte raw) ∧
        t = '0' :: 'x' :: byteText (withRecoveryByte raw) := by
  simp only [normalizeSignature, bind_eq_ok, require_eq_ok, pure_eq_ok]
  constructor
  · rintro ⟨raw, hraw, _, hlength, _, hcanonical, rfl⟩
    exact ⟨raw, hraw, hlength,
      (canonical_iff _ (withRecoveryByte_length raw hlength)).mp hcanonical, rfl⟩
  · rintro ⟨raw, hraw, hlength, hcanonical, rfl⟩
    exact ⟨raw, hraw, (), hlength, (),
      (canonical_iff _ (withRecoveryByte_length raw hlength)).mpr hcanonical, rfl⟩

/-- What is written is canonical. -/
theorem canonical_of_normalizeSignature (signature : SignatureValue) (t : Text)
    (h : normalizeSignature signature = .ok t) :
    ∃ bs, CanonicalSignature bs ∧ t = '0' :: 'x' :: byteText bs := by
  obtain ⟨raw, _, _, hcanonical, rfl⟩ := (normalizeSignature_eq_ok signature t).mp h
  exact ⟨_, hcanonical, rfl⟩

/-- Canonical bytes are written as they are. -/
theorem normalizeSignature_of_canonical (signature : SignatureValue) (bs : Bytes)
    (hraw : signature.raw = .ok bs) (h : CanonicalSignature bs) :
    normalizeSignature signature = .ok ('0' :: 'x' :: byteText bs) := by
  refine (normalizeSignature_eq_ok signature _).mpr ⟨bs, hraw, h.length, ?_, ?_⟩
  · rwa [h.withRecoveryByte]
  · rw [h.withRecoveryByte]

/-- The three numbers of a canonical text. -/
theorem CanonicalSignature.digits {bs : Bytes} (h : CanonicalSignature bs) :
    (byteText bs).length = 130 ∧ (∀ c ∈ byteText bs, isLowerHex c = true) ∧
      (0 < hexNat ((byteText bs).take 64) ∧ hexNat ((byteText bs).take 64) < secp256k1N) ∧
      (0 < hexNat (((byteText bs).drop 64).take 64) ∧
        hexNat (((byteText bs).drop 64).take 64) ≤ secp256k1N / 2) ∧
      (hexNat ((byteText bs).drop 128) = 27 ∨ hexNat ((byteText bs).drop 128) = 28) := by
  have hparts : bs = bs.take 32 ++ ((bs.drop 32).take 32 ++ bs.drop 64) := by
    have hdrop : bs.drop 64 = (bs.drop 32).drop 32 := by rw [List.drop_drop]
    rw [hdrop, List.take_append_drop, List.take_append_drop]
  have hr : (byteText (bs.take 32)).length = 64 := by
    rw [byteText_length, List.length_take, h.length]
    rfl
  have hs : (byteText ((bs.drop 32).take 32)).length = 64 := by
    rw [byteText_length, List.length_take, List.length_drop, h.length]
    rfl
  have htext : byteText bs = byteText (bs.take 32) ++
      (byteText ((bs.drop 32).take 32) ++ byteText (bs.drop 64)) := by
    rw [← byteText_append, ← byteText_append, ← hparts]
  have htake : (byteText bs).take 64 = byteText (bs.take 32) := by
    rw [htext, List.take_left' hr]
  have hdrop : (byteText bs).drop 64 =
      byteText ((bs.drop 32).take 32) ++ byteText (bs.drop 64) := by
    rw [htext, List.drop_left' hr]
  have hlast : (byteText bs).drop 128 = byteText (bs.drop 64) := by
    rw [show 128 = 64 + 64 from rfl, ← List.drop_drop, hdrop, List.drop_left' hs]
  refine ⟨by rw [byteText_length, h.length], isLowerHex_of_mem_byteText bs, ?_, ?_, ?_⟩
  · rw [htake, hexNat_byteText]
    exact h.r
  · rw [hdrop, List.take_left' hs, hexNat_byteText]
    exact h.s
  · rw [hlast, hexNat_byteText]
    rcases h.v with hv | hv
    · exact .inl (by rw [hv]; rfl)
    · exact .inr (by rw [hv]; rfl)

/-- What is read determines what is written, and what is written what is read, up to the
recovery byte. -/
theorem withRecoveryByte_eq_iff (x y : Bytes) (hx : x.length = 65) (hy : y.length = 65) :
    withRecoveryByte x = withRecoveryByte y ↔
      x.take 64 = y.take 64 ∧ (x.drop 64).map recoveryByte = (y.drop 64).map recoveryByte := by
  constructor
  · intro h
    rw [← withRecoveryByte_take x hx, ← withRecoveryByte_take y hy, h,
      ← withRecoveryByte_drop x hx, ← withRecoveryByte_drop y hy, h]
    exact ⟨rfl, rfl⟩
  · rintro ⟨htake, hdrop⟩
    rw [withRecoveryByte, withRecoveryByte, htake, hdrop]

/-! ## The contract -/

theorem toNat_mload (bs : Bytes) : (mload bs).toNat = bigEndian (bs.take 32) := by
  have hlt : bigEndian (bs.take 32) < 2 ^ 256 := by
    calc bigEndian (bs.take 32) < 256 ^ (bs.take 32).length := bigEndian_lt _
      _ ≤ 256 ^ 32 := Nat.pow_le_pow_right (by decide) (List.length_take_le 32 bs)
      _ = 2 ^ 256 := by norm_num
  exact (BitVec.toNat_ofNat _ _).trans (Nat.mod_eq_of_lt hlt)

theorem halfOrder_eq : halfOrder = secp256k1N / 2 := by decide

/-- **The library's tests on a signature pass**: only the recovery itself may still fail. -/
theorem CanonicalSignature.recover {bs : Bytes} (h : CanonicalSignature bs) (E : Evm)
    (hash : Bytes32) :
    recover E hash bs = .error .ecdsaInvalidSignature ∨
      ∃ signer, recover E hash bs = .ok signer := by
  have hlow : ¬ halfOrder < (mload (bs.drop 32)).toNat := by
    rw [toNat_mload, halfOrder_eq]
    exact Nat.not_lt.mpr h.s.2
  rw [LamTo.Model.recover, if_neg (not_not_intro h.length)]
  simp only [hlow, if_false]
  split
  · exact .inl rfl
  · exact .inr ⟨_, rfl⟩

/-! ## What is stored -/

variable (C : EvidenceConfig)

/-- The signature of a prepared event went through `normalize_signature`. -/
theorem platformIdentity_signature (now : ℕ) (eventId : Text) (eventType : ℕ)
    (payload : PyValue) (previousHash : Text) (building : ℕ) (f : IdentityFields)
    (h : platformIdentity C now eventId eventType payload previousHash building = .ok f) :
    ∃ signature, normalizeSignature signature = .ok f.signature := by
  simp only [platformIdentity, platformSignEvidence, bind_eq_ok, require_eq_ok, orRaise_eq_ok,
    pure_eq_ok] at h
  obtain ⟨_, _, _, _, _, _, _, _, _, _, signature, hsigned, _, _, rfl⟩ := h
  obtain ⟨_, _, _, _, platform, _, hnormal⟩ := hsigned
  generalize SignatureValue.str (byteText _) = value at hnormal
  cases hvalue : normalizeSignature value with
  | error message =>
    rw [hvalue] at hnormal
    cases hnormal
  | ok t =>
    rw [hvalue] at hnormal
    obtain rfl : t = signature := Except.ok.inj hnormal
    exact ⟨value, hvalue⟩

/-- The signature of a row is the text of canonical bytes. -/
def StoresCanonical (row : OutboxEvent) : Prop :=
  ∃ bs, CanonicalSignature bs ∧ row.signature = '0' :: 'x' :: byteText bs

/-- **One call stores canonical signatures only.** -/
theorem queueStep_canonical (rows rows' : OutboxTable) (c : QueueCall)
    (hrows : ∀ pk row, rows.get? pk = some row → StoresCanonical row)
    (h : queueStep C rows c = some rows') :
    ∀ pk row, rows'.get? pk = some row → StoresCanonical row := by
  unfold queueStep at h
  split at h
  · next key next hcall =>
    obtain rfl := Option.some.inj h
    simp only [queuePlatformEvent, bind_eq_ok] at hcall
    obtain ⟨f, hf, hcall⟩ := hcall
    obtain ⟨signature, hsignature⟩ := platformIdentity_signature C _ _ _ _ _ _ f hf
    split at hcall
    · simp only [bind_eq_ok, pure_eq_ok] at hcall
      obtain ⟨_, _, heq⟩ := hcall
      cases heq
      exact hrows
    · simp only [bind_eq_ok, orRaise_eq_ok, pure_eq_ok] at hcall
      obtain ⟨_, _, stored, _, i, hi, heq⟩ := hcall
      cases heq
      intro pk row hrow
      rw [Table.get?_insert] at hrow
      split at hrow
      · obtain rfl := Option.some.inj hrow
        have hsame : i.signature = f.signature :=
          congrArg IdentityFields.signature (check_eq_ok _ i hi)
        obtain ⟨bs, hbs, htext⟩ := canonical_of_normalizeSignature signature _ hsignature
        exact ⟨bs, hbs, hsame.trans htext⟩
      · exact hrows pk row hrow
  · cases h

/-- The worker hands the contract the bytes of the stored text. -/
theorem signatureBytes_byteText (bs : Bytes) :
    signatureBytes ('0' :: 'x' :: byteText bs) = some bs := hexBytes_byteText bs

/-- **A signature has one text.** Whatever is not refused is written as 130 lower-case digits
of canonical numbers, which are read back as they are; two inputs are written alike exactly
when their bytes agree up to the spelling of the recovery byte; and the contract's library
turns no stored signature away for its length or its `s`. -/
theorem signature_normal_form :
    (∀ signature t, normalizeSignature signature = .ok t →
      (∃ digits, t = '0' :: 'x' :: digits ∧ digits.length = 130 ∧
        (∀ c ∈ digits, isLowerHex c = true) ∧
        (0 < hexNat (digits.take 64) ∧ hexNat (digits.take 64) < secp256k1N) ∧
        (0 < hexNat ((digits.drop 64).take 64) ∧
          hexNat ((digits.drop 64).take 64) ≤ secp256k1N / 2) ∧
        (hexNat (digits.drop 128) = 27 ∨ hexNat (digits.drop 128) = 28)) ∧
      normalizeSignature (.str t) = .ok t) ∧
    (∀ first second s t, normalizeSignature first = .ok s → normalizeSignature second = .ok t →
      (s = t ↔ ∃ x y, first.raw = .ok x ∧ second.raw = .ok y ∧ x.take 64 = y.take 64 ∧
        (x.drop 64).map recoveryByte = (y.drop 64).map recoveryByte)) ∧
    (∀ rows, Reaches (queueStep C) Always Table.empty rows →
      ∀ pk row, rows.get? pk = some row →
        ∃ bs, signatureBytes row.signature = some bs ∧ bs.length = 65 ∧
          bigEndian ((bs.drop 32).take 32) ≤ halfOrder ∧
          (bs.drop 64 = [27] ∨ bs.drop 64 = [28]) ∧
          ∀ E hash, LamTo.Model.recover E hash bs = .error .ecdsaInvalidSignature ∨
            ∃ signer, LamTo.Model.recover E hash bs = .ok signer) := by
  refine ⟨?_, ?_, ?_⟩
  · intro signature t h
    obtain ⟨bs, hbs, rfl⟩ := canonical_of_normalizeSignature signature t h
    exact ⟨⟨byteText bs, rfl, hbs.digits⟩,
      normalizeSignature_of_canonical _ bs (raw_byteText bs) hbs⟩
  · intro first second s t hfirst hsecond
    obtain ⟨x, hx, hxlength, _, rfl⟩ := (normalizeSignature_eq_ok first s).mp hfirst
    obtain ⟨y, hy, hylength, _, rfl⟩ := (normalizeSignature_eq_ok second t).mp hsecond
    have hiff := withRecoveryByte_eq_iff x y hxlength hylength
    constructor
    · intro h
      have hbytes := byteText_injective _ _ (List.cons.inj (List.cons.inj h).2).2
      exact ⟨x, y, hx, hy, hiff.mp hbytes⟩
    · rintro ⟨x', y', hx', hy', hagree⟩
      rw [hx] at hx'
      rw [hy] at hy'
      obtain rfl := Except.ok.inj hx'
      obtain rfl := Except.ok.inj hy'
      rw [hiff.mpr hagree]
  · intro rows hreach pk row hrow
    have hall := hreach.preserves
      (fun rows : OutboxTable => ∀ pk row, rows.get? pk = some row → StoresCanonical row)
      (fun rows c rows' hrows _ h => queueStep_canonical C rows rows' c hrows h)
      (fun pk row hrow => by
        rw [Table.get?_empty] at hrow
        cases hrow)
    obtain ⟨bs, hbs, htext⟩ := hall pk row hrow
    refine ⟨bs, ?_, hbs.length, ?_, hbs.v, hbs.recover⟩
    · rw [htext, signatureBytes_byteText]
    · rw [halfOrder_eq]
      exact hbs.s.2

end LamTo.Analysis
