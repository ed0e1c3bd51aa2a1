import LamTo.Analysis.CanonicalForm
import LamTo.Library.Transition
import LamTo.Model.Evidence

/-!
# What is queued re-hashes to its hash

`queuePlatformEvent_eq_ok` reads a successful call backwards: either the row was there, or a
new one holds the normalised payload as the column returns it, with the digest of the
canonical bytes. Since the column keeps the value, the stored payload has those bytes again.

SOURCE: src/lamto/evidence/services.py:122-170
-/

set_option autoImplicit false

namespace LamTo.Analysis

open LamTo.Library LamTo.Model

variable (C : EvidenceConfig)

/-! ## A call that returns -/

@[simp] theorem liftCanonical_eq_ok {α : Type} (x : Except CanonicalError α) (a : α) :
    liftCanonical x = .ok a ↔ x = .ok a := by
  cases x <;> simp [liftCanonical]

/-- The payload hash of an accepted payload is the digest of its canonical bytes. -/
theorem payloadHash_eq_ok (U : Unicode) (H : Hashing) (p : PyValue) (h : Text) :
    payloadHash U H p = .ok h ↔ ∃ b, canonicalBytes U p = .ok b ∧ H.sha256hex b = h := by
  simp only [payloadHash, bind_eq_ok, pure_eq_ok]

/-- Everything a successful preparation says about the fields. -/
structure Prepared (eventType : ℕ) (payload : PyValue) (previousHash : Text) (building : ℕ)
    (f : IdentityFields) : Prop where
  eventType_eq : f.eventType = eventType
  anchored : eventType = proposalCreated ∨ eventType = settlementType
  previousHash_eq : f.previousHash = lower previousHash
  building_eq : f.building = building
  normalized : ∃ j, Model.normalize C.unicode payload = .ok j ∧ f.payload = Json.sortKeys j
  digest : payloadHash C.unicode C.hashing payload = .ok f.payloadHash

theorem validatePayload_eventType (U : Unicode) (eventType : ℕ) (payload : PyValue)
    (h : validatePayload U eventType payload = .ok ()) :
    eventType = proposalCreated ∨ eventType = settlementType := by
  simp only [validatePayload, bind_eq_ok, orRaise_eq_ok] at h
  obtain ⟨schema, hschema, _⟩ := h
  unfold payloadSchema at hschema
  split at hschema
  · next heq => exact .inl heq
  · split at hschema
    · next heq => exact .inr heq
    · cases hschema

theorem platformIdentity_eq_ok (now : ℕ) (eventId : Text) (eventType : ℕ) (payload : PyValue)
    (previousHash : Text) (building : ℕ) (f : IdentityFields)
    (h : platformIdentity C now eventId eventType payload previousHash building = .ok f) :
    Prepared C eventType payload previousHash building f := by
  simp only [platformIdentity, bind_eq_ok, require_eq_ok, orRaise_eq_ok, liftCanonical_eq_ok,
    pure_eq_ok] at h
  obtain ⟨_, hvalid, _, _, bytes, hbytes, v, hloads, digest, hdigest, signature, _, platform, _,
    rfl⟩ := h
  obtain ⟨j, hj, _, _⟩ := canonicalBytes_eq_ok C.unicode payload bytes hbytes
  have hnormal := normalize_spec C.unicode payload j hj
  rw [loadsBytes_canonicalBytes C.unicode payload bytes j hbytes hj] at hloads
  cases hloads
  -- The digest is taken of the value read back, which has the bytes of the payload.
  have hagain := canonicalBytes_of_denote_eq C.unicode payload bytes j (Json.sortKeys j) hbytes hj
    (Json.plain_sortKeys j hnormal.plain) (Json.denote_sortKeys j hnormal.plain)
  obtain ⟨bytes', hbytes', rfl⟩ := (payloadHash_eq_ok _ _ _ _).mp hdigest
  rw [hagain] at hbytes'
  cases hbytes'
  refine ⟨rfl, validatePayload_eventType _ _ _ hvalid, rfl, rfl, ⟨j, hj, rfl⟩, ?_⟩
  exact (payloadHash_eq_ok _ _ _ _).mpr ⟨bytes, hbytes, rfl⟩

/-- The columns of an identity. -/
def Identity.fields (i : Identity) : IdentityFields :=
  ⟨i.eventId, i.eventType, i.payload, i.payloadHash, i.previousHash, i.signature,
    i.signerAddress, i.building, i.createdAt⟩

theorem check_eq_ok (f : IdentityFields) (i : Identity) (h : f.check = .ok i) :
    Identity.fields i = f := by
  unfold IdentityFields.check at h
  split at h
  · cases h
  · split at h
    · split at h
      · split at h
        · split at h
          · cases h
            rfl
          · cases h
        · cases h
      · cases h
    · cases h

/-- **What a successful call did**: it found the row with this identity, or it inserted a new
one whose payload is what the column makes of the normalised value. -/
theorem queuePlatformEvent_eq_ok (now : ℕ) (eventId : Text) (eventType : ℕ) (payload : PyValue)
    (previousHash : Text) (building : ℕ) (rows rows' : OutboxTable) (pk : ℕ)
    (h : queuePlatformEvent C now eventId eventType payload previousHash building rows
      = .ok (pk, rows')) :
    ∃ f, Prepared C eventType payload previousHash building f ∧
      ((rows' = rows ∧ ∃ e, rows.get? pk = some e ∧ sameIdentity f e.toIdentity = true) ∨
        (∃ i stored, C.jsonb.column f.payload = some stored ∧
          Identity.fields i = { f with payload := stored } ∧ pk = rows.next ∧
          rows' = rows.insert ⟨i, .fresh⟩)) := by
  simp only [queuePlatformEvent, bind_eq_ok] at h
  obtain ⟨f, hf, h⟩ := h
  refine ⟨f, platformIdentity_eq_ok C now eventId eventType payload previousHash building f hf, ?_⟩
  split at h
  · next pk' existing hfind =>
    simp only [bind_eq_ok, require_eq_ok, pure_eq_ok] at h
    obtain ⟨_, hsame, heq⟩ := h
    cases heq
    have hmem := List.mem_of_find?_eq_some hfind
    exact .inl ⟨rfl, existing, (rows.get?_eq_some pk existing).mpr hmem, hsame⟩
  · simp only [bind_eq_ok, require_eq_ok, orRaise_eq_ok, pure_eq_ok] at h
    obtain ⟨_, _, stored, hstored, i, hi, heq⟩ := h
    cases heq
    exact .inr ⟨i, stored, hstored, check_eq_ok _ i hi, rfl, rfl⟩

/-! ## Re-hashing -/

/-- The stored payload hashes to the stored hash. -/
def Rehashes (i : Identity) : Prop :=
  payloadHash C.unicode C.hashing (.ofJson i.payload) = .ok i.payloadHash

/-- What the column returns for a normalised payload has the payload's hash. -/
theorem payloadHash_column (payload : PyValue) (j stored : Json) (h : Text)
    (hj : Model.normalize C.unicode payload = .ok j)
    (hstored : C.jsonb.column (Json.sortKeys j) = some stored)
    (hhash : payloadHash C.unicode C.hashing payload = .ok h) :
    payloadHash C.unicode C.hashing (.ofJson stored) = .ok h := by
  obtain ⟨bytes, hbytes, rfl⟩ := (payloadHash_eq_ok _ _ _ _).mp hhash
  have hplain := (normalize_spec C.unicode payload j hj).plain
  have hsorted := Json.plain_sortKeys j hplain
  have hdenote : Json.denote stored = Json.denote j := by
    rw [C.jsonb.column_denote _ _ hsorted hstored, Json.denote_sortKeys j hplain]
  have hagain := canonicalBytes_of_denote_eq C.unicode payload bytes j stored hbytes hj
    (C.jsonb.column_plain _ _ hsorted hstored) hdenote
  exact (payloadHash_eq_ok _ _ _ _).mpr ⟨bytes, hagain, rfl⟩

/-- A newly inserted row re-hashes. -/
theorem rehashes_of_prepared (eventType : ℕ) (payload : PyValue) (previousHash : Text)
    (building : ℕ) (f : IdentityFields) (i : Identity) (stored : Json)
    (hf : Prepared C eventType payload previousHash building f)
    (hstored : C.jsonb.column f.payload = some stored)
    (hi : Identity.fields i = { f with payload := stored }) : Rehashes C i := by
  obtain ⟨j, hj, hpayload⟩ := hf.normalized
  rw [hpayload] at hstored
  have hpayload_i : i.payload = stored := congrArg IdentityFields.payload hi
  have hhash_i : i.payloadHash = f.payloadHash := congrArg IdentityFields.payloadHash hi
  unfold Rehashes
  rw [hpayload_i, hhash_i]
  exact payloadHash_column C payload j stored f.payloadHash hj hstored hf.digest

/-- The arguments of a call. -/
structure QueueCall where
  now : ℕ
  eventId : Text
  eventType : ℕ
  payload : PyValue
  previousHash : Text
  building : ℕ

/-- The table after a call that returns. -/
def queueStep (rows : OutboxTable) (c : QueueCall) : Option OutboxTable :=
  match queuePlatformEvent C c.now c.eventId c.eventType c.payload c.previousHash c.building rows with
  | .ok (_, rows') => some rows'
  | .error _ => none

/-- **One call keeps every row re-hashing.** -/
theorem queueStep_rehashes (rows rows' : OutboxTable) (c : QueueCall)
    (hrows : ∀ pk row, rows.get? pk = some row → Rehashes C row.toIdentity)
    (h : queueStep C rows c = some rows') :
    ∀ pk row, rows'.get? pk = some row → Rehashes C row.toIdentity := by
  unfold queueStep at h
  split at h
  · next pk' rows'' hcall =>
    cases h
    obtain ⟨f, hf, hcases⟩ := queuePlatformEvent_eq_ok C _ _ _ _ _ _ rows rows' pk' hcall
    rcases hcases with ⟨rfl, _⟩ | ⟨i, stored, hstored, hi, _, rfl⟩
    · exact hrows
    · intro pk row hrow
      rw [Table.get?_insert] at hrow
      split at hrow
      · cases hrow
        exact rehashes_of_prepared C _ _ _ _ f i stored hf hstored hi
      · exact hrows pk row hrow
  · cases h

/-- **The canonical form is a faithful encoding.** For any two accepted payloads the bytes
are equal exactly when the normalised values are equal as JSON values; reading the bytes back
gives the normalised value, which has the same bytes again; and every row that calls of
`queue_platform_event` put in the table re-hashes to its payload hash.
SOURCE: canonical.py:6-35, services.py:131-149 -/
theorem canonical_form_faithful (p q : PyValue) (b c : ByteArray)
    (hp : canonicalBytes C.unicode p = .ok b) (hq : canonicalBytes C.unicode q = .ok c) :
    (∃ j k, Model.normalize C.unicode p = .ok j ∧ Model.normalize C.unicode q = .ok k ∧
      (b = c ↔ Json.denote j = Json.denote k)) ∧
    (∃ j v, Model.normalize C.unicode p = .ok j ∧ loadsBytes b = some v ∧
      Json.denote v = Json.denote j ∧ canonicalBytes C.unicode (.ofJson v) = .ok b) ∧
    (∀ rows, Reaches (queueStep C) Always Table.empty rows →
      ∀ pk row, rows.get? pk = some row →
        payloadHash C.unicode C.hashing (.ofJson row.payload) = .ok row.payloadHash) := by
  obtain ⟨j, hj, _, _⟩ := canonicalBytes_eq_ok C.unicode p b hp
  obtain ⟨k, hk, _, _⟩ := canonicalBytes_eq_ok C.unicode q c hq
  have hplain := (normalize_spec C.unicode p j hj).plain
  refine ⟨⟨j, k, hj, hk, ?_⟩, ⟨j, Json.sortKeys j, hj, ?_, ?_, ?_⟩, ?_⟩
  · exact canonicalBytes_eq_iff C.unicode p q b c j k hp hq hj hk
  · exact loadsBytes_canonicalBytes C.unicode p b j hp hj
  · exact Json.denote_sortKeys j hplain
  · exact canonicalBytes_of_denote_eq C.unicode p b j (Json.sortKeys j) hp hj
      (Json.plain_sortKeys j hplain) (Json.denote_sortKeys j hplain)
  · intro rows hreach
    refine hreach.preserves
      (fun rows => ∀ pk row, rows.get? pk = some row → Rehashes C row.toIdentity) ?_ ?_
    · exact fun rows c rows' hrows _ h => queueStep_rehashes C rows rows' c hrows h
    · intro pk row hrow
      rw [Table.get?_empty] at hrow
      cases hrow

/-! ## ASCII payloads -/

/-- The tables restricted to ASCII: text is in normal form as it stands. -/
def asciiUnicode : Unicode where
  nfc s := s
  decimal c := if c.isDigit then some (c.toNat - '0'.toNat) else none
  upper s := s.map Char.toUpper
  isSpace c := c.isWhitespace
  nfc_nfc _ := rfl
  nfc_ascii _ _ := rfl
  decimal_ascii _ _ := rfl

/-- `r` and `s` are one, and the recovery byte is 27. -/
def sampleSignature : Bytes :=
  List.replicate 31 0 ++ 1 :: (List.replicate 31 0 ++ [1, 27])

def samplePlatform : Platform where
  address := '0' :: 'x' :: (List.replicate 39 '0' ++ ['5'])
  signTypedData _ _ _ _ := sampleSignature
  address_ne := by decide
  address_text := by decide
  length_signTypedData _ _ _ _ := rfl
  canonical_signTypedData _ _ _ _ := by decide

def sampleConfig : EvidenceConfig where
  unicode := asciiUnicode
  hashing := sha256
  jsonb := ⟨some, fun _ _ h hk => (Option.some.inj hk) ▸ h, fun _ _ _ hk => by rw [Option.some.inj hk]⟩
  platform := some samplePlatform
  writeAuthorized := true

/-- Two spellings of one object: the same members in the other order. -/
def samplePayload (flip : Bool) : PyValue :=
  if flip then .dict [(.str ['b'], .bool true), (.str ['a'], .int 1)]
  else .dict [(.str ['a'], .int 1), (.str ['b'], .bool true)]

/-- Both are accepted, with the same bytes, since they mean the same. -/
theorem canonical_form_faithful_flipped :
    ∃ b c, canonicalBytes asciiUnicode (samplePayload true) = .ok b ∧
      canonicalBytes asciiUnicode (samplePayload false) = .ok c ∧
      ∃ j k, Model.normalize asciiUnicode (samplePayload true) = .ok j ∧
        Model.normalize asciiUnicode (samplePayload false) = .ok k ∧
        (b = c ↔ Json.denote j = Json.denote k) :=
  ⟨_, _, rfl, rfl,
    (canonical_form_faithful sampleConfig (samplePayload true) (samplePayload false) _ _ rfl
      rfl).1⟩

end LamTo.Analysis
