import LamTo.Analysis.PayloadShapes
import LamTo.Analysis.SignatureForm
import LamTo.Library.JsonCharacters
import LamTo.Library.Separated
import LamTo.Model.WriteAuthorization

/-!
# An authorization is for one row

The service hashes the row it is about to write into an authorization, and the insert procedure
hashes its own arguments and compares.

* the template of the procedure spells the join of the service, so the two digests agree;
* seven of the eight values hold no separator: they are hexadecimal texts and numbers. The
  eighth comes last, so the join is read back whatever that one holds;
* the payloads that are queued hold no separator either, so their message has eight of them and
  no other row, however its values are spelled, has the same message.

What is left are two different byte strings with the same SHA-256.

SOURCE: src/lamto/evidence/services.py:63-67, 122-166,
evidence/migrations/0022_restore_platform_outbox_insert.py:6-42
-/

set_option autoImplicit false

namespace LamTo.Analysis

open LamTo.Library LamTo.Model

/-! ## The message -/

theorem renderInt_injective (i k : ℤ) (h : Json.renderInt i = Json.renderInt k) : i = k := by
  have hi := Json.loads_render (.int i) trivial
  have hk := Json.loads_render (.int k) trivial
  simp only [Json.render] at hi hk
  rw [h, hk] at hi
  exact (Json.int.inj (Option.some.inj hi)).symm

theorem utf8Bytes_injective (s t : Text) (h : utf8Bytes s = utf8Bytes t) : s = t := by
  have hbytes : Function.Injective UInt8.toBitVec := fun a b hab => UInt8.toBitVec_inj.mp hab
  exact Utf8.encode_injective s t (List.map_injective_iff.mpr hbytes h)

/-- The parts of the message. -/
def WriteTuple.texts (t : WriteTuple) : List Text :=
  "platform-evidence-queue".toList :: t.parts.map WritePart.str

theorem texts_injective (t u : WriteTuple)
    (h : WriteTuple.texts t = WriteTuple.texts u) : t = u := by
  obtain ⟨_, _, _, _, _, _, _, _⟩ := t
  obtain ⟨_, _, _, _, _, _, _, _⟩ := u
  simp only [WriteTuple.texts, WriteTuple.parts, List.map_cons, List.map_nil, WritePart.str,
    List.cons.injEq, and_true, true_and] at h
  obtain ⟨rfl, htype, rfl, rfl, rfl, rfl, hbuilding, rfl⟩ := h
  obtain rfl := renderInt_injective _ _ htype
  obtain rfl := renderInt_injective _ _ hbuilding
  rfl

/-- **The procedure formats what the service joins.** -/
theorem sqlFormat_eq {J : Type} (p : InsertArguments J) :
    sqlFormat "platform-evidence-queue|%s|%s|%s|%s|%s|%s|%s|%s".toList
      [p.eventId, Json.renderInt p.eventType, p.payloadHash, p.previousHash, p.signature,
        p.signerAddress, Json.renderInt p.building, p.canonicalPayload] =
      some (platformWriteMessage p.tuple.parts) := by
  have hjoin : platformWriteMessage p.tuple.parts = "platform-evidence-queue".toList ++
      ('|' :: (p.eventId ++ ('|' :: (Json.renderInt p.eventType ++ ('|' :: (p.payloadHash ++
      ('|' :: (p.previousHash ++ ('|' :: (p.signature ++ ('|' :: (p.signerAddress ++
      ('|' :: (Json.renderInt p.building ++ ('|' :: p.canonicalPayload)))))))))))))))
      := by
    simp only [platformWriteMessage, InsertArguments.tuple, WriteTuple.parts, List.map_cons,
      List.map_nil, WritePart.str, List.intercalate_cons_cons, List.intercalate_singleton,
      List.append_assoc, List.singleton_append]
  have hformat : sqlFormat "platform-evidence-queue|%s|%s|%s|%s|%s|%s|%s|%s".toList
      [p.eventId, Json.renderInt p.eventType, p.payloadHash, p.previousHash, p.signature,
        p.signerAddress, Json.renderInt p.building, p.canonicalPayload] =
      some ("platform-evidence-queue".toList ++
      ('|' :: (p.eventId ++ ('|' :: (Json.renderInt p.eventType ++ ('|' :: (p.payloadHash ++
      ('|' :: (p.previousHash ++ ('|' :: (p.signature ++ ('|' :: (p.signerAddress ++
      ('|' :: (Json.renderInt p.building ++ ('|' :: (p.canonicalPayload ++ [])))))))))))))))))
      := rfl
  rw [hformat, hjoin, List.append_nil]

/-- **The two digests agree.** -/
theorem recomputedAuthorization_eq {J : Type} (sha256 : Bytes → Bytes) (writeSecret : Text)
    (p : InsertArguments J) :
    recomputedAuthorization sha256 (utf8Bytes writeSecret) p =
      some (platformWriteAuthorization sha256 writeSecret p.tuple.parts) := by
  rw [recomputedAuthorization, sqlFormat_eq]
  rfl

/-! ## Reading the message -/

/-- No value but the payload holds the separator. -/
structure Separated (t : WriteTuple) : Prop where
  eventId : '|' ∉ t.eventId
  payloadHash : '|' ∉ t.payloadHash
  previousHash : '|' ∉ t.previousHash
  signature : '|' ∉ t.signature
  signerAddress : '|' ∉ t.signerAddress

theorem separator_notMem_renderInt (i : ℤ) : '|' ∉ Json.renderInt i :=
  Json.notMem_renderInt (by decide) i

/-- All parts but the last. -/
theorem Separated.before {t : WriteTuple} (h : Separated t) :
    ∀ x ∈ (WriteTuple.texts t).dropLast, '|' ∉ x := by
  simp only [WriteTuple.texts, WriteTuple.parts, List.map_cons, List.map_nil, WritePart.str,
    List.dropLast_cons_cons, List.dropLast_singleton, List.forall_mem_cons, List.not_mem_nil,
    false_imp_iff, implies_true, and_true]
  exact ⟨by decide, h.eventId, separator_notMem_renderInt _, h.payloadHash, h.previousHash,
    h.signature, h.signerAddress, separator_notMem_renderInt _⟩

/-- **The message determines the values**, whatever the payload holds. -/
theorem Separated.message_injective {t u : WriteTuple} (ht : Separated t) (hu : Separated u)
    (h : platformWriteMessage t.parts = platformWriteMessage u.parts) : t = u :=
  texts_injective t u (intercalate_injective '|' _ _ rfl ht.before hu.before h)

/-- **No other row has the message of a row without separators.** -/
theorem Separated.eq_of_message {t : WriteTuple} (ht : Separated t)
    (hpayload : '|' ∉ t.canonicalPayload) (u : WriteTuple)
    (h : platformWriteMessage t.parts = platformWriteMessage u.parts) : t = u := by
  refine texts_injective t u (eq_of_intercalate_eq '|' _ _ rfl ?_ h)
  simp only [WriteTuple.texts, WriteTuple.parts, List.map_cons, List.map_nil, WritePart.str,
    List.forall_mem_cons, List.not_mem_nil, false_imp_iff, implies_true, and_true]
  exact ⟨by decide, ht.eventId, separator_notMem_renderInt _, ht.payloadHash, ht.previousHash,
    ht.signature, ht.signerAddress, separator_notMem_renderInt _, hpayload⟩

/-! ## What is queued -/

theorem separator_notMem_of_lowerHex (t : Text) (h : ∀ c ∈ t, isLowerHex c = true) :
    '|' ∉ t := fun hmem => absurd (h '|' hmem) (by decide)

theorem separator_notMem_of_hash64 (t : Text) (h : isHash64 t = true) : '|' ∉ t :=
  separator_notMem_of_lowerHex t ((isHash64_iff t).mp h).2

theorem separator_notMem_prefixed (t : Text) (h : '|' ∉ t) : '|' ∉ '0' :: 'x' :: t := by
  simp [h]

theorem separator_notMem_of_bytes32 (t : Text) (h : isBytes32Text t = true) : '|' ∉ t := by
  obtain ⟨digits, rfl, hdigits⟩ := (isBytes32Text_iff t).mp h
  exact separator_notMem_prefixed digits (separator_notMem_of_hash64 digits hdigits)

theorem separator_notMem_of_address (t : Text) (h : isAddressText t = true) : '|' ∉ t := by
  simp only [isAddressText, Bool.and_eq_true, decide_eq_true_eq, List.all_eq_true] at h
  obtain ⟨⟨hbare, _⟩, hdigits⟩ := h
  rw [← List.take_append_drop 2 t, hbare]
  refine separator_notMem_prefixed _ fun hmem => ?_
  exact absurd (hdigits '|' hmem) (by decide)

variable (C : EvidenceConfig)

/-- **The values of a queued row but its payload hold no separator.** -/
theorem separated_of_authorizedWrite (now : ℕ) (eventId : Text) (eventType : ℕ)
    (payload : PyValue) (previousHash : Text) (building : ℕ) (t : WriteTuple)
    (h : authorizedWrite C now eventId eventType payload previousHash building = .ok t) :
    Separated t := by
  simp only [authorizedWrite, bind_eq_ok, liftCanonical_eq_ok, orRaise_eq_ok, pure_eq_ok] at h
  obtain ⟨f, hf, bytes, hbytes, text, htext, rfl⟩ := h
  obtain ⟨signature, hsignature⟩ := platformIdentity_signature C _ _ _ _ _ _ f hf
  obtain ⟨bs, _, hsigned⟩ := canonical_of_normalizeSignature signature _ hsignature
  have hdigest := (platformIdentity_eq_ok C _ _ _ _ _ _ f hf).digest
  obtain ⟨_, _, hhash⟩ := (payloadHash_eq_ok _ _ _ _).mp hdigest
  simp only [platformIdentity, bind_eq_ok, require_eq_ok, orRaise_eq_ok, liftCanonical_eq_ok,
    pure_eq_ok] at hf
  obtain ⟨_, _, _, ⟨hevent, hlink⟩, _, _, _, _, _, _, _, _, platform, _, rfl⟩ := hf
  refine ⟨separator_notMem_of_bytes32 _ hevent, ?_, separator_notMem_of_bytes32 _ hlink, ?_,
    separator_notMem_of_address _ platform.address_text⟩
  · show '|' ∉ _
    rw [← hhash]
    exact separator_notMem_of_lowerHex _ (C.hashing.sha256hex_digit _)
  · show '|' ∉ _
    rw [hsigned]
    exact separator_notMem_prefixed _
      (separator_notMem_of_lowerHex _ (isLowerHex_of_mem_byteText bs))

/-! ## The payloads that are queued -/

theorem separator_notMem_of_hashText (s : Text) (h : HashText s) : '|' ∉ s := by
  obtain ⟨digits, _, hdigits, rfl | rfl⟩ := h
  · exact separator_notMem_of_lowerHex _ hdigits
  · exact separator_notMem_prefixed _ (separator_notMem_of_lowerHex _ hdigits)

theorem decimal_separator (U : Unicode) : U.decimal '|' = none := by
  rw [U.decimal_ascii '|' (by decide)]
  rfl

/-- The separator is no digit, so it is nowhere in a timestamp. -/
theorem separator_notMem_of_timestamp (U : Unicode) (s : Text)
    (h : isValidUtcTimestamp U s = true) : '|' ∉ s := by
  have hdecimal := decimal_separator U
  have hdigit : ('|' : Char).isDigit = false := rfl
  have hsome : ∀ o : Option Bool, o.getD false = true → o = some true := by
    intro o ho
    cases o with
    | none => cases ho
    | some b => exact congrArg some ho
  unfold isValidUtcTimestamp at h
  split at h
  · replace h := hsome _ h
    intro hmem
    simp only [List.mem_cons, List.not_mem_nil, or_false] at hmem
    rcases hmem with hc | hc | hc | hc | hc | hc | hc | hc | hc | hc | hc | hc | hc | hc | hc |
      hc | hc | hc | hc | hc | hc | hc | hc | hc | hc | hc | hc
    all_goals
      first
      | exact absurd hc (by decide)
      | (subst hc; simp [twoDigits, hdecimal, hdigit, Option.bind_eq_some_iff] at h)
  · cases h

/-- The texts of a list in normal form. -/
theorem mem_normalizeItems (U : Unicode) (texts : List Text) (ys : List Json)
    (h : normalizeItems U (texts.map .str) = .ok ys) :
    ∀ y ∈ ys, ∃ s ∈ texts, y = .str (U.nfc s) := by
  induction texts generalizing ys with
  | nil =>
    cases h
    exact fun y hy => absurd hy List.not_mem_nil
  | cons s texts ih =>
    simp only [List.map_cons, normalizeItems, bind_eq_ok, pure_eq_ok] at h
    obtain ⟨y, hy, zs, hzs, rfl⟩ := h
    refine List.forall_mem_cons.mpr ⟨⟨s, List.mem_cons_self, ?_⟩, fun z hz => ?_⟩
    · exact (Except.ok.inj hy).symm
    · obtain ⟨t, ht, hzt⟩ := ih zs hzs z hz
      exact ⟨t, List.mem_cons_of_mem s ht, hzt⟩

/-- Every item of a normal form comes from an item of the dictionary. -/
theorem mem_normalizeMembers (U : Unicode) (ms : List (PyKey × PyValue))
    (acc ns : List (Text × Json)) (h : normalizeMembers U acc ms = .ok ns) :
    ∀ m ∈ ns, m ∈ acc ∨ ∃ k v, (PyKey.str k, v) ∈ ms ∧ m.1 = U.nfc k ∧
      Model.normalize U v = .ok m.2 := by
  induction ms generalizing acc with
  | nil =>
    cases h
    exact fun m hm => .inl hm
  | cons item ms ih =>
    obtain ⟨key, v⟩ := item
    cases key with
    | other typeName => cases h
    | str k =>
      simp only [normalizeMembers] at h
      split at h
      · cases h
      · rw [bind_eq_ok] at h
        obtain ⟨w, hw, hrest⟩ := h
        intro m hm
        rcases ih _ hrest m hm with hacc | ⟨k', v', hmem, hkey, hvalue⟩
        · rcases List.mem_append.mp hacc with hacc | hnew
          · exact .inl hacc
          · rw [List.mem_singleton.mp hnew]
            exact .inr ⟨k, v, List.mem_cons_self, rfl, hw⟩
        · exact .inr ⟨k', v', List.mem_cons_of_mem _ hmem, hkey, hvalue⟩

/-- **An accepted value holds no separator**: the numbers have none, the texts are digests,
timestamps and one literal. -/
theorem without_of_accepts (U : Unicode) (hnfc : ∀ s, '|' ∉ s → '|' ∉ U.nfc s) (shape : Shape)
    (v : PyValue) (j : Json) (hshape : shape ∈ anchoredShapes) (h : shape.accepts U v = true)
    (hj : Model.normalize U v = .ok j) : Json.Without '|' j := by
  simp only [anchoredShapes, List.mem_cons, List.not_mem_nil, or_false] at hshape
  rcases hshape with rfl | rfl | rfl | rfl | rfl | rfl | rfl
  · cases v with
    | int i => cases hj; trivial
    | _ => cases h
  · cases v with
    | int i => cases hj; trivial
    | _ => cases h
  · cases v with
    | int i => cases hj; trivial
    | _ => cases h
  · cases v with
    | str s =>
      cases hj
      exact hnfc s (separator_notMem_of_hashText s (hashText_of_isHashText s h))
    | _ => cases h
  · cases v with
    | list xs =>
      simp only [Shape.accepts, Bool.and_eq_true, List.all_eq_true] at h
      obtain ⟨texts, rfl, htexts⟩ := hashTexts_of_all xs h.2
      simp only [Model.normalize, bind_eq_ok, pure_eq_ok] at hj
      obtain ⟨ys, hys, rfl⟩ := hj
      refine (Json.withoutElements_iff '|' ys).mpr fun y hy => ?_
      obtain ⟨s, hs, rfl⟩ := mem_normalizeItems U texts ys hys y hy
      exact hnfc s (separator_notMem_of_hashText s (htexts s hs))
    | _ => cases h
  · cases v with
    | str s =>
      cases hj
      exact hnfc s (separator_notMem_of_timestamp U s h)
    | _ => cases h
  · cases v with
    | str s =>
      cases hj
      have hs : s = "settlement.v2".toList := by simpa [Shape.accepts] using h
      rw [hs]
      exact hnfc _ (by decide)
    | _ => cases h

theorem separator_notMem_field (eventType : ℕ) (schema : Schema) (field : Text) (shape : Shape)
    (hschema : payloadSchema eventType = some schema) (h : schema.shape field = some shape) :
    '|' ∉ field := by
  have hproposal : ∀ f ∈ proposalSchema.required ++ proposalSchema.optional, '|' ∉ f.1 := by
    simp only [proposalSchema, List.cons_append, List.nil_append, List.forall_mem_cons,
      List.not_mem_nil, false_imp_iff, implies_true, and_true]
    decide
  have hsettlement : ∀ f ∈ settlementSchema.required ++ settlementSchema.optional,
      '|' ∉ f.1 := by
    simp only [settlementSchema, List.append_nil, List.forall_mem_cons, List.not_mem_nil,
      false_imp_iff, implies_true, and_true]
    decide
  have hmem := mem_of_shape schema field shape h
  unfold payloadSchema at hschema
  split at hschema
  · cases hschema
    exact hproposal _ hmem
  · split at hschema
    · cases hschema
      exact hsettlement _ hmem
    · cases hschema

/-- **A valid payload has no separator in its normal form.** -/
theorem without_of_valid (U : Unicode) (hnfc : ∀ s, '|' ∉ s → '|' ∉ U.nfc s) (eventType : ℕ)
    (payload : PyValue) (j : Json) (h : validatePayload U eventType payload = .ok ())
    (hj : Model.normalize U payload = .ok j) : Json.Without '|' j := by
  obtain ⟨schema, members, hschema, rfl, hshaped⟩ :=
    (validatePayload_eq_ok U eventType payload).mp h
  simp only [dictOf, Model.normalize, bind_eq_ok, pure_eq_ok] at hj
  obtain ⟨ns, hns, rfl⟩ := hj
  refine (Json.withoutMembers_iff '|' ns).mpr fun m hm => ?_
  rcases mem_normalizeMembers U _ [] ns hns m hm with hnone | ⟨k, v, hmem, hkey, hvalue⟩
  · cases hnone
  · obtain ⟨member, hmember, heq⟩ := List.mem_map.mp hmem
    cases heq
    obtain ⟨shape, hshape, haccepts⟩ := hshaped.shaped member hmember
    have hanchored := (anchoredShapes_of_shape eventType schema _ shape hschema hshape).1
    refine ⟨?_, without_of_accepts U hnfc shape _ m.2 hanchored haccepts hvalue⟩
    rw [hkey]
    exact hnfc _ (separator_notMem_field eventType schema _ shape hschema hshape)

/-- **The canonical text of a queued payload holds no separator.** -/
theorem separator_notMem_canonicalPayload (hnfc : ∀ s, '|' ∉ s → '|' ∉ C.unicode.nfc s)
    (now : ℕ) (eventId : Text) (eventType : ℕ) (payload : PyValue) (previousHash : Text)
    (building : ℕ) (t : WriteTuple)
    (h : authorizedWrite C now eventId eventType payload previousHash building = .ok t) :
    '|' ∉ t.canonicalPayload := by
  simp only [authorizedWrite, bind_eq_ok, liftCanonical_eq_ok, orRaise_eq_ok, pure_eq_ok] at h
  obtain ⟨f, hf, bytes, hbytes, text, htext, rfl⟩ := h
  have hvalid : validatePayload C.unicode eventType payload = .ok () := by
    simp only [platformIdentity, bind_eq_ok] at hf
    obtain ⟨_, hvalid, _⟩ := hf
    exact hvalid
  obtain ⟨j, hj, hpayload⟩ := (platformIdentity_eq_ok C _ _ _ _ _ _ f hf).normalized
  have hnormal := normalize_spec C.unicode payload j hj
  have hsorted := Normal.of_denote_eq C.unicode j (Json.sortKeys j) hnormal
    (Json.plain_sortKeys j hnormal.plain) (Json.denote_sortKeys j hnormal.plain)
  obtain ⟨k, hk, _, rfl⟩ := canonicalBytes_eq_ok C.unicode _ bytes hbytes
  rw [hpayload, normalize_ofJson C.unicode _ hsorted] at hk
  obtain rfl := Except.ok.inj hk
  have hread : Utf8.decode (encodeUtf8 (Json.dumps (Json.sortKeys j))).data.toList =
      some (Json.dumps (Json.sortKeys j)) := Utf8.decode_encode _
  rw [hread] at htext
  obtain rfl := Option.some.inj htext
  have hwithout := without_of_valid C.unicode hnfc eventType payload j hvalid hj
  exact Json.notMem_render (by decide) _
    (Json.without_sortKeys '|' _ (Json.without_sortKeys '|' j hwithout))

/-! ## Collisions -/

/-- Two byte strings with one digest. -/
def Collides (sha256 : Bytes → Bytes) (x y : Bytes) : Prop := x ≠ y ∧ sha256 x = sha256 y

/-- Two messages with one authorization collide, inside or outside. -/
theorem collides_of_authorization (sha256 : Bytes → Bytes) (secret : Text)
    (t u : WriteTuple)
    (h : platformWriteAuthorization sha256 secret t.parts =
      platformWriteAuthorization sha256 secret u.parts)
    (hmessage : platformWriteMessage t.parts ≠ platformWriteMessage u.parts) :
    Collides sha256 (utf8Bytes secret ++ utf8Bytes (platformWriteMessage t.parts))
        (utf8Bytes secret ++ utf8Bytes (platformWriteMessage u.parts)) ∨
      Collides sha256
        (utf8Bytes secret ++
          sha256 (utf8Bytes secret ++ utf8Bytes (platformWriteMessage t.parts)))
        (utf8Bytes secret ++
          sha256 (utf8Bytes secret ++ utf8Bytes (platformWriteMessage u.parts))) := by
  have houter := byteText_injective _ _ h
  by_cases hinner : sha256 (utf8Bytes secret ++ utf8Bytes (platformWriteMessage t.parts)) =
      sha256 (utf8Bytes secret ++ utf8Bytes (platformWriteMessage u.parts))
  · refine .inl ⟨fun hsame => hmessage ?_, hinner⟩
    exact utf8Bytes_injective _ _ (List.append_cancel_left hsame)
  · exact .inr ⟨fun hsame => hinner (List.append_cancel_left hsame), houter⟩

/-! ## The authorization -/

/-- The row a tuple stands for, its payload as the column holds it. -/
def rowOf {J : Type} (t : WriteTuple) (payload : J) : InsertedRow J where
  eventId := t.eventId
  eventType := t.eventType
  payload := payload
  payloadHash := t.payloadHash
  previousHash := t.previousHash
  signature := t.signature
  signerAddress := t.signerAddress
  building := t.building

/-- What an insert that returns was given. -/
theorem evidenceInsert_eq_ok {J : Type} [DecidableEq J] (sha256 : Bytes → Bytes)
    (castJsonb : Text → Option J) (secret : Text) (p : InsertArguments J) (row : InsertedRow J)
    (h : evidenceInsertPlatformOutboxEvent sha256 castJsonb (some (utf8Bytes secret)) p = .ok row) :
    castJsonb p.canonicalPayload = some p.payload ∧
      p.authorization = platformWriteAuthorization sha256 secret p.tuple.parts ∧
      row = rowOf p.tuple p.payload := by
  simp only [evidenceInsertPlatformOutboxEvent, bind_eq_ok, orRaise_eq_ok, require_eq_ok,
    pure_eq_ok, Option.bind_some, recomputedAuthorization_eq, Option.some.injEq] at h
  obtain ⟨canonical, hcanonical, _, hpayload, _, hauthorization, rfl⟩ := h
  exact ⟨hcanonical.trans (congrArg some hpayload.symm), hauthorization, rfl⟩

/-- **An authorization is for one row.** The service and the procedure compute the same digest;
among the rows whose other values hold no separator, as every queued one's do, the message
determines them all, whatever the payload holds; and the procedure inserts under the
authorization of a queued row that row alone, unless SHA-256 has a collision at it. -/
theorem write_authorization_binds (sha256 : Bytes → Bytes) (secret : Text) :
    (∀ (J : Type) (p : InsertArguments J),
      recomputedAuthorization sha256 (utf8Bytes secret) p =
        some (platformWriteAuthorization sha256 secret p.tuple.parts)) ∧
    (∀ t u : WriteTuple, Separated t → Separated u →
      platformWriteMessage t.parts = platformWriteMessage u.parts → t = u) ∧
    (∀ now eventId eventType payload previousHash building t,
      authorizedWrite C now eventId eventType payload previousHash building = .ok t →
      Separated t ∧
      ∀ (J : Type) [DecidableEq J] (castJsonb : Text → Option J) (p : InsertArguments J)
        (row : InsertedRow J),
        (∀ s, '|' ∉ s → '|' ∉ C.unicode.nfc s) →
        p.authorization = platformWriteAuthorization sha256 secret t.parts →
        evidenceInsertPlatformOutboxEvent sha256 castJsonb (some (utf8Bytes secret)) p = .ok row →
        (∃ value, castJsonb t.canonicalPayload = some value ∧ row = rowOf t value) ∨
        Collides sha256 (utf8Bytes secret ++ utf8Bytes (platformWriteMessage t.parts))
          (utf8Bytes secret ++ utf8Bytes (platformWriteMessage p.tuple.parts)) ∨
        Collides sha256
          (utf8Bytes secret ++
            sha256 (utf8Bytes secret ++ utf8Bytes (platformWriteMessage t.parts)))
          (utf8Bytes secret ++
            sha256 (utf8Bytes secret ++ utf8Bytes (platformWriteMessage p.tuple.parts)))) := by
  refine ⟨fun J p => recomputedAuthorization_eq sha256 secret p,
    fun t u ht hu h => ht.message_injective hu h, ?_⟩
  intro now eventId eventType payload previousHash building t h
  have ht := separated_of_authorizedWrite C now eventId eventType payload previousHash building t h
  refine ⟨ht, ?_⟩
  intro J _ castJsonb p row hnfc hauthorization hinsert
  obtain ⟨hcast, hgiven, rfl⟩ := evidenceInsert_eq_ok sha256 castJsonb secret p row hinsert
  by_cases hmessage : platformWriteMessage t.parts = platformWriteMessage p.tuple.parts
  · have hpayload := separator_notMem_canonicalPayload C hnfc now eventId eventType payload
      previousHash building t h
    obtain rfl := ht.eq_of_message hpayload p.tuple hmessage
    exact .inl ⟨p.payload, hcast, rfl⟩
  · exact .inr (collides_of_authorization sha256 secret t p.tuple
      (hauthorization.symm.trans hgiven) hmessage)

/-- A settlement that is queued, its values without separators. -/
theorem write_authorization_binds_settlement :
    ∃ t, authorizedWrite sampleConfig 0 ('0' :: 'x' :: List.replicate 64 'a') settlementType
        (datedPayload "2024".toList) ('0' :: 'x' :: List.replicate 64 '0') 1 = .ok t ∧
      Separated t := by
  have hsome : (authorizedWrite sampleConfig 0 ('0' :: 'x' :: List.replicate 64 'a')
      settlementType (datedPayload "2024".toList) ('0' :: 'x' :: List.replicate 64 '0')
      1).toOption.isSome = true := by decide +kernel
  obtain ⟨t, ht⟩ := Option.isSome_iff_exists.mp hsome
  have hok := eq_ok_of_toOption _ t ht
  exact ⟨t, hok, ((write_authorization_binds sampleConfig id []).2.2 _ _ _ _ _ _ t hok).1⟩

end LamTo.Analysis
