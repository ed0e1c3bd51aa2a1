import LamTo.Analysis.FundConservation
import LamTo.Analysis.PayloadShapes
import LamTo.Analysis.SignatureForm
import Mathlib.Data.List.Dedup

/-!
# A completed proposal can be settled

`record_settlement` is one transaction of many guards: the member, the status, the proof of
payment, the signed payload, the outbox, the fund and the ledger. For a reachable state most of
them cannot fail. What is left to ask is collected in two structures.

* `Operational` is about the surroundings: a platform key, the shared write secret, and a
  `jsonb` column that takes what PostgreSQL takes.
* `SettlesWith` is about the arguments: an active manager, a clean proof of payment of the
  building, an event id that is new, and a free key of the fund's sequence.

`recordSettlement_accepts` goes through the transaction in its order, from the version the
proposal was finished with to the last line of the audit trail.

SOURCE: src/lamto/finance/settlements.py:17-65, fund.py:238-249, publication.py:21-75
-/

set_option autoImplicit false

namespace LamTo.Analysis

open LamTo.Library LamTo.Model

variable {C : EvidenceConfig} {db : Db}

/-! ## Guards that hold -/

/-- An active manager passes the membership test. -/
theorem requireManagement_of_active (building user : ℕ) (h : ActiveManager db building user) :
    ∃ pk m, requireManagement db user building = .ok (pk, m) ∧ db.memberships.get? pk = some m ∧
      m.user = user ∧ m.active = true := by
  obtain ⟨key, n, hn, hbuilding, hactive, huser⟩ := h
  cases hfirst : db.memberships.first? fun m =>
      m.user = user && m.building = building && m.active with
  | none =>
    have hfalse := (Table.first?_eq_none _ _).mp hfirst key n hn
    simp [hbuilding, hactive, huser] at hfalse
  | some r =>
    obtain ⟨pk, m⟩ := r
    have hok : requireManagement db user building = .ok (pk, m) := by
      rw [requireManagement, hfirst]
      rfl
    obtain ⟨hget, huser', _, hactive'⟩ := requireManagement_eq_ok _ _ _ _ _ hok
    exact ⟨pk, m, hok, hget, huser', hactive'⟩

/-- The audit trail takes the action of an active member. -/
theorem recordAudit_of_active (db : Db) (actor membership : ℕ) (m : Membership)
    (action targetType : String) (targetId : ℕ) (result : String) (metadata : List (Text × Json))
    (hm : db.memberships.get? membership = some m) (huser : m.user = actor)
    (hactive : m.active = true) :
    ∃ audit, recordAudit db actor membership action targetType targetId result metadata =
      .ok { db with audit } := by
  have hany :
      ((db.memberships.get? membership).any fun n => n.user = actor && n.active) = true := by
    rw [hm]
    simp [huser, hactive]
  rw [recordAudit, require_true _ _ hany]
  exact ⟨_, rfl⟩

theorem textColumn_of_short (column : String) (limit : Option ℕ) (t : Text) (hnul : nul ∉ t)
    (hlimit : limit.all (t.length ≤ ·) = true) : textColumn column limit t = .ok t := by
  rw [textColumn, require_true _ _ hnul, ok_bind, require_true _ _ hlimit]
  rfl

theorem positiveBigInt_of_pos (column constraint : String) (n : ℕ) (hpos : 0 < n)
    (hlt : n < 2 ^ 63) : positiveBigInt column constraint n = .ok n := by
  have hpos' : (0 : ℤ) < n := by exact_mod_cast hpos
  have hlt' : (n : ℤ) < 2 ^ 63 := by exact_mod_cast hlt
  rw [positiveBigInt, require_true _ _ hlt', ok_bind, require_true _ _ hpos', ok_bind,
    Int.toNat_natCast]
  rfl

/-! ## The surroundings -/

mutual
/-- No text of the value holds a NUL character. -/
def NulFree : Json → Prop
  | .str s => nul ∉ s
  | .arr xs => NulFreeItems xs
  | .obj ms => NulFreeMembers ms
  | .null => True
  | .bool _ => True
  | .int _ => True
  | .float _ => True
def NulFreeItems : List Json → Prop
  | [] => True
  | x :: xs => NulFree x ∧ NulFreeItems xs
def NulFreeMembers : List (Text × Json) → Prop
  | [] => True
  | (k, v) :: ms => nul ∉ k ∧ NulFree v ∧ NulFreeMembers ms
end

theorem nulFreeItems_iff (xs : List Json) : NulFreeItems xs ↔ ∀ x ∈ xs, NulFree x := by
  induction xs with
  | nil => simp [NulFreeItems]
  | cons x xs ih => simp [NulFreeItems, ih]

theorem nulFreeMembers_iff (ms : List (Text × Json)) :
    NulFreeMembers ms ↔ ∀ m ∈ ms, nul ∉ m.1 ∧ NulFree m.2 := by
  induction ms with
  | nil => simp [NulFreeMembers]
  | cons m ms ih =>
    obtain ⟨k, v⟩ := m
    simp [NulFreeMembers, ih, and_assoc]

/-- The surroundings of the services are in order: the platform key is configured, the database
shares the write secret, and a `jsonb` column takes every value without a NUL character. -/
structure Operational (C : EvidenceConfig) : Prop where
  platform : C.platform.isSome = true
  authorized : C.writeAuthorized = true
  jsonb : ∀ j, Json.Plain j → NulFree j → (C.jsonb.column j).isSome = true

/-- The arguments of a settlement are in order. -/
structure SettlesWith (db : Db) (building now proposal member : ℕ) (transfer : Option ℕ)
    (eventId : Text) : Prop where
  manager : ActiveManager db building member
  proof : ∃ pk v d, transfer = some pk ∧ db.documentVersions.get? pk = some v ∧
    db.documents.get? v.document = some d ∧ d.kind = .paymentProof ∧ d.building = building ∧
    v.clean = true
  event : isBytes32Text (lower eventId) = true
  event_new : ∀ pk e, db.outbox.get? pk = some e → e.eventId ≠ lower eventId
  time : (utcText now).isSome = true
  key : proposal < 2 ^ 63
  fundKey : db.fundEntryIds < 2 ^ 63
  fundKey_free : 0 < db.fundEntryIds ∧ ∀ r ∈ db.fundEntries.rows, r.1 ≠ db.fundEntryIds

/-! ## Queueing -/

theorem check_of_valid (f : IdentityFields) (h₁ : f.signerAddress ≠ [])
    (h₂ : isBytes32Text f.eventId = true) (h₃ : isHash64 f.payloadHash = true)
    (h₄ : isBytes32Text f.previousHash = true) (h₅ : 1 ≤ f.eventType ∧ f.eventType ≤ 11) :
    ∃ i, f.check = .ok i := by
  unfold IdentityFields.check
  rw [dif_neg h₁, dif_pos h₂, dif_pos h₃, dif_pos h₄, dif_pos h₅]
  exact ⟨_, rfl⟩

theorem platformSignEvidence_of_valid (P : Platform) (eventId : Text) (eventType : ℕ)
    (digest link : Text)
    (hevent : isBytes32Text eventId = true) (hdigest : isHash64 digest = true)
    (hlink : isBytes32Text link = true) (htype : 1 ≤ eventType ∧ eventType ≤ 11) :
    ∃ signature, platformSignEvidence (some P) eventId eventType ('0' :: 'x' :: digest) link =
      .ok signature := by
  have hprefixed : isBytes32Text ('0' :: 'x' :: digest) = true :=
    (isBytes32Text_iff _).mpr ⟨digest, rfl, hdigest⟩
  have hlength := P.length_signTypedData eventId eventType ('0' :: 'x' :: digest) link
  have hcanonical := P.canonical_signTypedData eventId eventType ('0' :: 'x' :: digest) link
  have hnormal := normalizeSignature_of_canonical _ _ (raw_bare_byteText _)
    ((canonical_iff _ hlength).mp hcanonical)
  refine ⟨'0' :: 'x' :: byteText
    (P.signTypedData eventId eventType ('0' :: 'x' :: digest) link), ?_⟩
  have htake : ('0' :: 'x' :: digest).take 2 = ['0', 'x'] := rfl
  simp only [platformSignEvidence, htake, if_true, hevent, hprefixed, hlink, true_and,
    require_true _ _ htype, orRaise, ok_bind, hnormal]
  rfl

/-- The fields of a new event with a valid payload. -/
theorem platformIdentity_of_valid (P : Platform) (hP : C.platform = some P) (now : ℕ)
    (eventId : Text) (eventType : ℕ) (ms : List (Text × Json)) (link : Text) (building : ℕ)
    (hvalid : validatePayload C.unicode eventType (.ofJson (.obj ms)) = .ok ())
    (hnormal : Normal C.unicode (.obj ms)) (hevent : isBytes32Text (lower eventId) = true)
    (hlink : isBytes32Text link = true) (htype : 1 ≤ eventType ∧ eventType ≤ 11) :
    ∃ digest signature, isHash64 digest = true ∧
      platformIdentity C now eventId eventType (.ofJson (.obj ms)) link building =
        .ok ⟨lower eventId, eventType, Json.sortKeys (.obj ms), digest, link, signature, P.address,
          building, now⟩ := by
  have hnormalized := normalize_ofJson C.unicode _ hnormal
  have hbytes := canonicalBytes_of_normal C.unicode (.obj ms) hnormal trivial
  have hloads := loadsBytes_canonicalBytes C.unicode _ _ _ hbytes hnormalized
  -- The digest is taken of the value read back.
  have hagain := canonicalBytes_of_denote_eq C.unicode _ _ _ _ hbytes hnormalized
    (Json.plain_sortKeys _ hnormal.plain) (Json.denote_sortKeys _ hnormal.plain)
  have hhash := (payloadHash_eq_ok C.unicode C.hashing _ _).mpr ⟨_, hagain, rfl⟩
  have hdigest : isHash64 (C.hashing.sha256hex (encodeUtf8 (Json.dumps (.obj ms)))) = true :=
    (isHash64_iff _).mpr ⟨C.hashing.sha256hex_length _, C.hashing.sha256hex_digit _⟩
  obtain ⟨signature, hsignature⟩ := platformSignEvidence_of_valid P (lower eventId) eventType _ link
    hevent hdigest hlink htype
  have hboth : isBytes32Text (lower eventId) = true ∧ isBytes32Text link = true := ⟨hevent, hlink⟩
  refine ⟨_, signature, hdigest, ?_⟩
  simp only [platformIdentity, hvalid, lower_bytes32 link hlink, require_true _ _ hboth, hbytes,
    liftCanonical, hloads, orRaise, hhash, hP, hsignature, ok_bind]
  rfl

/-- **A new event with a valid payload is queued.** -/
theorem queuePlatformEvent_of_valid (hop : Operational C) (now : ℕ) (eventId : Text) (eventType : ℕ)
    (ms : List (Text × Json)) (link : Text) (building : ℕ) (rows : OutboxTable)
    (hvalid : validatePayload C.unicode eventType (.ofJson (.obj ms)) = .ok ())
    (hnormal : Normal C.unicode (.obj ms)) (hnul : NulFree (Json.sortKeys (.obj ms)))
    (hevent : isBytes32Text (lower eventId) = true) (hlink : isBytes32Text link = true)
    (hnew : ∀ pk e, rows.get? pk = some e → e.eventId ≠ lower eventId) :
    ∃ i, queuePlatformEvent C now eventId eventType (.ofJson (.obj ms)) link building rows =
      .ok (rows.next, rows.insert ⟨i, .fresh⟩) := by
  obtain ⟨P, hP⟩ := Option.isSome_iff_exists.mp hop.platform
  have htype : 1 ≤ eventType ∧ eventType ≤ 11 := by
    rcases validatePayload_eventType _ _ _ hvalid with rfl | rfl
    · decide
    · decide
  obtain ⟨digest, signature, hdigest, hidentity⟩ := platformIdentity_of_valid P hP now eventId
    eventType ms link building hvalid hnormal hevent hlink htype
  have hsorted := Json.plain_sortKeys _ hnormal.plain
  obtain ⟨stored, hstored⟩ := Option.isSome_iff_exists.mp (hop.jsonb _ hsorted hnul)
  have hfind : (rows.rows.find? fun r => r.2.eventId = lower eventId) = none := by
    rw [List.find?_eq_none]
    intro r hr
    have hne := hnew r.1 r.2 ((rows.get?_eq_some r.1 r.2).mpr hr)
    simp [hne]
  obtain ⟨i, hi⟩ := check_of_valid
    ⟨lower eventId, eventType, stored, digest, link, signature, P.address, building, now⟩
    P.address_ne hevent hdigest hlink htype
  refine ⟨i, ?_⟩
  simp only [queuePlatformEvent, hidentity, ok_bind, hfind, require_true _ _ hop.authorized,
    hstored, orRaise, hi]
  rfl

/-! ## The payload of a settlement -/

theorem ascii_of_hash64 (t : Text) (h : isHash64 t = true) : Ascii t :=
  fun c hc => ascii_of_lowerHex c (((isHash64_iff t).mp h).2 c hc)

theorem bare_settlementMembers (settlement : ℕ) (row : Settlement) (number : ℕ)
    (sha256 settledAt : Text) (hsha : Ascii sha256) (htime : Ascii settledAt) :
    ∀ m ∈ settlementMembers settlement row number sha256 settledAt, Bare m := by
  simp only [settlementMembers, List.forall_mem_cons, List.not_mem_nil, false_imp_iff, implies_true,
    and_true]
  exact ⟨bare_str _ _ (by decide) (ascii_of_all _ (by decide)), bare_int _ _ (by decide),
    bare_int _ _ (by decide), bare_int _ _ (by decide), bare_int _ _ (by decide),
    bare_str _ _ (by decide) hsha, bare_str _ _ (by decide) htime⟩

/-- An object of bare members without NUL characters keeps this when its keys are sorted. -/
theorem nulFree_sortKeys_of_bare (ms : List (Text × Json)) (hbare : ∀ m ∈ ms, Bare m)
    (h : ∀ m ∈ ms, nul ∉ m.1 ∧ NulFree m.2) : NulFree (Json.sortKeys (.obj ms)) := by
  have hsorted : Json.sortMembers ms = ms := by
    rw [Json.sortMembers_eq_map]
    refine (List.map_congr_left fun m hm => ?_).trans (List.map_id ms)
    obtain ⟨k, v⟩ := m
    rcases (hbare _ hm).2 with ⟨n, hn⟩ | ⟨t, ht, _⟩
    · dsimp only at hn
      subst hn
      rfl
    · dsimp only at ht
      subst ht
      rfl
  show NulFreeMembers _
  rw [nulFreeMembers_iff, hsorted]
  exact fun m hm => h m ((List.mem_insertionSort _).mp hm)

theorem nulFree_settlementMembers (settlement : ℕ) (row : Settlement) (number : ℕ)
    (sha256 settledAt : Text) (hsha : nul ∉ sha256) (htime : nul ∉ settledAt) :
    ∀ m ∈ settlementMembers settlement row number sha256 settledAt, nul ∉ m.1 ∧ NulFree m.2 := by
  simp only [settlementMembers, List.forall_mem_cons, List.not_mem_nil, false_imp_iff, implies_true,
    and_true]
  exact ⟨⟨by decide, by show nul ∉ "settlement.v2".toList; decide⟩, ⟨by decide, trivial⟩,
    ⟨by decide, trivial⟩, ⟨by decide, trivial⟩, ⟨by decide, trivial⟩, ⟨by decide, hsha⟩,
    ⟨by decide, htime⟩⟩

theorem nul_notMem_hash64 (t : Text) (h : isHash64 t = true) : nul ∉ t := by
  intro hmem
  exact absurd (((isHash64_iff t).mp h).2 nul hmem) (by decide)

theorem nul_notMem_utcRfc3339 (t : UtcTime) : nul ∉ utcRfc3339 t := by
  intro hmem
  rcases mem_utcRfc3339 t nul hmem with hdigit | hmark
  · exact absurd hdigit (by decide)
  · exact absurd hmark (by decide)

/-- **The evidence of a settlement is queued.** -/
theorem queueSettlement_of_valid (hop : Operational C) (now settlement : ℕ) (row : Settlement)
    (number : ℕ) (sha256 : Text) (t : UtcTime) (eventId link : Text) (building : ℕ)
    (rows : OutboxTable) (hsettlement : 0 < settlement) (hproposal : 0 < row.proposal)
    (hnumber : 0 < number) (hsha : isHash64 sha256 = true)
    (hevent : isBytes32Text (lower eventId) = true) (hlink : isBytes32Text link = true)
    (hnew : ∀ pk e, rows.get? pk = some e → e.eventId ≠ lower eventId) :
    ∃ i, queuePlatformEvent C now eventId settlementType
      (.ofJson (.obj (settlementMembers settlement row number sha256 (utcRfc3339 t)))) link building
      rows = .ok (rows.next, rows.insert ⟨i, .fresh⟩) := by
  have hbare := bare_settlementMembers settlement row number sha256 (utcRfc3339 t)
    (ascii_of_hash64 sha256 hsha) (ascii_utcRfc3339 t)
  have hnul := nulFree_settlementMembers settlement row number sha256 (utcRfc3339 t)
    (nul_notMem_hash64 sha256 hsha) (nul_notMem_utcRfc3339 t)
  refine queuePlatformEvent_of_valid hop now eventId settlementType _ link building rows ?_
    (normal_of_bare C.unicode _ (by simp only [settlementMembers, List.map]; decide) hbare)
    (nulFree_sortKeys_of_bare _ hbare hnul) hevent hlink hnew
  exact validatePayload_settlementMembers C.unicode settlement row number sha256 t hsettlement
    hproposal hnumber hsha

/-! ## The outflow -/

theorem outflowKey_short (proposal : ℕ) (h : proposal < 2 ^ 63) :
    nul ∉ outflowKey proposal ∧ (outflowKey proposal).length ≤ 128 := by
  constructor
  · intro hmem
    rcases List.mem_append.mp hmem with hword | hdigits
    · exact absurd hword (by decide)
    · have hdigit : nul.isDigit = true :=
        Nat.isDigit_of_mem_toDigits (by decide) (by decide) hdigits
      exact absurd hdigit (by decide)
  · have hlength : (decimal proposal).length ≤ 19 :=
      (Nat.length_toDigits_le_iff (by decide) (by decide)).mpr (by omega)
    unfold outflowKey
    rw [List.length_append]
    have hword : "OUTFLOW:proposal:".toList.length = 17 := by decide
    omega

/-- **A settlement is posted to the fund.** -/
theorem createSettlementOutflow_of_valid (db : Db) (s : Settlement) (p : Proposal)
    (hp : db.proposals.get? s.proposal = some p) (hpos : 0 < s.amountVnd)
    (hlt : s.amountVnd < 2 ^ 63) (hkey : s.proposal < 2 ^ 63) (hid : db.fundEntryIds < 2 ^ 63)
    (hfree : 0 < db.fundEntryIds ∧ ∀ r ∈ db.fundEntries.rows, r.1 ≠ db.fundEntryIds) :
    ∃ db', createSettlementOutflow db s = .ok db' := by
  obtain ⟨fund, funds, heq, _⟩ := getOrCreateFund_eq db p.building
  simp only [createSettlementOutflow, (getRow_eq_ok _ _ _ _).mpr hp, ok_bind, heq]
  split
  · exact ⟨_, rfl⟩
  · next hnone =>
    rw [Bool.not_eq_true] at hnone
    obtain ⟨hnul, hlength⟩ := outflowKey_short s.proposal hkey
    have hamount : -2 ^ 63 ≤ -(s.amountVnd : ℤ) ∧ -(s.amountVnd : ℤ) < 2 ^ 63 := by omega
    have hsign : EntryType.outflow.signOk (-(s.amountVnd : ℤ)) = true := by
      simp [EntryType.signOk]
      omega
    have hcolumn := textColumn_of_short "source_key" (some 128) _ hnul (decide_eq_true hlength)
    simp only [insertFundEntry, require_true _ _ hid, require_true _ _ hamount,
      require_true _ _ hsign, hcolumn, ok_bind, require_true _ _ hnone]
    exact ⟨_, dif_pos hfree⟩

/-! ## The ledger entry -/

/-- The documents of an entry are stored. -/
theorem collectDocumentChecks_rows (version : ProposalVersion) (s : Settlement)
    (checks : List DocumentCheck) (h : collectDocumentChecks db version s = .ok checks) :
    ∀ c ∈ checks, ∃ pk, db.documentVersions.get? pk = some c.row := by
  simp only [collectDocumentChecks, bind_eq_ok, getRow_eq_ok, pure_eq_ok] at h
  obtain ⟨items, _, quotations, hquotations, transfer, htransfer, rfl⟩ := h
  intro c hc
  rcases List.mem_append.mp hc with hquotation | hlast
  · obtain ⟨item, _, hitem⟩ := (mapM_eq_ok _ _ _ hquotations).1 c hquotation
    simp only [quotationCheck, bind_eq_ok, getRow_eq_ok, pure_eq_ok] at hitem
    obtain ⟨_, _, pk, _, row, hrow, _, _, rfl⟩ := hitem
    exact ⟨pk, hrow⟩
  · rw [List.mem_singleton.mp hlast]
    exact ⟨_, htransfer⟩

/-- What a resident is shown can be stored. -/
theorem residentPayload_storable (hop : Operational C) (proposal : ℕ) (row : Proposal)
    (version : ProposalVersion) (settlement : ℕ) (s : Settlement) (eventHash : Text)
    (hashes : List Text) (payload : Json) (hcontractor : nul ∉ version.contractorName)
    (hevent : nul ∉ eventHash) (hhashes : ∀ t ∈ hashes, nul ∉ t)
    (h : residentPayload db proposal row version settlement s eventHash hashes = .ok payload) :
    ∃ stored, C.jsonb.column payload = some stored := by
  simp only [residentPayload, bind_eq_ok, pure_eq_ok] at h
  obtain ⟨report, _, rfl⟩ := h
  have hkey : ∀ pk : Option ℕ, Json.Plain (keyJson pk) ∧ NulFree (keyJson pk) := by
    intro pk
    cases pk with
    | none => exact ⟨trivial, trivial⟩
    | some n => exact ⟨trivial, trivial⟩
  have hitems : Json.PlainElements (hashes.map .str) ∧ NulFreeItems (hashes.map .str) := by
    rw [Json.plainElements_iff, nulFreeItems_iff]
    constructor
    · intro x hx
      obtain ⟨t, _, rfl⟩ := List.mem_map.mp hx
      trivial
    · intro x hx
      obtain ⟨t, ht, rfl⟩ := List.mem_map.mp hx
      exact hhashes t ht
  refine Option.isSome_iff_exists.mp (hop.jsonb _ ?_ ?_)
  · refine ⟨by simp only [List.map]; decide, ?_⟩
    exact ⟨(hkey report).1, (hkey row.case).1, trivial, trivial, trivial, trivial, trivial,
      hitems.1, ⟨by simp only [List.map]; decide, trivial, trivial, trivial⟩, trivial⟩
  · refine ⟨by decide, (hkey report).2, by decide, (hkey row.case).2, by decide, trivial, by decide,
      trivial, by decide, trivial, by decide, trivial, by decide, hcontractor, by decide, hitems.2,
      by decide, ⟨by decide, trivial, by decide, hevent, trivial⟩, trivial⟩

/-- The report of a case is found. -/
theorem caseReportId_of_inv (hinv : CaseInv db) (pk : ℕ) (p : Proposal)
    (hp : db.proposals.get? pk = some p) : ∃ report, caseReportId db p.case = .ok report := by
  cases hcase : p.case with
  | none => exact ⟨none, rfl⟩
  | some case =>
    obtain ⟨c, hc, _⟩ := hinv.building pk p case hp hcase
    obtain ⟨d, hd⟩ := Option.isSome_iff_exists.mp (hinv.decision case c hc)
    refine ⟨some d.report, ?_⟩
    simp only [caseReportId, (getRow_eq_ok _ _ _ _).mpr hc, (getRow_eq_ok _ _ _ _).mpr hd, ok_bind]
    rfl

/-- **A settlement is published.** -/
theorem publishSettlementEntry_of_valid (hop : Operational C) (db : Db) (now settlement : ℕ)
    (s : Settlement) (event : ℕ) (e : OutboxEvent) (p : Proposal) (current : ℕ)
    (v : ProposalVersion) (checks : List DocumentCheck) (m : Membership)
    (hs : db.settlements.get? settlement = some s) (hevent : s.outboxEvent = some event)
    (he : db.outbox.get? event = some e) (hp : db.proposals.get? s.proposal = some p)
    (hcurrent : p.currentVersion = some current) (hv : db.versions.get? current = some v)
    (hcontractor : nul ∉ v.contractorName) (hamount : 0 < s.amountVnd ∧ s.amountVnd < 2 ^ 63)
    (hchecks : collectDocumentChecks db v s = .ok checks)
    (hdigest : ∀ pk v, db.documentVersions.get? pk = some v → isHash64 v.sha256 = true)
    (hreport : ∃ report, caseReportId db p.case = .ok report)
    (hnew : ∀ pk l, db.ledger.get? pk = some l → l.proposal ≠ s.proposal)
    (hm : db.memberships.get? s.settledBy = some m) (hactive : m.active = true) :
    ∃ db', publishSettlementEntry C db now settlement = .ok db' := by
  rw [publishSettlementEntry, (getRow_eq_ok _ _ _ _).mpr hs, ok_bind]
  split
  · exact ⟨_, rfl⟩
  · obtain ⟨report, hreport⟩ := hreport
    have hrows := collectDocumentChecks_rows v s checks hchecks
    have hhashes : ∀ t ∈ ((checks.map fun c => c.row.sha256).dedup.insertionSort
        fun a b => ¬ Json.textLt b a), nul ∉ t := by
      intro t ht
      rw [List.mem_insertionSort, List.mem_dedup] at ht
      obtain ⟨c, hc, rfl⟩ := List.mem_map.mp ht
      obtain ⟨pk, hpk⟩ := hrows c hc
      exact nul_notMem_hash64 _ (hdigest pk c.row hpk)
    have hpayload : ∃ payload, residentPayload db s.proposal p v settlement s e.payloadHash
        ((checks.map fun c => c.row.sha256).dedup.insertionSort fun a b => ¬ Json.textLt b a) =
          .ok payload := by
      rw [residentPayload, hreport]
      exact ⟨_, rfl⟩
    obtain ⟨payload, hpayload⟩ := hpayload
    obtain ⟨stored, hstored⟩ := residentPayload_storable hop s.proposal p v settlement s
      e.payloadHash _ payload hcontractor (nul_notMem_hash64 _ e.payloadHash_sha256) hhashes
      hpayload
    have hunpublished : db.ledger.any (fun l => l.proposal = s.proposal) = false := by
      rw [Table.any_eq_false]
      exact fun pk l hl => decide_eq_false (hnew pk l hl)
    have haudit := fun ledger => recordAudit_of_active { db with ledger } m.user s.settledBy m
      "ledger.published" "PublishedLedgerEntry" db.ledger.next "accepted" [] hm rfl hactive
    simp only [hevent, orRaise, ok_bind, (getRow_eq_ok _ _ _ _).mpr he,
      (getRow_eq_ok _ _ _ _).mpr hp, hcurrent, (getRow_eq_ok _ _ _ _).mpr hv, hchecks, hpayload,
      hstored, positiveBigInt_of_pos _ _ _ hamount.1 hamount.2, require_true _ _ hunpublished,
      (getRow_eq_ok _ _ _ _).mpr hm]
    obtain ⟨audit, haudit⟩ := haudit _
    exact ⟨_, haudit⟩

/-! ## The settlement -/

/-- The current version of a proposal that is no draft. -/
theorem exists_current (hchain : ChainInv db) (pk : ℕ) (p : Proposal)
    (hp : db.proposals.get? pk = some p) (hstatus : p.status ≠ .draft) :
    ∃ current v, p.currentVersion = some current ∧ db.versions.get? current = some v := by
  have hchained := hchain.chained pk p hp
  cases hlast : (versionsOf db pk).getLast? with
  | none =>
    have hempty := List.getLast?_eq_none_iff.mp hlast
    exact absurd (hchained.draft.mpr hempty) hstatus
  | some r =>
    obtain ⟨current, v⟩ := r
    refine ⟨current, v, ?_, ?_⟩
    · rw [hchained.current, hlast]
      rfl
    · exact ((Table.mem_select _ _ current v).mp (List.mem_of_getLast? hlast)).1

/-- The evidence of a version names a hash. -/
theorem exists_anchoredHash (hown : Ownership db) (pk : ℕ) (v : ProposalVersion)
    (hv : db.versions.get? pk = some v) :
    ∃ link, anchoredHash db v = .ok link ∧ isBytes32Text link = true := by
  obtain ⟨i, hi, _⟩ := hown.version_event pk v hv
  obtain ⟨e, he, _⟩ := Option.map_eq_some_iff.mp hi
  refine ⟨'0' :: 'x' :: e.payloadHash, ?_, ?_⟩
  · rw [anchoredHash, (getRow_eq_ok _ _ _ _).mpr he]
    rfl
  · exact (isBytes32Text_iff _).mpr ⟨e.payloadHash, rfl, e.payloadHash_sha256⟩

/-- The proof of a payment passes its test. -/
theorem requireProof_of_clean (original building : ℕ) (proof : DocumentVersion) (d : Document)
    (hproof : db.documentVersions.get? original = some proof)
    (hdocument : db.documents.get? proof.document = some d) (hkind : d.kind = .paymentProof)
    (hbuilding : d.building = building) (hclean : proof.clean = true) :
    requireProof db (some original) building = .ok (original, proof) := by
  have hall : d.kind = .paymentProof ∧ d.building = building ∧ proof.clean = true :=
    ⟨hkind, hbuilding, hclean⟩
  simp only [requireProof, orRaise, ok_bind, hproof, (getRow_eq_ok _ _ _ _).mpr hdocument,
    require_true _ _ hall]
  rfl

/-- The row of the first settlement of a proposal is stored. -/
theorem createSettlement_of_unsettled (now proposal amountVnd transfer settledBy : ℕ)
    (hamount : 0 < amountVnd ∧ amountVnd < 2 ^ 63)
    (hunsettled : db.settlements.any (fun s => s.proposal = proposal) = false) :
    createSettlement db now proposal amountVnd transfer settledBy =
      .ok (db.settlements.next, ⟨proposal, amountVnd, transfer, settledBy, now, none⟩,
        { db with settlements :=
            db.settlements.insert ⟨proposal, amountVnd, transfer, settledBy, now, none⟩ }) := by
  rw [createSettlement, positiveBigInt_of_pos _ _ _ hamount.1 hamount.2, ok_bind,
    require_true _ _ hunsettled]
  rfl

/-- The payload of a settlement, from the rows. -/
theorem buildSettlementEvidencePayload_of_rows (db : Db) (settlement : ℕ) (row : Settlement)
    (p : Proposal) (current : ℕ) (v : ProposalVersion) (proof : DocumentVersion) (settledAt : Text)
    (hp : db.proposals.get? row.proposal = some p) (hcurrent : p.currentVersion = some current)
    (hv : db.versions.get? current = some v)
    (hproof : db.documentVersions.get? row.transfer = some proof)
    (htime : utcText row.settledAt = some settledAt) :
    buildSettlementEvidencePayload db settlement row =
      .ok (.obj (settlementMembers settlement row v.number proof.sha256 settledAt)) := by
  rw [buildSettlementEvidencePayload, (getRow_eq_ok _ _ _ _).mpr hp, ok_bind, hcurrent, orRaise,
    ok_bind, (getRow_eq_ok _ _ _ _).mpr hv, ok_bind, (getRow_eq_ok _ _ _ _).mpr hproof, ok_bind,
    htime, orRaise, ok_bind]
  rfl

/-- The event of a settlement is stored in its row when no other settlement has it. -/
theorem saveSettlementEvent_of_unused (db : Db) (settlement event : ℕ)
    (hunused : ∀ pk s, db.settlements.get? pk = some s → s.outboxEvent ≠ some event) :
    saveSettlementEvent db settlement event =
      .ok { db with settlements := db.settlements.update settlement fun s =>
        { s with outboxEvent := some event } } := by
  have hnone : db.settlements.any (fun s => s.outboxEvent = some event) = false := by
    rw [Table.any_eq_false]
    exact fun pk s hs => decide_eq_false (hunused pk s hs)
  rw [saveSettlementEvent, require_true _ _ hnone]
  rfl

/-- No settlement has the event that is queued next. -/
theorem settlement_event_ne (hown : Ownership db) (row : Settlement)
    (hrow : row.outboxEvent = none) :
    ∀ pk s, (db.settlements.insert row).get? pk = some s → s.outboxEvent ≠ some db.outbox.next := by
  intro pk s hs hevent
  rw [Table.get?_insert] at hs
  split at hs
  · cases hs
    rw [hrow] at hevent
    cases hevent
  · obtain ⟨event, i, hsome, hi, _⟩ := hown.settlement_event pk s hs
    rw [hsome] at hevent
    cases hevent
    rw [eventOf, Table.get?_next] at hi
    cases hi

/-- **A completed proposal without a settlement can be settled.** -/
theorem recordSettlement_accepts (hop : Operational C) (h : db.Reachable C)
    (now proposal member : ℕ) (transfer : Option ℕ) (eventId : Text) (p : Proposal)
    (hp : db.proposals.get? proposal = some p) (hstatus : p.status = .completed)
    (hunsettled : ∀ pk s, db.settlements.get? pk = some s → s.proposal ≠ proposal)
    (hargs : SettlesWith db p.building now proposal member transfer eventId) :
    ∃ pk db', recordSettlement C db now proposal member transfer eventId = .ok (pk, db') := by
  have hinv := EntriesInv.reachable h
  have hchain := hinv.evidence.chain
  obtain ⟨actor, m, hactor, hm, huser, hactive⟩ :=
    requireManagement_of_active p.building member hargs.manager
  have hnone : db.settlements.any (fun s => s.proposal = proposal) = false := by
    rw [Table.any_eq_false]
    exact fun pk s hs => decide_eq_false (hunsettled pk s hs)
  have hdraft : p.status ≠ .draft := by
    rw [hstatus]
    decide
  obtain ⟨current, v, hcurrent, hv⟩ := exists_current hchain proposal p hp hdraft
  have hrecorded := hinv.version current v hv
  obtain ⟨original, proof, d, rfl, hproof, hdocument, hkind, hbuilding, hclean⟩ := hargs.proof
  obtain ⟨link, hlink, hbytes⟩ := exists_anchoredHash hchain.ownership current v hv
  obtain ⟨settledAt, hsettledAt⟩ := Option.isSome_iff_exists.mp hargs.time
  obtain ⟨t, rfl⟩ := utcText_eq_some _ _ hsettledAt
  -- The row before its event is stored, and with it.
  let row : Settlement := ⟨proposal, v.amountVnd, original, actor, now, none⟩
  obtain ⟨i, hqueued⟩ := queueSettlement_of_valid hop now db.settlements.next row v.number
    proof.sha256 t eventId link p.building db.outbox db.settlements.next_pos
    (db.proposals.pos_of_get? _ _ hp)
    hrecorded.number (hinv.digest _ _ hproof) hargs.event hbytes hargs.event_new
  have hproof' := requireProof_of_clean original p.building proof d hproof hdocument hkind hbuilding
    hclean
  have hcreated := createSettlement_of_unsettled now proposal v.amountVnd original actor
    hrecorded.amount hnone
  let db₁ : Db := { db with settlements := db.settlements.insert row }
  have hbuilt := buildSettlementEvidencePayload_of_rows db₁ db.settlements.next row p current
    v proof _ hp hcurrent hv hproof hsettledAt
  let db₂ : Db := { db₁ with outbox := db.outbox.insert ⟨i, .fresh⟩ }
  have hsaved := saveSettlementEvent_of_unused db₂ db.settlements.next db.outbox.next
    (settlement_event_ne hchain.ownership row rfl)
  let db₃ : Db := { db₂ with settlements := db₂.settlements.update db.settlements.next fun s =>
    { s with outboxEvent := some db.outbox.next } }
  obtain ⟨db₄, houtflow⟩ := createSettlementOutflow_of_valid db₃ row p hp hrecorded.amount.1
    hrecorded.amount.2 hargs.key hargs.fundKey hargs.fundKey_free
  obtain ⟨_, _, funds, fundEntries, fundEntryIds, _, _, _, rfl⟩ :=
    createSettlementOutflow_eq_ok _ _ _ houtflow
  let db₄ : Db := { db₃ with funds, fundEntries, fundEntryIds }
  have hnewest : db₄.settlements.get? db.settlements.next =
      some { row with outboxEvent := some db.outbox.next } := by
    show ((db.settlements.insert row).update _ _).get? _ = _
    rw [Table.get?_update_self, Table.get?_insert_self]
    rfl
  obtain ⟨checks, hchecks⟩ := hinv.documents_found current v
    { row with outboxEvent := some db.outbox.next } proof hv hproof
  have hpublished := publishSettlementEntry_of_valid hop db₄ now db.settlements.next _
    db.outbox.next ⟨i, .fresh⟩ p current v checks m hnewest rfl (Table.get?_insert_self _ _) hp
    hcurrent hv hrecorded.contractor hrecorded.amount hchecks hinv.digest
    (caseReportId_of_inv (CaseInv.reachable C db h) proposal p hp)
    (fun pk l hl => by
      obtain ⟨s, _, hs, hsettled, _⟩ := hinv.entry pk l hl
      rw [← hsettled]
      exact hunsettled _ s hs) hm hactive
  obtain ⟨db₅, hpublished⟩ := hpublished
  obtain ⟨ledger, audit, _, rfl⟩ := publishSettlementEntry_eq_ok C _ _ _ _ _ p hnewest hp hpublished
  obtain ⟨final, haudit⟩ := recordAudit_of_active { db₄ with ledger, audit } member actor m
    "settlement.settled" "Settlement" db.settlements.next "accepted"
    [("event_id".toList, .str (lower eventId))] hm huser hactive
  refine ⟨db.settlements.next, { db₄ with ledger, audit := final }, ?_⟩
  unfold recordSettlement
  refine (bind_eq_ok _ _ _).mpr ⟨_, (getRow_eq_ok _ _ _ _).mpr hp, ?_⟩
  refine (bind_eq_ok _ _ _).mpr ⟨_, hactor, ?_⟩
  refine (bind_eq_ok _ _ _).mpr ⟨_, (require_eq_ok _ _ ()).mpr hstatus, ?_⟩
  refine (bind_eq_ok _ _ _).mpr ⟨_, (require_eq_ok _ _ ()).mpr hnone, ?_⟩
  refine (bind_eq_ok _ _ _).mpr ⟨_, (orRaise_eq_ok _ _ _).mpr hcurrent, ?_⟩
  refine (bind_eq_ok _ _ _).mpr ⟨_, (getRow_eq_ok _ _ _ _).mpr hv, ?_⟩
  refine (bind_eq_ok _ _ _).mpr ⟨_, hproof', ?_⟩
  refine (bind_eq_ok _ _ _).mpr ⟨_, hcreated, ?_⟩
  refine (bind_eq_ok _ _ _).mpr ⟨_, hbuilt, ?_⟩
  refine (bind_eq_ok _ _ _).mpr ⟨_, hlink, ?_⟩
  refine (bind_eq_ok _ _ _).mpr ⟨_, hqueued, ?_⟩
  refine (bind_eq_ok _ _ _).mpr ⟨_, hsaved, ?_⟩
  refine (bind_eq_ok _ _ _).mpr ⟨_, houtflow, ?_⟩
  refine (bind_eq_ok _ _ _).mpr ⟨_, hpublished, ?_⟩
  refine (bind_eq_ok _ _ _).mpr ⟨_, haudit, ?_⟩
  rfl

end LamTo.Analysis
