import LamTo.Analysis.Anchoring
import LamTo.Analysis.TamperEvidence

/-!
# Two comparisons with the chain

The worker compares a record of the chain with its event in four fields and marks the event
MISMATCH when one differs. The integrity check compares the payload hashes only, and does not
look at the status of the event. The two agree exactly where equal payload hashes mean equal
records.

SOURCE: src/lamto/finance/integrity.py:123-286, src/lamto/evidence/worker.py:72-80
-/

set_option autoImplicit false

namespace LamTo.Analysis

open LamTo.Library LamTo.Model

variable {C : EvidenceConfig} {db : Db} {storage : Storage} {chain : ChainAccess}

/-! ## One event -/

/-- The integrity check's comparison. -/
def SamePayload (record : ChainRecord) (e : Identity) : Prop :=
  removePrefix record.payloadHash = removePrefix e.payloadHash

/-- The fields the integrity check does not compare: the previous hash, the type and the
signer. -/
def SameLink (A : AddressCodec) (record : ChainRecord) (e : Identity) : Prop :=
  lower record.previousHash = lower e.previousHash ∧ record.eventType = e.eventType ∧
    ∃ signer, A.toChecksumAddress record.signer = some signer ∧
      A.toChecksumAddress e.signerAddress = some signer

/-- A payload hash that passes the integrity check passes the worker's. -/
theorem SamePayload.normalized (record : ChainRecord) (e : Identity) (h : SamePayload record e) :
    normalizePayloadHash record.payloadHash = normalizePayloadHash e.payloadHash := by
  have hhash := e.payloadHash_sha256
  rw [SamePayload, removePrefix, removePrefix, if_neg (take_two_ne_of_hash64 _ hhash)] at h
  rw [normalizePayloadHash_hash64 _ hhash]
  split at h
  · next hprefix =>
    have hrecord : record.payloadHash = '0' :: 'x' :: e.payloadHash := by
      rw [← List.take_append_drop 2 record.payloadHash, hprefix, h]
      rfl
    have hlower : lower record.payloadHash = '0' :: 'x' :: e.payloadHash := by
      rw [hrecord]
      exact lower_anchor e
    rw [normalizePayloadHash, hlower]
    rfl
  · rw [h]
    exact normalizePayloadHash_hash64 _ hhash

/-- **Where the payload hashes agree, the worker's comparison is about the rest.** -/
theorem recordMatchesEvent_iff_sameLink (A : AddressCodec) (record : ChainRecord) (e : Identity)
    (h : normalizePayloadHash record.payloadHash = normalizePayloadHash e.payloadHash) :
    recordMatchesEvent A record e = some true ↔ SameLink A record e := by
  unfold recordMatchesEvent SameLink
  constructor
  · intro hmatch
    split at hmatch
    · next hfields =>
      simp only [Option.bind_eq_bind, Option.bind_eq_some_iff, Option.some.injEq,
        decide_eq_true_eq] at hmatch
      obtain ⟨found, hfound, expected, hexpected, rfl⟩ := hmatch
      exact ⟨hfields.2.1, hfields.2.2, found, hfound, hexpected⟩
    · cases hmatch
  · rintro ⟨hprevious, htype, signer, hfound, hexpected⟩
    rw [if_pos ⟨h, hprevious, htype⟩, hfound, hexpected]
    simp

theorem chainCheck_verified (answers : ChainAnswers) (e : OutboxEvent) :
    (chainCheck answers e).result = .verified ↔
      ∃ record, answers e.toIdentity = .ok (some record) ∧ SamePayload record e.toIdentity := by
  unfold chainCheck SamePayload
  dsimp only
  split
  · next text htext => simp [htext]
  · next hnone => simp [hnone]
  · next record hrecord =>
    rw [hrecord]
    simp only [Except.ok.injEq, Option.some.injEq, exists_eq_left']
    split
    · next heq => simp [heq]
    · next hne => simp [hne]

theorem chainCheck_cases (answers : ChainAnswers) (e : OutboxEvent) :
    (chainCheck answers e).result = .mismatch ∨ (chainCheck answers e).result = .unavailable ∨
      (chainCheck answers e).result = .verified := by
  unfold chainCheck
  dsimp only
  split
  · exact .inr (.inl rfl)
  · exact .inr (.inl rfl)
  · split
    · exact .inr (.inr rfl)
    · exact .inl rfl

/-- The report holds a check of the event, and the check says VERIFIED. -/
def ReportedVerified (answers : ChainAnswers) (events : List OutboxEvent) (e : OutboxEvent) : Prop :=
  chainCheck answers e ∈ (checkChainRecords ⟨.besu, .ok answers⟩ events).checks ∧
    (chainCheck answers e).result = .verified

theorem checks_eq (answers : ChainAnswers) (events : List OutboxEvent) :
    (checkChainRecords ⟨.besu, .ok answers⟩ events).checks =
      (events.filter fun e => e.status = .localSettled).map (skippedCheck .skippedLocal) ++
        (events.filter fun e => e.status ≠ .localSettled).map (chainCheck answers) := by
  unfold checkChainRecords
  dsimp only
  split
  · next hnone => rw [hnone, List.map_nil, List.append_nil]
  · rfl

/-- An event is reported as verified when it was asked for and the payload hash is the same. -/
theorem reportedVerified_iff (answers : ChainAnswers) (events : List OutboxEvent) (e : OutboxEvent)
    (he : e ∈ events) (record : ChainRecord) (hrecord : answers e.toIdentity = .ok (some record)) :
    ReportedVerified answers events e ↔
      e.status ≠ .localSettled ∧ SamePayload record e.toIdentity := by
  rw [ReportedVerified, checks_eq, chainCheck_verified, hrecord, List.mem_append]
  simp only [Except.ok.injEq, Option.some.injEq, exists_eq_left']
  refine and_congr_left fun hsame => ?_
  constructor
  · rintro (hskipped | hasked)
    · -- A skipped check never says VERIFIED.
      obtain ⟨f, _, hf⟩ := List.mem_map.mp hskipped
      have hverified := (chainCheck_verified answers e).mpr ⟨record, hrecord, hsame⟩
      rw [← hf] at hverified
      cases hverified
    · obtain ⟨f, hf, heq⟩ := List.mem_map.mp hasked
      have hstatus : ∀ g : OutboxEvent, (chainCheck answers g).localStatus = g.status := by
        intro g
        unfold chainCheck
        dsimp only
        split <;> rfl
      have hfe : f.status = e.status := by rw [← hstatus f, heq, hstatus e]
      rw [← hfe]
      exact of_decide_eq_true (List.mem_filter.mp hf).2
  · intro hstatus
    exact .inr (List.mem_map_of_mem (List.mem_filter.mpr ⟨he, decide_eq_true hstatus⟩))

/-! ## The entry -/

/-- The chain answers for every event it is asked for, with the event's payload hash. -/
def Answered (chain : ChainAccess) (events : List OutboxEvent) : Prop :=
  chain.backend = .besu ∧ ∃ answers, chain.client = .ok answers ∧
    ∀ e ∈ events, e.status ≠ .localSettled →
      ∃ record, answers e.toIdentity = .ok (some record) ∧ SamePayload record e.toIdentity

theorem answered_iff (events : List OutboxEvent)
    (hasked : ∃ e ∈ events, e.status ≠ .localSettled) :
    ((checkChainRecords chain events).unavailable = false ∧
      (checkChainRecords chain events).chainOk ≠ some false) ↔ Answered chain events := by
  obtain ⟨e₀, he₀, hstatus₀⟩ := hasked
  unfold checkChainRecords
  split
  · next hbackend => simp [Answered, hbackend]
  · next hbackend =>
    dsimp only
    split
    · next hnone =>
      have hmem : e₀ ∈ events.filter fun e => e.status ≠ .localSettled :=
        List.mem_filter.mpr ⟨he₀, decide_eq_true hstatus₀⟩
      rw [hnone] at hmem
      exact absurd hmem List.not_mem_nil
    · split
      · next text hclient => simp [Answered, hclient]
      · next answers hclient =>
        have hall : Answered chain events ↔
            ∀ c ∈ (events.filter fun e => e.status ≠ .localSettled).map (chainCheck answers),
              c.result = .verified := by
          simp only [Answered, hbackend, hclient, true_and, Except.ok.injEq, exists_eq_left',
            List.forall_mem_map, List.mem_filter, decide_eq_true_eq, chainCheck_verified, and_imp]
        rw [hall]
        split
        · next hmismatch =>
          obtain ⟨c, hc, hresult⟩ := List.any_eq_true.mp hmismatch
          refine ⟨fun h => absurd rfl h.2, fun h => ?_⟩
          rw [h c hc] at hresult
          cases hresult
        · next hmismatch =>
          split
          · next hunavailable =>
            obtain ⟨c, hc, hresult⟩ := List.any_eq_true.mp hunavailable
            refine ⟨fun h => (Bool.noConfusion h.1), fun h => ?_⟩
            rw [h c hc] at hresult
            cases hresult
          · next hunavailable =>
            refine ⟨fun _ c hc => ?_, fun _ => ⟨rfl, by simp⟩⟩
            obtain ⟨e, _, rfl⟩ := List.mem_map.mp hc
            have hnot : (chainCheck answers e).result ≠ .mismatch := fun h =>
              hmismatch (List.any_eq_true.mpr ⟨_, hc, decide_eq_true h⟩)
            have hnot' : (chainCheck answers e).result ≠ .unavailable := fun h =>
              hunavailable (List.any_eq_true.mpr ⟨_, hc, decide_eq_true h⟩)
            exact ((chainCheck_cases answers e).resolve_left hnot).resolve_left hnot'

/-- **What it takes to verify an entry with a mismatching event**: everything else is in order,
and the chain answers with the payload hash of every event. -/
theorem decides_verified_iff (row : PublishedLedgerEntry) (checks : List DocumentCheck)
    (events : List (ℕ × OutboxEvent)) (hevents : relatedOutboxEvents db row.proposal = .ok events)
    (hmismatch : ∃ e ∈ events, e.2.status = .mismatch) :
    Decides C db storage chain row checks .verified ↔
      (∀ c ∈ checks, Intact C storage c) ∧ (∀ e ∈ events, LocalVerified C db e) ∧
        Answered chain (events.map Prod.snd) := by
  obtain ⟨e₀, he₀, hstatus₀⟩ := hmismatch
  have hasked : ∃ e ∈ events.map Prod.snd, e.status ≠ .localSettled :=
    ⟨e₀.2, List.mem_map_of_mem he₀, by rw [hstatus₀]; decide⟩
  have hunsettled : (events.map Prod.snd).all (fun e => e.status.isSettled) = false :=
    List.all_eq_false.mpr ⟨e₀.2, List.mem_map_of_mem he₀, by rw [hstatus₀]; decide⟩
  rw [← docResult_verified, ← checkLocalRecords_verified, ← answered_iff _ hasked]
  constructor
  · rintro ⟨events', ok, locals, hevents', hlocal, hdecide⟩
    cases hevents.symm.trans hevents'
    cases hdoc : (documentLoop C storage checks).docResult with
    | mismatch => rw [hdoc] at hdecide; cases hdecide
    | unavailable => rw [hdoc] at hdecide; cases hdecide
    | verified =>
      rw [hdoc, decideResult, hunsettled] at hdecide
      split at hdecide
      · cases hdecide
      · next hagrees =>
        rw [not_or] at hagrees
        split at hdecide
        · cases hdecide
        · next havailable =>
          refine ⟨rfl, ⟨locals, ?_⟩, by simpa using havailable, hagrees.2⟩
          rw [hlocal, Bool.of_not_eq_false hagrees.1]
  · rintro ⟨hdoc, ⟨locals, hlocal⟩, havailable, hchain⟩
    refine ⟨events, true, locals, hevents, hlocal, ?_⟩
    rw [hdoc, decideResult, if_neg (by simpa using hchain), havailable]
    rfl

/-- **When the integrity check agrees with the worker.** Both parts, that an event reported as
verified has a record the worker's comparison accepts and that an entry with a mismatching
event is never verified, hold exactly when every record found with the payload hash of its
event also has its previous hash, type and signer, and no entry with a mismatching event has
everything else in order. SOURCE: integrity.py:123-286, worker.py:72-80 -/
theorem chain_check_agrees_with_worker (C : EvidenceConfig) (A : AddressCodec) (db : Db)
    (now entry : ℕ) (storage : Storage) (chain : ChainAccess) (row : PublishedLedgerEntry)
    (checks : List DocumentCheck) (events : List (ℕ × OutboxEvent))
    (hchecks : entryDocuments db entry = .ok (row, checks))
    (hevents : relatedOutboxEvents db row.proposal = .ok events) :
    ((∀ answers, chain = ⟨.besu, .ok answers⟩ → ∀ e ∈ events.map Prod.snd, ∀ record,
        answers e.toIdentity = .ok (some record) →
        ReportedVerified answers (events.map Prod.snd) e →
        recordMatchesEvent A record e.toIdentity = some true) ∧
      ((∃ e ∈ events, e.2.status = .mismatch) →
        ¬ Observes (verifyPublishedEntry C db now entry storage chain) .verified)) ↔
    ((∀ answers, chain = ⟨.besu, .ok answers⟩ → ∀ e ∈ events.map Prod.snd, ∀ record,
        answers e.toIdentity = .ok (some record) → e.status ≠ .localSettled →
        SamePayload record e.toIdentity → SameLink A record e.toIdentity) ∧
      ((∃ e ∈ events, e.2.status = .mismatch) →
        ¬ ((∀ c ∈ checks, Intact C storage c) ∧ (∀ e ∈ events, LocalVerified C db e) ∧
          Answered chain (events.map Prod.snd)))) := by
  refine and_congr ?_ ?_
  · refine forall_congr' fun answers => forall_congr' fun _ => forall_congr' fun e =>
      forall_congr' fun he => forall_congr' fun record => forall_congr' fun hrecord => ?_
    rw [reportedVerified_iff answers _ e he record hrecord, and_imp]
    refine forall_congr' fun _ => forall_congr' fun hsame => ?_
    exact recordMatchesEvent_iff_sameLink A record e.toIdentity hsame.normalized
  · refine forall_congr' fun hmismatch => not_congr ?_
    rw [verifyPublishedEntry_eq now entry row checks hchecks, observes_iff,
      decides_verified_iff row checks events hevents hmismatch]
    simp

/-! ## A record of another signer -/

/-- The documents as they were uploaded. -/
def intactStorage : Storage := fun pk => .ok ⟨#[UInt8.ofNat pk]⟩

/-- A chain that holds the payload hash of every event, recorded by another signer. -/
def otherSigner : ChainAnswers := fun i =>
  .ok (some ⟨'0' :: 'x' :: i.payloadHash, i.previousHash, i.eventType,
    '0' :: 'x' :: lastDigit 40 '7', 9000⟩)

theorem samePayload_otherSigner (i : Identity) :
    ∃ record, otherSigner i = .ok (some record) ∧ SamePayload record i := by
  refine ⟨_, rfl, ?_⟩
  rw [SamePayload, removePrefix, removePrefix, if_neg (take_two_ne_of_hash64 _ i.payloadHash_sha256)]
  rfl

theorem SampleFacts.mismatching (h : SampleFacts db) (events : List (ℕ × OutboxEvent))
    (hevents : relatedOutboxEvents db 1 = .ok events) : ∃ e ∈ events,
      e.2.status = .mismatch ∧ e.2.signerAddress = '0' :: 'x' :: lastDigit 40 '5' := by
  have hfacts := h.events
  rw [hevents] at hfacts
  have hmem : (Status.mismatch, '0' :: 'x' :: (List.replicate 39 '0' ++ ['5'])) ∈
      events.map fun e => (e.2.status, e.2.signerAddress) := by
    rw [show events.map (fun e => (e.2.status, e.2.signerAddress)) = _ from Option.some.inj hfacts]
    simp
  obtain ⟨e, he, heq⟩ := List.mem_map.mp hmem
  exact ⟨e, he, (Prod.mk.inj heq).1, (Prod.mk.inj heq).2⟩

theorem intact_sample (pk : ℕ) (c : DocumentCheck) (hpk : c.documentVersion = pk)
    (hhash : c.row.sha256 = byteHash (UInt8.ofNat pk))
    (hexpected : pyEq (.str c.row.sha256) c.expected = true) :
    Intact sampleConfig intactStorage c := by
  have hread : streamSha256 sampleConfig intactStorage c.documentVersion = .ok c.row.sha256 := by
    rw [hpk, hhash]
    rfl
  refine ⟨⟨_, hread⟩, ?_⟩
  rintro ⟨actual, hactual, hdiffers⟩
  cases hread.symm.trans hactual
  rcases hdiffers with hne | hne
  · exact hne rfl
  · exact absurd (hexpected.symm.trans hne) (by decide)

/-- Without a chain to ask, the mismatching event keeps the entry from being verified. -/
theorem chain_check_agrees_with_worker_disabled : ∃ db : Db, db.Reachable sampleConfig ∧
    ¬ Observes (verifyPublishedEntry sampleConfig db 8000 1 intactStorage disabledChain)
      .verified := by
  obtain ⟨db, hreach, hfacts⟩ := sample_reachable
  obtain ⟨row, q, t, hchecks, hproposal, _⟩ := hfacts.entryDocuments_eq
  obtain ⟨events, hevents⟩ := hfacts.related
  obtain ⟨e, he, hstatus, _⟩ := hfacts.mismatching events hevents
  refine ⟨db, hreach, ((chain_check_agrees_with_worker sampleConfig digitCodec db 8000 1
    intactStorage disabledChain row [q, t] events hchecks (by rw [hproposal, hevents])).mpr
      ⟨fun _ h => (nomatch h), fun _ h => ?_⟩).2 ⟨e, he, hstatus⟩⟩
  cases h.2.2.1

/-- A chain that answers for every event with its payload hash verifies the sample entry, though
one of the events is marked as a mismatch. -/
theorem SampleFacts.observes_otherSigner (hfacts : SampleFacts db) (hreach : db.Reachable sampleConfig)
    (row : PublishedLedgerEntry) (q t : DocumentCheck) (events : List (ℕ × OutboxEvent))
    (hchecks : entryDocuments db 1 = .ok (row, [q, t]))
    (hevents : relatedOutboxEvents db row.proposal = .ok events) (hproposal : row.proposal = 1)
    (hq : Intact sampleConfig intactStorage q) (ht : Intact sampleConfig intactStorage t) :
    Observes (verifyPublishedEntry sampleConfig db 8000 1 intactStorage
      ⟨.besu, .ok otherSigner⟩) .verified := by
  obtain ⟨e, he, hstatus, -⟩ := hfacts.mismatching events (hproposal ▸ hevents)
  rw [verifyPublishedEntry_eq 8000 1 row [q, t] hchecks, observes_iff,
    decides_verified_iff row [q, t] events hevents ⟨e, he, hstatus⟩]
  refine ⟨⟨?_, (EvidenceInv.reachable hreach).related_verified _ _ hevents, rfl, otherSigner, rfl,
    fun f _ _ => samePayload_otherSigner f.toIdentity⟩, fun h => by cases h⟩
  intro c hc
  rcases List.mem_cons.mp hc with rfl | hc
  · exact hq
  · rw [List.mem_singleton.mp hc]
    exact ht

/-- The chain holds a record of another signer for every event. The worker's comparison fails
and one event is marked so; the integrity check verifies the event, and the entry. -/
theorem chain_check_accepts_other_signer : ∃ (db : Db) (row : PublishedLedgerEntry)
    (checks : List DocumentCheck) (events : List (ℕ × OutboxEvent)) (e : ℕ × OutboxEvent)
    (record : ChainRecord), db.Reachable sampleConfig ∧
    entryDocuments db 1 = .ok (row, checks) ∧ relatedOutboxEvents db row.proposal = .ok events ∧
    e ∈ events ∧ e.2.status = .mismatch ∧ otherSigner e.2.toIdentity = .ok (some record) ∧
    ReportedVerified otherSigner (events.map Prod.snd) e.2 ∧
    recordMatchesEvent digitCodec record e.2.toIdentity = some false ∧
    Observes (verifyPublishedEntry sampleConfig db 8000 1 intactStorage
      ⟨.besu, .ok otherSigner⟩) .verified := by
  obtain ⟨db, hreach, hfacts⟩ := sample_reachable
  obtain ⟨row, q, t, hchecks, hproposal, _, ⟨hq, hqhash, hqexpected⟩, ht, hthash, htexpected⟩ :=
    hfacts.entryDocuments_eq
  obtain ⟨events, hevents⟩ := hfacts.related
  obtain ⟨e, he, hstatus, hsigner⟩ := hfacts.mismatching events hevents
  rw [← hproposal] at hevents
  obtain ⟨record, hrecord, hsame⟩ := samePayload_otherSigner e.2.toIdentity
  refine ⟨db, row, [q, t], events, e, record, hreach, hchecks, hevents, he, hstatus, hrecord, ?_, ?_,
    ?_⟩
  · rw [reportedVerified_iff _ _ e.2 (List.mem_map_of_mem he) record hrecord]
    exact ⟨by rw [hstatus]; decide, hsame⟩
  · have hnormalized := hsame.normalized
    cases hrecord
    have hfound : digitCodec.toChecksumAddress ('0' :: 'x' :: lastDigit 40 '7') =
        some ('0' :: 'x' :: lastDigit 40 '7') := by decide
    have hexpected : digitCodec.toChecksumAddress ('0' :: 'x' :: lastDigit 40 '5') =
        some ('0' :: 'x' :: lastDigit 40 '5') := by decide
    rw [recordMatchesEvent, if_pos ⟨hnormalized, rfl, rfl⟩, hsigner, hfound, hexpected]
    decide
  · exact hfacts.observes_otherSigner hreach row q t events hchecks hevents hproposal
      (intact_sample 1 q hq hqhash hqexpected) (intact_sample 2 t ht hthash htexpected)

end LamTo.Analysis
