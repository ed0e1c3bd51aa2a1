import LamTo.Analysis.PublishedEvidence

/-!
# Evidence of tampering and the recorded result

The check of a published entry reads three sources: the stored documents, the events' own
rows, and the chain. Its loop over the documents keeps one result, which every document that
does not verify overwrites; so a document that cannot be read hides a difference found before
it, and hides whatever the rows and the chain say. The recorded result is a mismatch exactly
when every document that cannot be read is followed by one that differs.

SOURCE: src/lamto/finance/integrity.py:85-334
-/

set_option autoImplicit false

namespace LamTo.Analysis

open LamTo.Library LamTo.Model

variable {C : EvidenceConfig} {db : Db} {storage : Storage} {chain : ChainAccess}

/-! ## Documents -/

/-- The document can be read. -/
def Readable (C : EvidenceConfig) (storage : Storage) (c : DocumentCheck) : Prop :=
  ∃ actual, streamSha256 C storage c.documentVersion = .ok actual

/-- The document was read, and its hash is not the stored or not the expected one. -/
def Differs (C : EvidenceConfig) (storage : Storage) (c : DocumentCheck) : Prop :=
  ∃ actual, streamSha256 C storage c.documentVersion = .ok actual ∧
    (actual ≠ c.row.sha256 ∨ pyEq (.str actual) c.expected = false)

/-- The document was read, and its hash is the stored and the expected one. -/
def Intact (C : EvidenceConfig) (storage : Storage) (c : DocumentCheck) : Prop :=
  Readable C storage c ∧ ¬ Differs C storage c

/-- The result of one document says which of the three it is. -/
theorem documentItem_result (C : EvidenceConfig) (storage : Storage) (c : DocumentCheck) :
    ((documentItem C storage c).result = .unavailable ∧ ¬ Readable C storage c) ∨
    ((documentItem C storage c).result = .mismatch ∧ Differs C storage c) ∨
    ((documentItem C storage c).result = .verified ∧ Intact C storage c) := by
  unfold documentItem
  split
  · next text htext =>
    refine .inl ⟨rfl, ?_⟩
    rintro ⟨actual, hactual⟩
    cases htext.symm.trans hactual
  · next actual hactual =>
    dsimp only
    split
    · next hdiffers => exact .inr (.inl ⟨rfl, actual, hactual, hdiffers⟩)
    · next hsame =>
      refine .inr (.inr ⟨rfl, ⟨actual, hactual⟩, ?_⟩)
      rintro ⟨actual', hactual', hdiffers⟩
      cases hactual.symm.trans hactual'
      exact hsame hdiffers

theorem Differs.readable (c : DocumentCheck) (h : Differs C storage c) : Readable C storage c := by
  obtain ⟨actual, hactual, _⟩ := h
  exact ⟨actual, hactual⟩

/-- Every document that cannot be read is followed by one that differs. -/
def Overruled (C : EvidenceConfig) (storage : Storage) : List DocumentCheck → Prop
  | [] => True
  | c :: checks => (¬ Readable C storage c → ∃ d ∈ checks, Differs C storage d) ∧
      Overruled C storage checks

theorem overruled_of_readable (checks : List DocumentCheck)
    (h : ∀ c ∈ checks, Readable C storage c) : Overruled C storage checks := by
  induction checks with
  | nil => trivial
  | cons c checks ih =>
    obtain ⟨hc, hchecks⟩ := List.forall_mem_cons.mp h
    exact ⟨fun hnot => absurd hc hnot, ih hchecks⟩

/-- Where no document differs, none overrules. -/
theorem Overruled.readable (checks : List DocumentCheck) (h : Overruled C storage checks)
    (hsame : ∀ c ∈ checks, ¬ Differs C storage c) : ∀ c ∈ checks, Readable C storage c := by
  induction checks with
  | nil => exact fun _ hc => absurd hc List.not_mem_nil
  | cons c checks ih =>
    obtain ⟨_, hsame⟩ := List.forall_mem_cons.mp hsame
    refine List.forall_mem_cons.mpr ⟨?_, ih h.2 hsame⟩
    by_contra hnot
    obtain ⟨d, hd, hdiffers⟩ := h.1 hnot
    exact hsame d hd hdiffers

theorem not_overruled_concat (checks : List DocumentCheck) (c : DocumentCheck)
    (h : ¬ Readable C storage c) : ¬ Overruled C storage (checks ++ [c]) := by
  induction checks with
  | nil =>
    intro hover
    obtain ⟨d, hd, _⟩ := hover.1 h
    exact absurd hd List.not_mem_nil
  | cons d checks ih => exact fun hover => ih hover.2

/-- The loop ends without a document that hides the rest exactly when each is overruled. -/
theorem foldl_documentStep_unavailable (checks : List DocumentCheck) (s : DocumentLoop) :
    (checks.foldl (documentStep C storage) s).docResult = .unavailable ↔
      ¬ Overruled C storage checks ∨
        (s.docResult = .unavailable ∧ ∀ c ∈ checks, Intact C storage c) := by
  induction checks generalizing s with
  | nil => simp [Overruled]
  | cons c checks ih =>
    rw [List.foldl_cons, ih, List.forall_mem_cons, Overruled]
    rcases documentItem_result C storage c with ⟨hr, hc⟩ | ⟨hr, hc⟩ | ⟨hr, hc⟩
    · -- Not readable: what follows has to hold a difference.
      have hdoc : (documentStep C storage s c).docResult = .unavailable := by
        rw [documentStep, hr]
        rfl
      have hintact : ¬ Intact C storage c := fun h => hc h.1
      rw [hdoc]
      constructor
      · rintro (hover | ⟨_, hall⟩)
        · exact .inl fun h => hover h.2
        · refine .inl fun h => ?_
          obtain ⟨d, hd, hdiffers⟩ := h.1 hc
          exact (hall d hd).2 hdiffers
      · rintro (hover | ⟨_, h, _⟩)
        · by_cases hrest : Overruled C storage checks
          · have hsame : ∀ d ∈ checks, ¬ Differs C storage d := fun d hd hdiffers =>
              hover ⟨fun _ => ⟨d, hd, hdiffers⟩, hrest⟩
            exact .inr ⟨rfl, fun d hd => ⟨hrest.readable checks hsame d hd, hsame d hd⟩⟩
          · exact .inl hrest
        · exact absurd h hintact
    · have hdoc : (documentStep C storage s c).docResult = .mismatch := by
        rw [documentStep, hr]
        rfl
      have hread := hc.readable c
      have hintact : ¬ Intact C storage c := fun h => h.2 hc
      rw [hdoc]
      simp [hread, hintact]
    · have hdoc : (documentStep C storage s c).docResult = s.docResult := by
        rw [documentStep, hr]
        rfl
      have hread := hc.1
      rw [hdoc]
      simp [hread, hc]

theorem foldl_documentStep_verified (checks : List DocumentCheck) (s : DocumentLoop) :
    (checks.foldl (documentStep C storage) s).docResult = .verified ↔
      s.docResult = .verified ∧ ∀ c ∈ checks, Intact C storage c := by
  induction checks generalizing s with
  | nil => simp
  | cons c checks ih =>
    rw [List.foldl_cons, ih, List.forall_mem_cons]
    rcases documentItem_result C storage c with ⟨hr, hc⟩ | ⟨hr, hc⟩ | ⟨hr, hc⟩
    · have hintact : ¬ Intact C storage c := fun h => hc h.1
      simp [documentStep, hr, hintact]
    · have hintact : ¬ Intact C storage c := fun h => h.2 hc
      simp [documentStep, hr, hintact]
    · simp [documentStep, hr, hc]

theorem docResult_unavailable (checks : List DocumentCheck) :
    (documentLoop C storage checks).docResult = .unavailable ↔ ¬ Overruled C storage checks := by
  rw [documentLoop, foldl_documentStep_unavailable]
  simp

theorem docResult_verified (checks : List DocumentCheck) :
    (documentLoop C storage checks).docResult = .verified ↔
      ∀ c ∈ checks, Intact C storage c := by
  rw [documentLoop, foldl_documentStep_verified]
  simp

/-! ## Events -/

/-- The local check of the event is a mismatch. -/
def LocalMismatch (C : EvidenceConfig) (db : Db) (e : ℕ × OutboxEvent) : Prop :=
  ∃ check, checkLocalEvidence C db e.1 e.2.toIdentity = .ok check ∧ check.verified = false

/-- The chain was asked for the event and returned a record with another payload hash. -/
def ChainMismatch (chain : ChainAccess) (e : OutboxEvent) : Prop :=
  chain.backend = .besu ∧ e.status ≠ .localSettled ∧ ∃ answers, chain.client = .ok answers ∧
    ∃ record, answers e.toIdentity = .ok (some record) ∧
      removePrefix record.payloadHash ≠ removePrefix e.payloadHash

theorem checkLocalRecords_eq_ok (events : List (ℕ × OutboxEvent)) (ok : Bool)
    (checks : List LocalCheck) (h : checkLocalRecords C db events = .ok (ok, checks)) :
    ok = false ↔ ∃ e ∈ events, LocalMismatch C db e := by
  simp only [checkLocalRecords, bind_eq_ok, pure_eq_ok, Prod.mk.injEq] at h
  obtain ⟨checks', hmap, rfl, _⟩ := h
  rw [List.all_eq_false]
  constructor
  · rintro ⟨check, hcheck, hfalse⟩
    obtain ⟨e, he, hlocal⟩ := (mapM_eq_ok _ _ _ hmap).1 check hcheck
    exact ⟨e, he, check, hlocal, by simpa using hfalse⟩
  · rintro ⟨e, he, check, hlocal, hfalse⟩
    obtain ⟨check', hcheck', hlocal'⟩ := (mapM_eq_ok _ _ _ hmap).2 e he
    cases hlocal.symm.trans hlocal'
    exact ⟨check, hcheck', by simp [hfalse]⟩

/-- The local check of the event verifies it. -/
def LocalVerified (C : EvidenceConfig) (db : Db) (e : ℕ × OutboxEvent) : Prop :=
  ∃ check, checkLocalEvidence C db e.1 e.2.toIdentity = .ok check ∧ check.verified = true

theorem checkLocalRecords_verified (events : List (ℕ × OutboxEvent)) :
    (∃ locals, checkLocalRecords C db events = .ok (true, locals)) ↔
      ∀ e ∈ events, LocalVerified C db e := by
  constructor
  · rintro ⟨locals, hlocal⟩ e he
    have hok := checkLocalRecords_eq_ok events true locals hlocal
    simp only [checkLocalRecords, bind_eq_ok, pure_eq_ok, Prod.mk.injEq] at hlocal
    obtain ⟨checks, hmap, _, _⟩ := hlocal
    obtain ⟨check, _, hcheck⟩ := (mapM_eq_ok _ _ _ hmap).2 e he
    refine ⟨check, hcheck, ?_⟩
    by_contra hfalse
    exact absurd (hok.mpr ⟨e, he, check, hcheck, by simpa using hfalse⟩) (by decide)
  · intro h
    obtain ⟨checks, hmap⟩ := exists_mapM_ok (fun e => checkLocalEvidence C db e.1 e.2.toIdentity)
      events fun e he => by
        obtain ⟨check, hcheck, _⟩ := h e he
        exact ⟨check, hcheck⟩
    refine ⟨checks, ?_⟩
    simp only [checkLocalRecords, bind_eq_ok, pure_eq_ok, Prod.mk.injEq]
    refine ⟨checks, hmap, List.all_eq_true.mpr fun check hmem => ?_, rfl⟩
    obtain ⟨e, he, hcheck⟩ := (mapM_eq_ok _ _ _ hmap).1 check hmem
    obtain ⟨check', hcheck', hverified⟩ := h e he
    cases hcheck.symm.trans hcheck'
    exact hverified

theorem chainCheck_mismatch (answers : ChainAnswers) (e : OutboxEvent) :
    (chainCheck answers e).result = .mismatch ↔
      ∃ record, answers e.toIdentity = .ok (some record) ∧
        removePrefix record.payloadHash ≠ removePrefix e.payloadHash := by
  unfold chainCheck
  dsimp only
  split
  · next text htext => simp [htext]
  · next hnone => simp [hnone]
  · next record hrecord =>
    rw [hrecord]
    simp only [Except.ok.injEq, Option.some.injEq, exists_eq_left']
    split
    · next heq => simp [heq]
    · next hne => simp [hne]

/-- The chain contradicts the events together exactly when it contradicts one of them. -/
theorem chainOk_false (events : List OutboxEvent) :
    (checkChainRecords chain events).chainOk = some false ↔ ∃ e ∈ events, ChainMismatch chain e := by
  unfold checkChainRecords
  split
  · next hbackend => simp [ChainMismatch, hbackend]
  · next hbackend =>
    dsimp only
    split
    · next hnone =>
      have hlocal : ∀ e ∈ events, e.status = .localSettled := by
        simpa [List.filter_eq_nil_iff] using hnone
      simp only [reduceCtorEq, false_iff, not_exists, not_and]
      exact fun e he hmismatch => hmismatch.2.1 (hlocal e he)
    · split
      · next text hclient => simp [ChainMismatch, hclient]
      · next answers hclient =>
        have hany : ((events.filter fun e => e.status ≠ .localSettled).map
            (chainCheck answers)).any (fun c => c.result = .mismatch) = true ↔
              ∃ e ∈ events, ChainMismatch chain e := by
          simp only [List.any_map, List.any_filter, List.any_eq_true, Bool.and_eq_true,
            Function.comp_apply, decide_eq_true_eq, chainCheck_mismatch, ChainMismatch, hbackend,
            hclient, Except.ok.injEq, exists_eq_left', true_and]
        rw [← hany]
        split
        · next htrue => exact ⟨fun _ => htrue, fun _ => rfl⟩
        · next hfalse =>
          refine ⟨fun h => ?_, fun h => absurd h hfalse⟩
          split at h
          · cases h
          · cases h

/-! ## The recorded result -/

/-- The call returns and has recorded `result`. -/
def Observes (outcome : Except ServiceError (ℕ × Db)) (result : VerificationResult) : Prop :=
  ∃ observation db' o, outcome = .ok (observation, db') ∧
    db'.observations.get? observation = some o ∧ o.result = result

theorem observes_of_insert (db' : Db) (t : Table VerificationObservation)
    (result : VerificationResult) (h : ∃ o, db'.observations = t.insert o ∧ o.result = result) :
    Observes (.ok (t.next, db')) result := by
  obtain ⟨o, hinsert, hresult⟩ := h
  refine ⟨t.next, db', o, rfl, ?_, hresult⟩
  rw [hinsert, Table.get?_insert, if_pos rfl]

/-- The membership that settled exists and is active: the audit record of a mismatch is
written under it. -/
def PublisherActive (db : Db) (row : PublishedLedgerEntry) : Prop :=
  ∃ s m, db.settlements.get? row.settlement = some s ∧
    db.memberships.get? s.settledBy = some m ∧ m.active = true

/-- What the call decides, in terms of what it reads. -/
def Decides (C : EvidenceConfig) (db : Db) (storage : Storage) (chain : ChainAccess)
    (row : PublishedLedgerEntry) (checks : List DocumentCheck) (result : VerificationResult) :
    Prop :=
  ∃ events ok locals, relatedOutboxEvents db row.proposal = .ok events ∧
    checkLocalRecords C db events = .ok (ok, locals) ∧
    decideResult (documentLoop C storage checks).docResult ok
      (checkChainRecords chain (events.map Prod.snd)) (events.map Prod.snd) = result

/-- **The result is recorded** when the call decides on it and, for a mismatch, the audit
record can be written. -/
theorem observes_iff (now entry : ℕ) (row : PublishedLedgerEntry) (checks : List DocumentCheck)
    (result : VerificationResult) :
    Observes (verifyDocuments C db now entry storage chain row checks) result ↔
      Decides C db storage chain row checks result ∧
        (result = .mismatch → PublisherActive db row) := by
  constructor
  · rintro ⟨observation, db', o, hcall, hget, hresult⟩
    simp only [verifyDocuments, bind_eq_ok] at hcall
    obtain ⟨events, hevents, ⟨ok, locals⟩, hlocal, hcall⟩ := hcall
    split at hcall
    · next hmismatch =>
      simp only [recordAudit, bind_eq_ok, getRow_eq_ok, require_eq_ok, pure_eq_ok,
        Prod.mk.injEq] at hcall
      obtain ⟨s, hs, m, hm, _, ⟨_, haudit, rfl⟩, rfl, rfl⟩ := hcall
      rw [Table.get?_insert, if_pos rfl] at hget
      cases hget
      refine ⟨⟨events, ok, locals, hevents, hlocal, hresult⟩, fun _ => ⟨s, m, hs, hm, ?_⟩⟩
      rw [hm] at haudit
      simpa using haudit
    · next hother =>
      simp only [pure_eq_ok, Prod.mk.injEq] at hcall
      obtain ⟨rfl, rfl⟩ := hcall
      rw [Table.get?_insert, if_pos rfl] at hget
      cases hget
      refine ⟨⟨events, ok, locals, hevents, hlocal, hresult⟩, fun hmismatch => ?_⟩
      exact absurd (hresult.trans hmismatch) hother
  · rintro ⟨⟨events, ok, locals, hevents, hlocal, rfl⟩, hpublisher⟩
    simp only [verifyDocuments, hevents, hlocal, ok_bind]
    split
    · next hmismatch =>
      obtain ⟨s, m, hs, hm, hactive⟩ := hpublisher hmismatch
      have hmember : ((db.memberships.get? s.settledBy).any fun n => n.user = m.user && n.active)
          = true := by
        rw [hm]
        simpa using hactive
      simp only [recordAudit, (getRow_eq_ok _ _ _ _).mpr hs, (getRow_eq_ok _ _ _ _).mpr hm, ok_bind,
        require_true _ _ hmember]
      exact observes_of_insert _ db.observations _ ⟨_, rfl, rfl⟩
    · exact observes_of_insert _ db.observations _ ⟨_, rfl, rfl⟩

/-! ## Tampering -/

/-- Evidence of tampering: a document differs, the local check of a related event is a
mismatch, or the chain returned another payload hash for one. -/
def Tampered (C : EvidenceConfig) (db : Db) (storage : Storage) (chain : ChainAccess)
    (row : PublishedLedgerEntry) (checks : List DocumentCheck) : Prop :=
  (∃ c ∈ checks, Differs C storage c) ∨
  ∃ events, relatedOutboxEvents db row.proposal = .ok events ∧
    ∃ e ∈ events, LocalMismatch C db e ∨ ChainMismatch chain e.2

theorem Tampered.perm (row : PublishedLedgerEntry) (checks order : List DocumentCheck)
    (h : Tampered C db storage chain row checks) (hperm : order.Perm checks) :
    Tampered C db storage chain row order := by
  rcases h with ⟨c, hc, hdiffers⟩ | hevents
  · exact .inl ⟨c, hperm.mem_iff.mpr hc, hdiffers⟩
  · exact .inr hevents

/-- The related events are there, and none of their local checks raises. -/
def Checkable (C : EvidenceConfig) (db : Db) (row : PublishedLedgerEntry) : Prop :=
  ∃ events result, relatedOutboxEvents db row.proposal = .ok events ∧
    checkLocalRecords C db events = .ok result

/-- **What hides evidence of tampering** from the decision: a document that cannot be read
and that no later one overrules. -/
theorem decides_mismatch_iff (row : PublishedLedgerEntry) (checks : List DocumentCheck)
    (h : Tampered C db storage chain row checks) :
    Decides C db storage chain row checks .mismatch ↔
      Overruled C storage checks ∧ Checkable C db row := by
  constructor
  · rintro ⟨events, ok, locals, hevents, hlocal, hdecide⟩
    refine ⟨?_, events, _, hevents, hlocal⟩
    by_contra hover
    rw [(docResult_unavailable checks).mpr hover] at hdecide
    cases hdecide
  · rintro ⟨hover, events, ⟨ok, locals⟩, hevents, hlocal⟩
    refine ⟨events, ok, locals, hevents, hlocal, ?_⟩
    cases hdoc : (documentLoop C storage checks).docResult with
    | mismatch => rfl
    | unavailable => exact absurd hover ((docResult_unavailable checks).mp hdoc)
    | verified =>
      have hintact := (docResult_verified checks).mp hdoc
      have hcontra : ok = false ∨
          (checkChainRecords chain (events.map Prod.snd)).chainOk = some false := by
        rcases h with ⟨c, hc, hdiffers⟩ | ⟨events', hevents', e, he, hmismatch⟩
        · exact absurd hdiffers (hintact c hc).2
        · cases hevents.symm.trans hevents'
          rcases hmismatch with hmismatch | hmismatch
          · exact .inl ((checkLocalRecords_eq_ok events ok locals hlocal).mpr ⟨e, he, hmismatch⟩)
          · exact .inr ((chainOk_false _).mpr ⟨e.2, List.mem_map_of_mem he, hmismatch⟩)
      rw [decideResult, if_pos hcontra]

theorem verifyPublishedEntry_eq (now entry : ℕ) (row : PublishedLedgerEntry)
    (checks : List DocumentCheck) (h : entryDocuments db entry = .ok (row, checks)) :
    verifyPublishedEntry C db now entry storage chain =
      verifyDocuments C db now entry storage chain row checks := by
  rw [verifyPublishedEntry, h, ok_bind]

theorem related_get (proposal : ℕ) (events : List (ℕ × OutboxEvent))
    (h : relatedOutboxEvents db proposal = .ok events) :
    ∀ e ∈ events, db.outbox.get? e.1 = some e.2 := by
  simp only [relatedOutboxEvents, bind_eq_ok] at h
  obtain ⟨_, _, hmap⟩ := h
  intro e he
  obtain ⟨pk, _, hpk⟩ := (mapM_eq_ok _ _ _ hmap).1 e he
  obtain ⟨row, hrow, rfl⟩ := (map_eq_ok _ _ _).mp hpk
  exact (getRow_eq_ok _ _ _ _).mp hrow

/-- In a reachable state the local check of every related event verifies it. -/
theorem EvidenceInv.related_verified (hinv : EvidenceInv C db) (proposal : ℕ)
    (events : List (ℕ × OutboxEvent)) (h : relatedOutboxEvents db proposal = .ok events) :
    ∀ e ∈ events, LocalVerified C db e := by
  intro e he
  have hget := related_get proposal events h e he
  obtain ⟨e', check, he', hcheck, hverified, _⟩ :=
    hinv.event_unaltered e.1 e.2.toIdentity (by rw [eventOf, hget]; rfl)
  cases hget.symm.trans he'
  exact ⟨check, hcheck, hverified⟩

theorem EvidenceInv.checkable (hinv : EvidenceInv C db) (row : PublishedLedgerEntry)
    (events : List (ℕ × OutboxEvent)) (h : relatedOutboxEvents db row.proposal = .ok events) :
    Checkable C db row := by
  obtain ⟨locals, hlocal⟩ := (checkLocalRecords_verified events).mpr (hinv.related_verified _ _ h)
  exact ⟨events, _, h, hlocal⟩

/-- **When evidence of tampering wins.** Where there is any, the check of a published entry
records a mismatch exactly when every document that cannot be read is followed by one that
differs, the local checks return, and the membership that settled is active. It does so in
every order of the documents exactly when all of them can be read.
SOURCE: integrity.py:240-334 -/
theorem tamper_evidence_wins (C : EvidenceConfig) (db : Db) (now entry : ℕ) (storage : Storage)
    (chain : ChainAccess) (row : PublishedLedgerEntry) (checks : List DocumentCheck)
    (hchecks : entryDocuments db entry = .ok (row, checks)) :
    ((Tampered C db storage chain row checks →
        Observes (verifyPublishedEntry C db now entry storage chain) .mismatch) ↔
      (Tampered C db storage chain row checks →
        Overruled C storage checks ∧ Checkable C db row ∧ PublisherActive db row)) ∧
    ((∀ order : List DocumentCheck, order.Perm checks → Tampered C db storage chain row order →
        Observes (verifyDocuments C db now entry storage chain row order) .mismatch) ↔
      (Tampered C db storage chain row checks →
        (∀ c ∈ checks, Readable C storage c) ∧ Checkable C db row ∧ PublisherActive db row)) := by
  have hobserves : ∀ order, Tampered C db storage chain row order →
      (Observes (verifyDocuments C db now entry storage chain row order) .mismatch ↔
        Overruled C storage order ∧ Checkable C db row ∧ PublisherActive db row) := by
    intro order htampered
    rw [observes_iff, decides_mismatch_iff row order htampered, and_assoc]
    simp
  constructor
  · rw [verifyPublishedEntry_eq now entry row checks hchecks]
    exact forall_congr' fun htampered => hobserves checks htampered
  · constructor
    · intro h htampered
      obtain ⟨_, hrest⟩ := (hobserves checks htampered).mp (h checks (.refl _) htampered)
      refine ⟨fun c hc => ?_, hrest⟩
      -- A document that cannot be read, put last, is overruled by none.
      by_contra hnot
      obtain ⟨before, after, rfl⟩ := List.append_of_mem hc
      have hperm : (before ++ after ++ [c]).Perm (before ++ c :: after) :=
        (List.perm_append_singleton c _).trans List.perm_middle.symm
      have hlast := htampered.perm row _ _ hperm
      exact not_overruled_concat _ c hnot ((hobserves _ hlast).mp (h _ hperm hlast)).1
    · intro h order hperm htampered
      obtain ⟨hread, hrest⟩ := h (htampered.perm row _ _ hperm.symm)
      refine (hobserves order htampered).mpr ⟨overruled_of_readable order fun c hc => ?_, hrest⟩
      exact hread c (hperm.mem_iff.mp hc)

/-! ## An altered quotation and an unreadable proof -/

/-- Anchoring is off. -/
def disabledChain : ChainAccess := ⟨.disabled, .error []⟩

/-- The quotation is another byte than it was; the proof of payment is as `proof` says. -/
def alteredStorage (proof : Except Text ByteArray) : Storage :=
  fun pk => if pk = 1 then .ok ⟨#[9]⟩ else proof

/-- The published entry of the sample state. -/
theorem SampleFacts.entryDocuments_eq (h : SampleFacts db) :
    ∃ row q t, entryDocuments db 1 = .ok (row, [q, t]) ∧ row.proposal = 1 ∧ row.settlement = 1 ∧
      (q.documentVersion = 1 ∧ q.row.sha256 = byteHash 1 ∧
        pyEq (.str q.row.sha256) q.expected = true) ∧
      (t.documentVersion = 2 ∧ t.row.sha256 = byteHash 2 ∧
        pyEq (.str t.row.sha256) t.expected = true) := by
  have hentry := h.entry
  have hdocuments := h.documents
  cases hcall : entryDocuments db 1 with
  | error e =>
    rw [hcall] at hentry
    cases hentry
  | ok r =>
    obtain ⟨row, checks⟩ := r
    rw [hcall] at hentry hdocuments
    have hrow : (row.proposal, row.settlement) = (1, 1) := Option.some.inj hentry
    have hchecks := Option.some.inj hdocuments
    obtain ⟨q, rest, rfl, hq, hrest⟩ := List.map_eq_cons_iff.mp hchecks
    obtain ⟨t, rest', rfl, ht, hrest'⟩ := List.map_eq_cons_iff.mp hrest
    obtain rfl := List.map_eq_nil_iff.mp hrest'
    simp only [Prod.mk.injEq] at hrow hq ht
    exact ⟨row, q, t, rfl, hrow.1, hrow.2, hq, ht⟩

theorem SampleFacts.publisherActive (h : SampleFacts db) (row : PublishedLedgerEntry)
    (hrow : row.settlement = 1) : PublisherActive db row := by
  obtain ⟨s, hs, hpair⟩ := Option.map_eq_some_iff.mp h.settlement
  obtain ⟨m, hm, hactive⟩ := (Option.any_eq_true _ _).mp h.membership
  refine ⟨s, m, by rw [hrow, hs], ?_, hactive⟩
  rw [(Prod.mk.inj hpair).2, hm]

theorem SampleFacts.related (h : SampleFacts db) : ∃ events, relatedOutboxEvents db 1 = .ok events := by
  have hevents := h.events
  cases hcall : relatedOutboxEvents db 1 with
  | error e =>
    rw [hcall] at hevents
    cases hevents
  | ok events => exact ⟨events, rfl⟩

theorem differs_altered (q : DocumentCheck) (proof : Except Text ByteArray)
    (hq : q.documentVersion = 1) (hhash : q.row.sha256 = byteHash 1) :
    Differs sampleConfig (alteredStorage proof) q := by
  refine ⟨byteHash 9, ?_, .inl ?_⟩
  · rw [hq]
    rfl
  · rw [hhash]
    decide +kernel

/-- The proof of payment can be read, so the altered quotation is recorded. -/
theorem tamper_evidence_wins_readable : ∃ db : Db, db.Reachable sampleConfig ∧
    Observes (verifyPublishedEntry sampleConfig db 8000 1 (alteredStorage (.ok ⟨#[2]⟩))
      disabledChain) .mismatch := by
  obtain ⟨db, hreach, hfacts⟩ := sample_reachable
  obtain ⟨row, q, t, hchecks, hproposal, hsettlement, ⟨hq, hhash, _⟩, ht, _⟩ :=
    hfacts.entryDocuments_eq
  obtain ⟨events, hevents⟩ := hfacts.related
  have hdiffers := differs_altered q (.ok ⟨#[2]⟩) hq hhash
  have hread : Readable sampleConfig (alteredStorage (.ok ⟨#[2]⟩)) t :=
    ⟨byteHash 2, by rw [ht]; rfl⟩
  refine ⟨db, hreach, (tamper_evidence_wins sampleConfig db 8000 1 _ disabledChain row [q, t]
    hchecks).1.mpr (fun _ => ⟨?_, ?_, ?_⟩) (.inl ⟨q, List.mem_cons_self, hdiffers⟩)⟩
  · refine overruled_of_readable _ fun c hc => ?_
    rcases List.mem_cons.mp hc with rfl | hc
    · exact hdiffers.readable
    · rw [List.mem_singleton.mp hc]
      exact hread
  · exact (EvidenceInv.reachable hreach).checkable row events (by rw [hproposal, hevents])
  · exact hfacts.publisherActive row hsettlement

/-- The proof of payment cannot be read, and the altered quotation is not recorded: the
result is UNAVAILABLE. -/
theorem tamper_evidence_hidden : ∃ (db : Db) (row : PublishedLedgerEntry)
    (checks : List DocumentCheck), db.Reachable sampleConfig ∧
    entryDocuments db 1 = .ok (row, checks) ∧
    Tampered sampleConfig db (alteredStorage (.error "Not found".toList)) disabledChain row checks ∧
    Observes (verifyPublishedEntry sampleConfig db 8000 1
      (alteredStorage (.error "Not found".toList)) disabledChain) .unavailable ∧
    ¬ Observes (verifyPublishedEntry sampleConfig db 8000 1
      (alteredStorage (.error "Not found".toList)) disabledChain) .mismatch := by
  obtain ⟨db, hreach, hfacts⟩ := sample_reachable
  obtain ⟨row, q, t, hchecks, hproposal, _, ⟨hq, hhash, _⟩, ht, _⟩ := hfacts.entryDocuments_eq
  obtain ⟨events, hevents⟩ := hfacts.related
  rw [← hproposal] at hevents
  have htampered : Tampered sampleConfig db (alteredStorage (.error "Not found".toList))
      disabledChain row [q, t] :=
    .inl ⟨q, List.mem_cons_self, differs_altered q _ hq hhash⟩
  have hnot : ¬ Readable sampleConfig (alteredStorage (.error "Not found".toList)) t := by
    rintro ⟨actual, hactual⟩
    rw [ht] at hactual
    cases hactual
  have hover : ¬ Overruled sampleConfig (alteredStorage (.error "Not found".toList)) [q, t] :=
    not_overruled_concat [q] t hnot
  refine ⟨db, row, [q, t], hreach, hchecks, htampered, ?_, ?_⟩
  · obtain ⟨locals, hlocal⟩ := (checkLocalRecords_verified events).mpr
      ((EvidenceInv.reachable hreach).related_verified _ _ hevents)
    rw [verifyPublishedEntry_eq 8000 1 row [q, t] hchecks, observes_iff]
    refine ⟨⟨events, true, locals, hevents, hlocal, ?_⟩, fun h => by cases h⟩
    rw [(docResult_unavailable _).mpr hover]
    rfl
  · rw [verifyPublishedEntry_eq 8000 1 row [q, t] hchecks, observes_iff,
      decides_mismatch_iff row _ htampered]
    exact fun h => hover h.1.1

end LamTo.Analysis
