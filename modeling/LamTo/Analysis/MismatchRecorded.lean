import LamTo.Analysis.PublishedEntries
import LamTo.Analysis.TamperEvidence

/-!
# Whether a detected mismatch is recorded

The observation of a check and the audit record of a mismatch are written in one
transaction. The audit record is attributed to the membership that settled the entry, and
`record_audit` refuses a membership that is not active: it raises, and the observation is
rolled back with it.

`observation_recorded_iff` gives the exact condition, for every database in which the check
reaches a result, and says that in every reachable state it does so for every published
entry.

SOURCE: src/lamto/finance/integrity.py:297-334, src/lamto/audit/services.py:8-41
-/

set_option autoImplicit false

namespace LamTo.Analysis

open LamTo.Library LamTo.Model

variable {C : EvidenceConfig} {db : Db} {storage : Storage} {chain : ChainAccess}

/-- The audit trail holds the record of a mismatch observation. -/
def MismatchAudited (db : Db) (entry observation : ℕ) : Prop :=
  ∃ pk e, db.audit.get? pk = some e ∧ e.action = "integrity.mismatch" ∧
    e.targetType = "PublishedLedgerEntry" ∧ e.targetId = entry ∧
    lookup "observation_id" e.metadata = some (.int observation)

/-- The call returns, has appended one observation with the result and, when that is a
mismatch, the audit trail holds it. -/
def Recorded (db : Db) (entry : ℕ) (result : VerificationResult)
    (outcome : Except ServiceError (ℕ × Db)) : Prop :=
  ∃ observation db' o, outcome = .ok (observation, db') ∧ observation = db.observations.next ∧
    db'.observations = db.observations.insert o ∧ o.publishedEntry = entry ∧ o.result = result ∧
    (result = .mismatch → MismatchAudited db' entry observation)

theorem Recorded.observes (entry : ℕ) (result : VerificationResult)
    (outcome : Except ServiceError (ℕ × Db)) (h : Recorded db entry result outcome) :
    Observes outcome result := by
  obtain ⟨observation, db', o, houtcome, rfl, hinsert, _, hresult, _⟩ := h
  rw [houtcome]
  exact observes_of_insert db' db.observations result ⟨o, hinsert, hresult⟩

/-- The result is recorded, with its audit record, when the membership that settled is active. -/
theorem recorded_of_decides (now entry : ℕ) (row : PublishedLedgerEntry)
    (checks : List DocumentCheck) (result : VerificationResult)
    (hdecides : Decides C db storage chain row checks result)
    (hpublisher : result = .mismatch → PublisherActive db row) :
    Recorded db entry result (verifyDocuments C db now entry storage chain row checks) := by
  obtain ⟨events, ok, locals, hevents, hlocal, rfl⟩ := hdecides
  simp only [verifyDocuments, hevents, hlocal, ok_bind]
  split
  · next hmismatch =>
    obtain ⟨s, m, hs, hm, hactive⟩ := hpublisher hmismatch
    have hmember : ((db.memberships.get? s.settledBy).any fun n => n.user = m.user && n.active)
        = true := by
      rw [hm]
      simpa using hactive
    simp only [recordAudit, (getRow_eq_ok _ _ _ _).mpr hs, (getRow_eq_ok _ _ _ _).mpr hm, ok_bind,
      require_true _ _ hmember]
    refine ⟨_, _, _, rfl, rfl, rfl, rfl, rfl, fun _ => ?_⟩
    exact ⟨_, _, Table.get?_insert_self _ _, rfl, rfl, rfl, rfl⟩
  · next hother =>
    exact ⟨_, _, _, rfl, rfl, rfl, rfl, rfl, fun hmismatch => absurd hmismatch hother⟩

/-- **When a result is recorded.** A check that reaches a result appends exactly one
observation with it, and for a mismatch the audit record, if and only if the result is no
mismatch or the membership that settled the entry is still active. In every reachable state
the check of every published entry reaches a result, whatever the storage and the chain
answer. SOURCE: integrity.py:297-334 -/
theorem observation_recorded_iff (C : EvidenceConfig) (db : Db) (now entry : ℕ)
    (storage : Storage) (chain : ChainAccess) (row : PublishedLedgerEntry) :
    (∀ checks result, entryDocuments db entry = .ok (row, checks) →
      Decides C db storage chain row checks result →
        (Recorded db entry result (verifyPublishedEntry C db now entry storage chain) ↔
          (result = .mismatch → PublisherActive db row))) ∧
    (db.Reachable C → db.ledger.get? entry = some row →
      ∃ checks result, entryDocuments db entry = .ok (row, checks) ∧
        Decides C db storage chain row checks result) := by
  constructor
  · intro checks result hchecks hdecides
    rw [verifyPublishedEntry_eq now entry row checks hchecks]
    constructor
    · intro hrecorded
      exact ((observes_iff now entry row checks result).mp hrecorded.observes).2
    · exact recorded_of_decides now entry row checks result hdecides
  · intro hreach hrow
    have hinv := EntriesInv.reachable hreach
    obtain ⟨checks, hchecks⟩ := hinv.entryDocuments_of_published entry row hrow
    obtain ⟨events, hevents⟩ := hinv.related_of_published entry row hrow
    obtain ⟨_, ok, hrelated, hlocal⟩ := hinv.evidence.checkable row events hevents
    cases hevents.symm.trans hrelated
    exact ⟨checks, _, hchecks, events, _, _, hevents, hlocal, rfl⟩

/-! ## The settling member has left -/

/-- The state after the first membership is deactivated. -/
def memberLeft (db : Db) : Db :=
  { db with memberships := db.memberships.update 1 ({ · with active := false }) }

/-- The sample state with the quotation altered: the check decides on a mismatch. -/
theorem SampleFacts.decides_mismatch (h : SampleFacts db) (hreach : db.Reachable sampleConfig) :
    ∃ row checks, entryDocuments db 1 = .ok (row, checks) ∧ row.settlement = 1 ∧
      Decides sampleConfig db (alteredStorage (.ok ⟨#[2]⟩)) disabledChain row checks .mismatch := by
  obtain ⟨row, q, t, hchecks, hproposal, hsettlement, ⟨hq, hhash, _⟩, ht, _⟩ := h.entryDocuments_eq
  obtain ⟨events, hevents⟩ := h.related
  have hdiffers := differs_altered q (.ok ⟨#[2]⟩) hq hhash
  have hread : Readable sampleConfig (alteredStorage (.ok ⟨#[2]⟩)) t :=
    ⟨byteHash 2, by rw [ht]; rfl⟩
  have htampered : Tampered sampleConfig db (alteredStorage (.ok ⟨#[2]⟩)) disabledChain row [q, t] :=
    .inl ⟨q, List.mem_cons_self, hdiffers⟩
  refine ⟨row, [q, t], hchecks, hsettlement,
    (decides_mismatch_iff row [q, t] htampered).mpr ⟨?_, ?_⟩⟩
  · refine overruled_of_readable _ fun c hc => ?_
    rcases List.mem_cons.mp hc with rfl | hc
    · exact hdiffers.readable
    · rw [List.mem_singleton.mp hc]
      exact hread
  · exact (EvidenceInv.reachable hreach).checkable row events (by rw [hproposal, hevents])

/-- While the member that settled is active, the altered quotation is recorded. -/
theorem observation_recorded_sample : ∃ db : Db, db.Reachable sampleConfig ∧
    Recorded db 1 .mismatch (verifyPublishedEntry sampleConfig db 8000 1
      (alteredStorage (.ok ⟨#[2]⟩)) disabledChain) := by
  obtain ⟨db, hreach, hfacts⟩ := sample_reachable
  obtain ⟨row, checks, hchecks, hsettlement, hdecides⟩ := hfacts.decides_mismatch hreach
  have hiff := (observation_recorded_iff sampleConfig db 8000 1 (alteredStorage (.ok ⟨#[2]⟩))
    disabledChain row).1 checks .mismatch hchecks hdecides
  exact ⟨db, hreach, hiff.mpr fun _ => hfacts.publisherActive row hsettlement⟩

/-- Once that membership is deactivated the check of the same entry raises, and no
observation is left. -/
theorem mismatch_lost : ∃ (db : Db) (row : PublishedLedgerEntry) (checks : List DocumentCheck),
    db.Reachable sampleConfig ∧ entryDocuments db 1 = .ok (row, checks) ∧
    Decides sampleConfig db (alteredStorage (.ok ⟨#[2]⟩)) disabledChain row checks .mismatch ∧
    ∀ result, ¬ Recorded db 1 result (verifyPublishedEntry sampleConfig db 8000 1
      (alteredStorage (.ok ⟨#[2]⟩)) disabledChain) := by
  obtain ⟨db, hreach, hfacts⟩ := sample_reachable
  obtain ⟨row, checks, hchecks, hsettlement, hdecides⟩ := hfacts.decides_mismatch hreach
  have hleft : (memberLeft db).Reachable sampleConfig :=
    hreach.tail ⟨.setMembershipActive 1 false, trivial, rfl⟩
  -- The check reads no membership before it has decided.
  have hchecks' : entryDocuments (memberLeft db) 1 = .ok (row, checks) := hchecks
  refine ⟨memberLeft db, row, checks, hleft, hchecks', hdecides, fun result hrecorded => ?_⟩
  have hobserves := hrecorded.observes
  rw [verifyPublishedEntry_eq 8000 1 row checks hchecks', observes_iff] at hobserves
  obtain ⟨hother, hpublisher⟩ := hobserves
  obtain ⟨_, _, _, hevents, hlocal, hmismatch⟩ := hdecides
  obtain ⟨_, _, _, hevents', hlocal', hresult⟩ := hother
  cases hevents.symm.trans hevents'
  cases hlocal.symm.trans hlocal'
  obtain ⟨s, m, hs, hm, hactive⟩ := hpublisher (hresult.symm.trans hmismatch)
  obtain ⟨s', hs', hpair⟩ := Option.map_eq_some_iff.mp hfacts.settlement
  rw [hsettlement] at hs
  cases hs.symm.trans hs'
  rw [(Prod.mk.inj hpair).2, memberLeft, Table.get?_update_self] at hm
  obtain ⟨_, _, rfl⟩ := Option.map_eq_some_iff.mp hm
  cases hactive

end LamTo.Analysis
