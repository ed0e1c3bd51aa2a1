import LamTo.Analysis.ChainAgreement
import LamTo.Model.ChainSteps

/-!
# When an explorer step overstates the evidence

The cascade has seven exits, and `readChainStep_eq_ok` lists them. Three of them let something
through:

* with anchoring disabled the step is LOCAL_SIGNED, whatever the stored status says;
* a record is compared by its payload hash only, so one with another previous hash, type or
  signer confirms the event;
* where the chain has no record the stored level is shown, which for a CONFIRMED event says
  that the chain has confirmed it.

Outside these the step never overstates: that is what the two parts of `NeverOverstates` come to.

SOURCE: src/lamto/explorer/views.py:94-183, src/lamto/evidence/worker.py:72-80
-/

set_option autoImplicit false

namespace LamTo.Analysis

open LamTo.Library LamTo.Model

/-! ## The exits -/

/-- The chain was asked about the event, and answered with a record. -/
def ChainReturned (chain : ChainAccess) (row : OutboxEvent) (record : ChainRecord) : Prop :=
  chain.backend ≠ .disabled ∧ row.status ≠ .localSettled ∧
    liveRecord chain row.toIdentity = .ok (some record)

/-- The explorer's comparison. -/
def SameShownPayload (record : ChainRecord) (row : OutboxEvent) : Prop :=
  lower (removePrefix record.payloadHash) = lower (removePrefix row.payloadHash)

variable {C : EvidenceConfig} {db : Db} {explorerUrl : Text} {chain : ChainAccess} {pk : ℕ}
  {row : OutboxEvent}

/-- The cascade is past its local exits: the chain is asked. -/
structure Asked (C : EvidenceConfig) (db : Db) (chain : ChainAccess) (pk : ℕ) (row : OutboxEvent) :
    Prop where
  verified : LocalVerified C db (pk, row)
  enabled : chain.backend ≠ .disabled
  anchored : row.status ≠ .localSettled
  unmarked : row.status ≠ .mismatch

/-- A step of the event with a level, without an unreachable chain. -/
def StepShows (explorerUrl : Text) (row : OutboxEvent) (level : EvidenceLevel)
    (result : ChainStep × Bool) : Prop :=
  (∃ time, result.1 = eventStep explorerUrl row level time) ∧ result.2 = false

theorem localVerified_iff (check : LocalCheck)
    (h : checkLocalEvidence C db pk row.toIdentity = .ok check) :
    LocalVerified C db (pk, row) ↔ check.verified = true := by
  constructor
  · rintro ⟨check', hcheck', hverified⟩
    cases h.symm.trans hcheck'
    exact hverified
  · intro hverified
    exact ⟨check, h, hverified⟩

/-- **The exits of the cascade**, one for each fact it looks at. -/
inductive Exit (C : EvidenceConfig) (db : Db) (explorerUrl : Text) (chain : ChainAccess) (pk : ℕ)
    (row : OutboxEvent) (result : ChainStep × Bool) : Prop where
  | altered (hlocal : ¬ LocalVerified C db (pk, row))
      (hshows : StepShows explorerUrl row .mismatch result)
  | unanchored (hlocal : LocalVerified C db (pk, row))
      (hoff : chain.backend = .disabled ∨ row.status = .localSettled)
      (hshows : StepShows explorerUrl row .localSigned result)
  | marked (henabled : chain.backend ≠ .disabled) (hstatus : row.status = .mismatch)
      (hshows : StepShows explorerUrl row .mismatch result)
  | unreachable (hasked : Asked C db chain pk row) (text : Text)
      (herror : liveRecord chain row.toIdentity = .error text) (hresult : result.2 = true)
  | unrecorded (hasked : Asked C db chain pk row)
      (hnone : liveRecord chain row.toIdentity = .ok none)
      (hshows : StepShows explorerUrl row row.status.evidenceLevel result)
  | differing (hasked : Asked C db chain pk row) (record : ChainRecord)
      (hrecord : liveRecord chain row.toIdentity = .ok (some record))
      (hdiffers : ¬ SameShownPayload record row)
      (hshows : StepShows explorerUrl row .mismatch result)
  | confirming (hasked : Asked C db chain pk row) (record : ChainRecord)
      (hrecord : liveRecord chain row.toIdentity = .ok (some record))
      (hsame : SameShownPayload record row)
      (hshows : StepShows explorerUrl row .chainConfirmed result)

theorem exit_of_readChainStep (result : ChainStep × Bool)
    (h : readChainStep C db explorerUrl chain (some (pk, row)) = .ok result) :
    Exit C db explorerUrl chain pk row result := by
  simp only [readChainStep, bind_eq_ok] at h
  obtain ⟨check, hcheck, h⟩ := h
  have hlocal := localVerified_iff check hcheck
  split at h
  · next hfails =>
    cases h
    exact .altered (fun hv => by rw [hlocal.mp hv] at hfails; cases hfails) ⟨⟨_, rfl⟩, rfl⟩
  next hholds =>
  have hverified : LocalVerified C db (pk, row) := hlocal.mpr (by simpa using hholds)
  split at h
  · next hoff =>
    cases h
    exact .unanchored hverified hoff ⟨⟨_, rfl⟩, rfl⟩
  next hon =>
  rw [not_or] at hon
  split at h
  · next hmarked =>
    cases h
    exact .marked hon.1 hmarked ⟨⟨_, rfl⟩, rfl⟩
  next hunmarked =>
  have hasked : Asked C db chain pk row := ⟨hverified, hon.1, hon.2, hunmarked⟩
  split at h
  · next text herror =>
    cases h
    exact .unreachable hasked text herror rfl
  · next hnone =>
    cases h
    exact .unrecorded hasked hnone ⟨⟨_, rfl⟩, rfl⟩
  · next record hrecord =>
    rw [bind_eq_ok] at h
    obtain ⟨time, -, h⟩ := h
    cases h
    by_cases hsame : lower (removePrefix record.payloadHash) = lower (removePrefix row.payloadHash)
    · refine .confirming hasked record hrecord hsame ⟨⟨time, ?_⟩, rfl⟩
      dsimp only
      rw [if_neg (not_not.mpr hsame)]
    · refine .differing hasked record hrecord hsame ⟨⟨time, ?_⟩, rfl⟩
      dsimp only
      rw [if_pos hsame]

/-- When the cascade returns: the local check does, and a record has a time that is a date. -/
theorem readChainStep_returns_iff :
    (∃ result, readChainStep C db explorerUrl chain (some (pk, row)) = .ok result) ↔
      (∃ check, checkLocalEvidence C db pk row.toIdentity = .ok check) ∧
        ∀ record, Asked C db chain pk row → liveRecord chain row.toIdentity = .ok (some record) →
          record.recordedAt < 253402300800 := by
  have htime : ∀ (record : ChainRecord) (stored : Option ℕ),
      (∃ time, recordTime record stored = .ok time) ↔ record.recordedAt < 253402300800 := by
    intro record stored
    unfold recordTime fromTimestamp
    by_cases hpositive : 0 < record.recordedAt
    · rw [if_pos hpositive]
      by_cases hlate : record.recordedAt < 253402300800
      · rw [if_pos hlate]
        exact ⟨fun _ => hlate, fun _ => ⟨_, rfl⟩⟩
      · rw [if_neg hlate]
        refine ⟨?_, fun h => absurd h hlate⟩
        rintro ⟨time, h⟩
        cases h
    · rw [if_neg hpositive]
      exact ⟨fun _ => by omega, fun _ => ⟨stored, rfl⟩⟩
  constructor
  · rintro ⟨result, h⟩
    simp only [readChainStep, bind_eq_ok] at h
    obtain ⟨check, hcheck, h⟩ := h
    refine ⟨⟨check, hcheck⟩, fun record hasked hrecord => ?_⟩
    rw [if_neg (by rw [(localVerified_iff check hcheck).mp hasked.verified]; decide),
      if_neg (not_or.mpr ⟨hasked.enabled, hasked.anchored⟩), if_neg hasked.unmarked, hrecord] at h
    obtain ⟨time, hrecordTime, -⟩ := (bind_eq_ok _ _ _).mp h
    exact (htime record _).mp ⟨time, hrecordTime⟩
  · rintro ⟨⟨check, hcheck⟩, hdates⟩
    simp only [readChainStep, hcheck, ok_bind]
    split
    · exact ⟨_, rfl⟩
    next hholds =>
    split
    · exact ⟨_, rfl⟩
    next hon =>
    split
    · exact ⟨_, rfl⟩
    next hunmarked =>
    split
    · exact ⟨_, rfl⟩
    · exact ⟨_, rfl⟩
    · next record hrecord =>
      rw [not_or] at hon
      have hasked : Asked C db chain pk row :=
        ⟨(localVerified_iff check hcheck).mpr (by simpa using hholds), hon.1, hon.2, hunmarked⟩
      obtain ⟨time, hrecordTime⟩ :=
        (htime record (storedConfirmation row)).mpr (hdates record hasked hrecord)
      rw [hrecordTime]
      exact ⟨_, rfl⟩

/-! ## The two comparisons -/

/-- A hash the explorer takes for the event's own is the event's own for the worker too. -/
theorem SameShownPayload.normalized {record : ChainRecord} (h : SameShownPayload record row) :
    normalizePayloadHash record.payloadHash = normalizePayloadHash row.payloadHash := by
  have hhash := row.payloadHash_sha256
  have hprefix := take_two_ne_of_hash64 _ hhash
  rw [SameShownPayload, removePrefix, removePrefix, if_neg hprefix, lower_hash64 _ hhash] at h
  rw [normalizePayloadHash_hash64 _ hhash]
  split at h
  · next hzero =>
    have hlower : lower record.payloadHash = '0' :: 'x' :: row.payloadHash := by
      rw [← List.take_append_drop 2 record.payloadHash, hzero, lower, List.map_append]
      exact congrArg _ h
    rw [normalizePayloadHash, hlower]
    rfl
  · rw [normalizePayloadHash, h, if_neg hprefix]

/-! ## What the step may say -/

/-- The step shows a mismatch wherever there is one, and a confirmation only where the chain
returned the event's record. -/
def NeverOverstates (C : EvidenceConfig) (A : AddressCodec) (db : Db) (chain : ChainAccess) (pk : ℕ)
    (row : OutboxEvent) (result : ChainStep × Bool) : Prop :=
  ((row.status = .mismatch ∨ ¬ LocalVerified C db (pk, row) ∨ ∃ record,
      ChainReturned chain row record ∧ recordMatchesEvent A record row.toIdentity ≠ some true) →
    result.1.evidenceLevel = .mismatch) ∧
  (result.1.evidenceLevel = .chainConfirmed → result.2 = false → ∃ record,
    ChainReturned chain row record ∧ recordMatchesEvent A record row.toIdentity = some true)

/-- None of the three gaps is open: an event marked as a mismatch is not shown with anchoring
disabled, a confirmed event has a record, and a record with the event's payload hash has the
rest of its identity. -/
def GapsClosed (C : EvidenceConfig) (A : AddressCodec) (db : Db) (chain : ChainAccess) (pk : ℕ)
    (row : OutboxEvent) : Prop :=
  (LocalVerified C db (pk, row) → row.status = .mismatch → chain.backend ≠ .disabled) ∧
  (Asked C db chain pk row → row.status = .confirmed →
    liveRecord chain row.toIdentity ≠ .ok none) ∧
  ∀ record, Asked C db chain pk row → liveRecord chain row.toIdentity = .ok (some record) →
    SameShownPayload record row → SameLink A record row.toIdentity

theorem StepShows.level_eq {level : EvidenceLevel} {result : ChainStep × Bool}
    (h : StepShows explorerUrl row level result) : result.1.evidenceLevel = level := by
  obtain ⟨⟨time, hstep⟩, -⟩ := h
  rw [hstep]
  rfl

/-- A mismatch is never too much. -/
theorem neverOverstates_of_mismatch (A : AddressCodec) (result : ChainStep × Bool)
    (h : result.1.evidenceLevel = .mismatch) : NeverOverstates C A db chain pk row result := by
  refine ⟨fun _ => h, fun hconfirmed => ?_⟩
  rw [h] at hconfirmed
  cases hconfirmed

theorem Asked.returned (h : Asked C db chain pk row) {record : ChainRecord}
    (hrecord : liveRecord chain row.toIdentity = .ok (some record)) :
    ChainReturned chain row record := ⟨h.enabled, h.anchored, hrecord⟩

theorem neverOverstates_iff (C : EvidenceConfig) (A : AddressCodec) (db : Db)
    (explorerUrl : Text) (chain : ChainAccess) (pk : ℕ) (row : OutboxEvent)
    (result : ChainStep × Bool)
    (h : readChainStep C db explorerUrl chain (some (pk, row)) = .ok result) :
    NeverOverstates C A db chain pk row result ↔ GapsClosed C A db chain pk row := by
  cases exit_of_readChainStep result h with
  | altered hlocal hshows =>
    refine iff_of_true (neverOverstates_of_mismatch A result hshows.level_eq) ⟨?_, ?_, ?_⟩
    · exact fun hverified => absurd hverified hlocal
    · exact fun hasked => absurd hasked.verified hlocal
    · exact fun _ hasked => absurd hasked.verified hlocal
  | unanchored hlocal hoff hshows =>
    have hlevel := hshows.level_eq
    have hnotAsked : ¬ Asked C db chain pk row := fun hasked =>
      hoff.elim hasked.enabled hasked.anchored
    have hnotReturned : ∀ record, ¬ ChainReturned chain row record := fun record hreturned =>
      hoff.elim hreturned.1 hreturned.2.1
    constructor
    · rintro ⟨hmismatch, -⟩
      refine ⟨fun _ hstatus => ?_, fun hasked => absurd hasked hnotAsked,
        fun _ hasked => absurd hasked hnotAsked⟩
      have hshown := hmismatch (Or.inl hstatus)
      rw [hlevel] at hshown
      cases hshown
    · rintro ⟨hmarked, -, -⟩
      refine ⟨?_, fun hconfirmed => ?_⟩
      · rintro (hstatus | hnot | ⟨record, hreturned, -⟩)
        · rcases hoff with hdisabled | hsettled
          · exact absurd hdisabled (hmarked hlocal hstatus)
          · rw [hsettled] at hstatus
            cases hstatus
        · exact absurd hlocal hnot
        · exact absurd hreturned (hnotReturned record)
      · rw [hlevel] at hconfirmed
        cases hconfirmed
  | marked henabled hstatus hshows =>
    refine iff_of_true (neverOverstates_of_mismatch A result hshows.level_eq) ⟨?_, ?_, ?_⟩
    · exact fun _ _ => henabled
    · exact fun hasked => absurd hstatus hasked.unmarked
    · exact fun _ hasked => absurd hstatus hasked.unmarked
  | unreachable hasked text herror hresult =>
    refine iff_of_true ⟨?_, fun _ hreached => ?_⟩ ⟨?_, ?_, ?_⟩
    · rintro (hstatus | hnot | ⟨record, hreturned, -⟩)
      · exact absurd hstatus hasked.unmarked
      · exact absurd hasked.verified hnot
      · cases herror.symm.trans hreturned.2.2
    · rw [hresult] at hreached
      cases hreached
    · exact fun _ hstatus => absurd hstatus hasked.unmarked
    · intro _ _ hnone
      cases herror.symm.trans hnone
    · intro record _ hrecord
      cases herror.symm.trans hrecord
  | unrecorded hasked hnone hshows =>
    have hlevel := hshows.level_eq
    have hnotReturned : ∀ record, ¬ ChainReturned chain row record := fun record hreturned => by
      cases hnone.symm.trans hreturned.2.2
    constructor
    · rintro ⟨-, hconfirmed⟩
      refine ⟨fun _ hstatus => absurd hstatus hasked.unmarked, fun _ hstatus => ?_,
        fun record _ hrecord => absurd (hasked.returned hrecord) (hnotReturned record)⟩
      obtain ⟨record, hreturned, -⟩ := hconfirmed (by rw [hlevel, hstatus]; rfl) hshows.2
      exact absurd hreturned (hnotReturned record)
    · rintro ⟨-, hunconfirmed, -⟩
      refine ⟨?_, fun hshown _ => ?_⟩
      · rintro (hstatus | hnot | ⟨record, hreturned, -⟩)
        · exact absurd hstatus hasked.unmarked
        · exact absurd hasked.verified hnot
        · exact absurd hreturned (hnotReturned record)
      · have hstatus : row.status = .confirmed := by
          rw [hlevel] at hshown
          cases hrow : row.status <;> rw [hrow] at hshown <;> first | rfl | cases hshown
        exact absurd hnone (hunconfirmed hasked hstatus)
  | differing hasked record hrecord hdiffers hshows =>
    refine iff_of_true (neverOverstates_of_mismatch A result hshows.level_eq) ⟨?_, ?_, ?_⟩
    · exact fun _ hstatus => absurd hstatus hasked.unmarked
    · intro _ _ hnone
      cases hrecord.symm.trans hnone
    · intro record' _ hrecord' hsame
      cases hrecord.symm.trans hrecord'
      exact absurd hsame hdiffers
  | confirming hasked record hrecord hsame hshows =>
    have hlevel := hshows.level_eq
    have hmatch := recordMatchesEvent_iff_sameLink A record row.toIdentity hsame.normalized
    constructor
    · rintro ⟨-, hconfirmed⟩
      obtain ⟨found, hreturned, hfound⟩ := hconfirmed hlevel hshows.2
      cases hrecord.symm.trans hreturned.2.2
      refine ⟨fun _ hstatus => absurd hstatus hasked.unmarked, fun _ _ hnone => ?_,
        fun other _ hother _ => ?_⟩
      · cases hrecord.symm.trans hnone
      · cases hrecord.symm.trans hother
        exact hmatch.mp hfound
    · rintro ⟨-, -, hlink⟩
      have hfound := hmatch.mpr (hlink record hasked hrecord hsame)
      refine ⟨?_, fun _ _ => ⟨record, hasked.returned hrecord, hfound⟩⟩
      rintro (hstatus | hnot | ⟨other, hreturned, hdiffers⟩)
      · exact absurd hstatus hasked.unmarked
      · exact absurd hasked.verified hnot
      · cases hrecord.symm.trans hreturned.2.2
        exact absurd hfound hdiffers

/-- **An explorer step overstates nothing exactly when the three gaps are closed.** The step
exists when the local check returns and the time of a record is a date. -/
theorem explorer_step_overstates_iff (C : EvidenceConfig) (A : AddressCodec) (db : Db)
    (explorerUrl : Text) (chain : ChainAccess) (pk : ℕ) (row : OutboxEvent) :
    ((∃ result, readChainStep C db explorerUrl chain (some (pk, row)) = .ok result) ↔
      (∃ check, checkLocalEvidence C db pk row.toIdentity = .ok check) ∧
        ∀ record, Asked C db chain pk row → liveRecord chain row.toIdentity = .ok (some record) →
          record.recordedAt < 253402300800) ∧
    ∀ result, readChainStep C db explorerUrl chain (some (pk, row)) = .ok result →
      (NeverOverstates C A db chain pk row result ↔ GapsClosed C A db chain pk row) :=
  ⟨readChainStep_returns_iff, neverOverstates_iff C A db explorerUrl chain pk row⟩

/-! ## Three steps of a run -/

/-- A chain that holds the record of every event, as its platform signed it. -/
def ownRecords : ChainAnswers := fun i =>
  .ok (some ⟨'0' :: 'x' :: i.payloadHash, i.previousHash, i.eventType, i.signerAddress, 9000⟩)

/-- A chain without records. -/
def noRecords : ChainAnswers := fun _ => .ok none

theorem sameShown_own (row : OutboxEvent) (record : ChainRecord)
    (h : record.payloadHash = '0' :: 'x' :: row.payloadHash) : SameShownPayload record row := by
  rw [SameShownPayload, h, removePrefix, removePrefix,
    if_neg (take_two_ne_of_hash64 _ row.payloadHash_sha256)]
  rfl

/-- The confirmed event of the sample, and the one marked as a mismatch. -/
theorem SampleFacts.confirmed_and_marked (h : SampleFacts db) (events : List (ℕ × OutboxEvent))
    (hevents : relatedOutboxEvents db 1 = .ok events) :
    ∃ confirmed ∈ events, ∃ marked ∈ events, confirmed.2.status = .confirmed ∧
      confirmed.2.signerAddress = '0' :: 'x' :: lastDigit 40 '5' ∧ marked.2.status = .mismatch := by
  have hfacts := h.events
  rw [hevents] at hfacts
  have hpairs := Option.some.inj hfacts
  have hmem : ∀ pair ∈ [(Status.confirmed, '0' :: 'x' :: lastDigit 40 '5'),
      (.mismatch, '0' :: 'x' :: lastDigit 40 '5'), (.pending, '0' :: 'x' :: lastDigit 40 '5')],
      ∃ e ∈ events, (e.2.status, e.2.signerAddress) = pair := by
    intro pair hpair
    have hin : pair ∈ events.map fun e => (e.2.status, e.2.signerAddress) := by
      rw [show events.map (fun e => (e.2.status, e.2.signerAddress)) = _ from hpairs]
      exact hpair
    exact List.mem_map.mp hin
  obtain ⟨confirmed, hconfirmed, hpair⟩ := hmem _ List.mem_cons_self
  obtain ⟨marked, hmarked, hpair'⟩ := hmem (.mismatch, '0' :: 'x' :: lastDigit 40 '5') (by simp)
  exact ⟨confirmed, hconfirmed, marked, hmarked, congrArg Prod.fst hpair,
    congrArg Prod.snd hpair, congrArg Prod.fst hpair'⟩

/-- The sample's event with its own record on the chain: confirmed, and rightly so. -/
theorem explorer_step_overstates_iff_own : ∃ (db : Db) (event : ℕ × OutboxEvent)
    (result : ChainStep × Bool), db.Reachable sampleConfig ∧
    readChainStep sampleConfig db [] ⟨.besu, .ok ownRecords⟩ (some event) = .ok result ∧
    result.1.evidenceLevel = .chainConfirmed ∧
    NeverOverstates sampleConfig digitCodec db ⟨.besu, .ok ownRecords⟩ event.1 event.2 result := by
  obtain ⟨db, hreach, hfacts⟩ := sample_reachable
  obtain ⟨events, hevents⟩ := hfacts.related
  obtain ⟨event, hmem, -, -, hstatus, hsigner, -⟩ := hfacts.confirmed_and_marked events hevents
  have hlocal := (EvidenceInv.reachable hreach).related_verified 1 events hevents event hmem
  have hasked : Asked sampleConfig db ⟨.besu, .ok ownRecords⟩ event.1 event.2 :=
    ⟨hlocal, fun h => (nomatch h), by rw [hstatus]; decide, by rw [hstatus]; decide⟩
  have htheorem := explorer_step_overstates_iff sampleConfig digitCodec db [] ⟨.besu, .ok ownRecords⟩
    event.1 event.2
  have hlink : SameLink digitCodec ⟨'0' :: 'x' :: event.2.payloadHash, event.2.previousHash,
      event.2.eventType, event.2.signerAddress, 9000⟩ event.2.toIdentity := by
    have hchecksum : digitCodec.toChecksumAddress ('0' :: 'x' :: lastDigit 40 '5') =
        some ('0' :: 'x' :: lastDigit 40 '5') := by decide
    exact ⟨rfl, rfl, _, hsigner ▸ hchecksum, hsigner ▸ hchecksum⟩
  obtain ⟨check, hcheck, -⟩ := hlocal
  obtain ⟨result, hresult⟩ := htheorem.1.mpr ⟨⟨check, hcheck⟩, fun record _ hrecord => by
    cases hrecord
    show 9000 < 253402300800
    omega⟩
  have hlevel : result.1.evidenceLevel = .chainConfirmed := by
    cases exit_of_readChainStep result hresult with
    | altered hnot => exact absurd hasked.verified hnot
    | unanchored _ hoff => exact absurd hoff (not_or.mpr ⟨hasked.enabled, hasked.anchored⟩)
    | marked _ hmarked => exact absurd hmarked hasked.unmarked
    | unreachable _ _ herror => cases herror
    | unrecorded _ hnone => cases hnone
    | differing _ record hrecord hdiffers =>
      cases hrecord
      exact absurd (sameShown_own event.2 _ rfl) hdiffers
    | confirming _ _ _ _ hshows => exact hshows.level_eq
  refine ⟨db, event, result, hreach, hresult, hlevel, (htheorem.2 result hresult).mpr ⟨?_, ?_, ?_⟩⟩
  · exact fun _ _ => hasked.enabled
  · intro _ _ hnone
    cases hnone
  · intro record _ hrecord _
    cases hrecord
    exact hlink

/-- The same run, three times: an event marked as a mismatch is shown as signed while anchoring is
disabled; a record of another signer confirms the confirmed event; and so does no record at
all. -/
theorem explorer_steps_overstate : ∃ (db : Db) (confirmed marked : ℕ × OutboxEvent)
    (off other none' : ChainStep × Bool), db.Reachable sampleConfig ∧
    (marked.2.status = .mismatch ∧
      readChainStep sampleConfig db [] disabledChain (some marked) = .ok off ∧
      ¬ NeverOverstates sampleConfig digitCodec db disabledChain marked.1 marked.2 off) ∧
    (readChainStep sampleConfig db [] ⟨.besu, .ok otherSigner⟩ (some confirmed) = .ok other ∧
      ¬ NeverOverstates sampleConfig digitCodec db ⟨.besu, .ok otherSigner⟩ confirmed.1 confirmed.2
        other) ∧
    (readChainStep sampleConfig db [] ⟨.besu, .ok noRecords⟩ (some confirmed) = .ok none' ∧
      ¬ NeverOverstates sampleConfig digitCodec db ⟨.besu, .ok noRecords⟩ confirmed.1 confirmed.2
        none') := by
  obtain ⟨db, hreach, hfacts⟩ := sample_reachable
  obtain ⟨events, hevents⟩ := hfacts.related
  obtain ⟨confirmed, hmem, marked, hmem', hstatus, hsigner, hstatus'⟩ :=
    hfacts.confirmed_and_marked events hevents
  have hlocal := (EvidenceInv.reachable hreach).related_verified 1 events hevents
  have hasked : ∀ answers, Asked sampleConfig db ⟨.besu, .ok answers⟩ confirmed.1 confirmed.2 :=
    fun answers => ⟨hlocal confirmed hmem, fun h => (nomatch h), by rw [hstatus]; decide,
      by rw [hstatus]; decide⟩
  obtain ⟨check, hcheck, -⟩ := hlocal confirmed hmem
  obtain ⟨check', hcheck', -⟩ := hlocal marked hmem'
  have hoff : ∃ off, readChainStep sampleConfig db [] disabledChain (some marked) = .ok off :=
    readChainStep_returns_iff.mpr ⟨⟨check', hcheck'⟩, fun _ h => absurd rfl h.enabled⟩
  have hother : ∃ other,
      readChainStep sampleConfig db [] ⟨.besu, .ok otherSigner⟩ (some confirmed) = .ok other := by
    refine readChainStep_returns_iff.mpr ⟨⟨check, hcheck⟩, fun record _ hrecord => ?_⟩
    cases hrecord
    show 9000 < 253402300800
    omega
  have hnone : ∃ none',
      readChainStep sampleConfig db [] ⟨.besu, .ok noRecords⟩ (some confirmed) = .ok none' :=
    readChainStep_returns_iff.mpr ⟨⟨check, hcheck⟩, fun record _ hrecord => by cases hrecord⟩
  obtain ⟨off, hoff⟩ := hoff
  obtain ⟨other, hother⟩ := hother
  obtain ⟨none', hnone⟩ := hnone
  refine ⟨db, confirmed, marked, off, other, none', hreach, ⟨hstatus', hoff, ?_⟩, ⟨hother, ?_⟩,
    ⟨hnone, ?_⟩⟩
  · rw [neverOverstates_iff _ _ _ _ _ _ _ _ hoff]
    exact fun hclosed => hclosed.1 (hlocal marked hmem') hstatus' rfl
  · rw [neverOverstates_iff _ _ _ _ _ _ _ _ hother]
    intro hclosed
    obtain ⟨-, -, signer, hfound, hexpected⟩ := hclosed.2.2 _ (hasked otherSigner) rfl
      (sameShown_own confirmed.2 _ rfl)
    have hseven : digitCodec.toChecksumAddress ('0' :: 'x' :: lastDigit 40 '7') =
        some ('0' :: 'x' :: lastDigit 40 '7') := by decide
    have hfive : digitCodec.toChecksumAddress ('0' :: 'x' :: lastDigit 40 '5') =
        some ('0' :: 'x' :: lastDigit 40 '5') := by decide
    rw [hsigner, hfive] at hexpected
    cases hseven.symm.trans hfound
    exact absurd (Option.some.inj hexpected) (by decide)
  · rw [neverOverstates_iff _ _ _ _ _ _ _ _ hnone]
    exact fun hclosed => hclosed.2.1 (hasked noRecords) hstatus rfl

end LamTo.Analysis
