import LamTo.Analysis.ChainAgreement

/-!
# Independent means that the chain answered for everything

The flag of an observation is computed again from the list of checks, which has four shapes:
every event skipped, the local ones skipped and nothing asked, the client missing, or one check
for each event that was asked for. Only the last one, with no event skipped and no answer
missing, sets the flag (`chainConsulted_iff`); and then a VERIFIED observation compared the
payload hash of every event.

SOURCE: src/lamto/finance/integrity.py:123-207, 267-311
-/

set_option autoImplicit false

namespace LamTo.Analysis

open LamTo.Library LamTo.Model

/-- The chain returned a record for every one of some events, none of them local. -/
def AnsweredForAll (chain : ChainAccess) (events : List OutboxEvent) : Prop :=
  events ≠ [] ∧ chain.backend ≠ .disabled ∧ (∀ e ∈ events, e.status ≠ .localSettled) ∧
    ∃ answers, chain.client = .ok answers ∧
      ∀ e ∈ events, ∃ record, answers e.toIdentity = .ok (some record)

/-- Every record that was returned has the payload hash of its event. -/
def PayloadsAgree (chain : ChainAccess) (events : List OutboxEvent) : Prop :=
  ∀ answers, chain.client = .ok answers → ∀ e ∈ events, ∀ record,
    answers e.toIdentity = .ok (some record) → SamePayload record e.toIdentity

/-! ## The checks -/

/-- The check counts as an answer of the chain. -/
def CountsAsAnswer (c : ChainCheck) : Prop := c.result = .verified ∨ c.result = .mismatch

theorem chainConsulted_eq_true (report : ChainReport) : chainConsulted report = true ↔
    report.checks ≠ [] ∧ ∀ c ∈ report.checks, CountsAsAnswer c := by
  unfold chainConsulted CountsAsAnswer
  simp only [Bool.and_eq_true, Bool.not_eq_true', List.isEmpty_eq_false_iff, List.all_eq_true,
    Bool.or_eq_true, decide_eq_true_eq]

theorem skipped_not_answer (result : ChainResult) (e : OutboxEvent)
    (h : result = .skippedLocal ∨ result = .skippedAnchoringDisabled) :
    ¬ CountsAsAnswer (skippedCheck result e) := by
  intro hanswer
  have hresult : result = .verified ∨ result = .mismatch := hanswer
  rcases h with rfl | rfl
  · simp at hresult
  · simp at hresult

/-- A check of an event that was asked for is an answer when a record came back. -/
theorem chainCheck_answer (answers : ChainAnswers) (e : OutboxEvent) :
    CountsAsAnswer (chainCheck answers e) ↔
      ∃ record, answers e.toIdentity = .ok (some record) := by
  unfold CountsAsAnswer chainCheck
  dsimp only
  split
  · next text htext => simp [htext]
  · next hnone => simp [hnone]
  · next record hrecord =>
    constructor
    · intro _
      exact ⟨record, hrecord⟩
    · intro _
      split
      · exact Or.inl rfl
      · exact Or.inr rfl

/-- Without local events every event is asked for. -/
theorem asked_eq_self (events : List OutboxEvent)
    (h : ∀ e ∈ events, e.status ≠ .localSettled) :
    (events.filter fun e => e.status ≠ .localSettled) = events :=
  List.filter_eq_self.mpr fun e he => decide_eq_true (h e he)

theorem skipped_eq_nil (events : List OutboxEvent) (h : ∀ e ∈ events, e.status ≠ .localSettled) :
    (events.filter fun e => e.status = .localSettled) = [] :=
  List.filter_eq_nil_iff.mpr fun e he htest => h e he (of_decide_eq_true htest)

/-- With a client and no local event the list holds one check for each event. -/
theorem checks_of_no_local (answers : ChainAnswers) (events : List OutboxEvent)
    (h : ∀ e ∈ events, e.status ≠ .localSettled) :
    (checkChainRecords ⟨.besu, .ok answers⟩ events).checks = events.map (chainCheck answers) := by
  rw [checks_eq, skipped_eq_nil events h, asked_eq_self events h, List.map_nil, List.nil_append]

/-- A skipped event is on the list, whatever the client does. -/
theorem skipped_mem_checks (client : Except Text ChainAnswers) (events : List OutboxEvent)
    (e : OutboxEvent) (he : e ∈ events) (hlocal : e.status = .localSettled) :
    skippedCheck .skippedLocal e ∈ (checkChainRecords ⟨.besu, client⟩ events).checks := by
  have hskipped : skippedCheck .skippedLocal e ∈
      (events.filter fun e => e.status = .localSettled).map (skippedCheck .skippedLocal) :=
    List.mem_map_of_mem (List.mem_filter.mpr ⟨he, decide_eq_true hlocal⟩)
  unfold checkChainRecords
  dsimp only
  split
  · exact hskipped
  · cases client with
    | error text => exact hskipped
    | ok answers => exact List.mem_append_left _ hskipped

/-- **The flag**: some event, none of them skipped, and a record for each. -/
theorem chainConsulted_iff (chain : ChainAccess) (events : List OutboxEvent) :
    chainConsulted (checkChainRecords chain events) = true ↔ AnsweredForAll chain events := by
  obtain ⟨backend, client⟩ := chain
  rw [chainConsulted_eq_true]
  cases backend with
  | disabled =>
    constructor
    · rintro ⟨hsome, hall⟩
      obtain ⟨c, hc⟩ := List.exists_mem_of_ne_nil _ hsome
      obtain ⟨e, -, rfl⟩ := List.mem_map.mp hc
      exact absurd (hall _ hc) (skipped_not_answer _ e (Or.inr rfl))
    · intro h
      exact absurd rfl h.2.1
  | besu =>
    by_cases hlocal : ∀ e ∈ events, e.status ≠ .localSettled
    · cases client with
      | error text =>
        -- the client failed, and no event was skipped before that: the list is empty
        have hempty : (checkChainRecords ⟨.besu, .error text⟩ events).checks = [] := by
          unfold checkChainRecords
          rw [skipped_eq_nil events hlocal]
          dsimp only
          split <;> rfl
        constructor
        · intro h
          exact absurd hempty h.1
        · rintro ⟨-, -, -, answers, hclient, -⟩
          cases hclient
      | ok answers =>
        rw [checks_of_no_local answers events hlocal]
        constructor
        · rintro ⟨hsome, hall⟩
          refine ⟨fun h => hsome (h ▸ rfl), fun h => (nomatch h), hlocal, answers, rfl, fun e he => ?_⟩
          exact (chainCheck_answer answers e).mp (hall _ (List.mem_map_of_mem he))
        · rintro ⟨hsome, -, -, answers', hclient, hall⟩
          cases hclient
          refine ⟨fun h => hsome (List.map_eq_nil_iff.mp h), ?_⟩
          rw [List.forall_mem_map]
          exact fun e he => (chainCheck_answer answers e).mpr (hall e he)
    · push Not at hlocal
      obtain ⟨e, he, hstatus⟩ := hlocal
      constructor
      · rintro ⟨-, hall⟩
        exact absurd (hall _ (skipped_mem_checks client events e he hstatus))
          (skipped_not_answer _ e (Or.inl rfl))
      · intro h
        exact absurd hstatus (h.2.2.1 e he)

/-! ## The result -/

/-- The cascade verifies only without a contradiction of the chain. -/
theorem decideResult_verified (docResult : VerificationResult) (localOk : Bool)
    (report : ChainReport) (events : List OutboxEvent)
    (h : decideResult docResult localOk report events = .verified) :
    report.chainOk ≠ some false := by
  unfold decideResult at h
  cases docResult with
  | mismatch => cases h
  | unavailable => cases h
  | verified =>
    intro hchain
    simp only [hchain, or_true, if_true] at h
    cases h

/-- One differing payload hash decides the chain's part. -/
theorem chainOk_of_mismatch (answers : ChainAnswers) (events : List OutboxEvent) (e : OutboxEvent)
    (he : e ∈ events) (hlocal : e.status ≠ .localSettled)
    (hresult : (chainCheck answers e).result = .mismatch) :
    (checkChainRecords ⟨.besu, .ok answers⟩ events).chainOk = some false := by
  have hasked : e ∈ events.filter fun e => e.status ≠ .localSettled :=
    List.mem_filter.mpr ⟨he, decide_eq_true hlocal⟩
  have hany : ((events.filter fun e => e.status ≠ .localSettled).map (chainCheck answers)).any
      (fun c => c.result = .mismatch) = true :=
    List.any_eq_true.mpr ⟨_, List.mem_map_of_mem hasked, decide_eq_true hresult⟩
  unfold checkChainRecords
  dsimp only
  rw [if_neg (List.ne_nil_of_mem hasked), hany]
  rfl

theorem payloadsAgree_of_verified (chain : ChainAccess) (events : List OutboxEvent)
    (docResult : VerificationResult) (localOk : Bool) (hanswered : AnsweredForAll chain events)
    (h : decideResult docResult localOk (checkChainRecords chain events) events = .verified) :
    PayloadsAgree chain events := by
  obtain ⟨backend, client⟩ := chain
  obtain ⟨-, hbackend, hlocal, -⟩ := hanswered
  intro answers hclient e he record hrecord
  by_contra hdiffers
  have hbesu : backend = .besu := by
    cases backend with
    | disabled => exact absurd rfl hbackend
    | besu => rfl
  have hclient' : client = .ok answers := hclient
  subst hbesu hclient'
  exact decideResult_verified _ _ _ _ h (chainOk_of_mismatch answers events e he (hlocal e he)
    ((chainCheck_mismatch answers e).mpr ⟨record, hrecord, hdiffers⟩))

/-- The observation holds what the report and the cascade say. -/
theorem verifyDocuments_stored (C : EvidenceConfig) (db : Db) (now entry : ℕ) (storage : Storage)
    (chain : ChainAccess) (row : PublishedLedgerEntry) (checks : List DocumentCheck) (pk : ℕ)
    (db' : Db) (h : verifyDocuments C db now entry storage chain row checks = .ok (pk, db')) :
    ∃ o events localOk, db'.observations.get? pk = some o ∧
      relatedOutboxEvents db row.proposal = .ok events ∧
      o.chainConsulted = chainConsulted (checkChainRecords chain (events.map Prod.snd)) ∧
      o.result = decideResult (documentLoop C storage checks).docResult localOk
        (checkChainRecords chain (events.map Prod.snd)) (events.map Prod.snd) := by
  simp only [verifyDocuments, bind_eq_ok] at h
  obtain ⟨events, hevents, ⟨localOk, locals⟩, -, h⟩ := h
  split at h
  · simp only [bind_eq_ok, pure_eq_ok, Prod.mk.injEq] at h
    obtain ⟨_, _, _, _, db₁, haudit, rfl, rfl⟩ := h
    obtain ⟨audit, rfl⟩ := recordAudit_eq_ok _ _ _ _ _ _ _ _ _ haudit
    exact ⟨_, events, localOk, Table.get?_insert_self _ _, hevents, rfl, rfl⟩
  · simp only [pure_eq_ok, Prod.mk.injEq] at h
    obtain ⟨rfl, rfl⟩ := h
    exact ⟨_, events, localOk, Table.get?_insert_self _ _, hevents, rfl, rfl⟩

/-- **Consulted means that the chain answered for everything**, for every list of events and in
every observation that is stored. -/
theorem consulted_means_answered_for_all (C : EvidenceConfig) (storage : Storage)
    (chain : ChainAccess) :
    (∀ (events : List OutboxEvent) (docResult : VerificationResult) (localOk : Bool),
      (chainConsulted (checkChainRecords chain events) = true ↔ AnsweredForAll chain events) ∧
      (chainConsulted (checkChainRecords chain events) = true →
        decideResult docResult localOk (checkChainRecords chain events) events = .verified →
        PayloadsAgree chain events)) ∧
    ∀ (db : Db) (now entry pk : ℕ) (db' : Db),
      verifyPublishedEntry C db now entry storage chain = .ok (pk, db') →
      ∃ row checks events o, entryDocuments db entry = .ok (row, checks) ∧
        relatedOutboxEvents db row.proposal = .ok events ∧
        db'.observations.get? pk = some o ∧
        (o.chainConsulted = true ↔ AnsweredForAll chain (events.map Prod.snd)) ∧
        (o.chainConsulted = true → o.result = .verified →
          PayloadsAgree chain (events.map Prod.snd)) := by
  constructor
  · intro events docResult localOk
    refine ⟨chainConsulted_iff chain events, fun hconsulted hverified => ?_⟩
    exact payloadsAgree_of_verified chain events docResult localOk
      ((chainConsulted_iff chain events).mp hconsulted) hverified
  · intro db now entry pk db' h
    rw [verifyPublishedEntry, bind_eq_ok] at h
    obtain ⟨⟨row, checks⟩, hchecks, hverify⟩ := h
    obtain ⟨o, events, localOk, ho, hevents, hconsulted, hresult⟩ :=
      verifyDocuments_stored C db now entry storage chain row checks pk db' hverify
    have hiff := chainConsulted_iff chain (events.map Prod.snd)
    refine ⟨row, checks, events, o, hchecks, hevents, ho, hconsulted ▸ hiff, fun hset hverified => ?_⟩
    rw [hconsulted] at hset
    rw [hresult] at hverified
    exact payloadsAgree_of_verified chain _ _ localOk (hiff.mp hset) hverified

theorem SampleFacts.answeredForAll {db : Db} (h : SampleFacts db) (events : List (ℕ × OutboxEvent))
    (hevents : relatedOutboxEvents db 1 = .ok events) :
    AnsweredForAll ⟨.besu, .ok otherSigner⟩ (events.map Prod.snd) := by
  have hfacts := h.events
  rw [hevents] at hfacts
  have hstatuses : (events.map Prod.snd).map (fun e => e.status) =
      [.confirmed, .mismatch, .pending] := by
    have hpairs := congrArg (List.map Prod.fst) (Option.some.inj hfacts)
    rw [List.map_map] at hpairs ⊢
    exact hpairs
  refine ⟨?_, fun h => (nomatch h), fun e he => ?_, otherSigner, rfl, fun e _ => ?_⟩
  · intro hnil
    rw [hnil] at hstatuses
    cases hstatuses
  · have hmem : e.status ∈ [Status.confirmed, .mismatch, .pending] := by
      rw [← hstatuses]
      exact List.mem_map_of_mem he
    rintro hlocal
    rw [hlocal] at hmem
    simp at hmem
  · obtain ⟨record, hrecord, -⟩ := samePayload_otherSigner e.toIdentity
    exact ⟨record, hrecord⟩

/-- An entry of a run, with a chain that answers for every event: the observation is verified,
and says that the chain was consulted. -/
theorem consulted_means_answered_for_all_sample : ∃ (db db' : Db) (pk : ℕ)
    (o : VerificationObservation), db.Reachable sampleConfig ∧
    verifyPublishedEntry sampleConfig db 8000 1 intactStorage ⟨.besu, .ok otherSigner⟩ =
      .ok (pk, db') ∧
    db'.observations.get? pk = some o ∧ o.chainConsulted = true ∧ o.result = .verified := by
  obtain ⟨db, hreach, hfacts⟩ := sample_reachable
  obtain ⟨row, q, t, hchecks, hproposal, _, ⟨hq, hqhash, hqexpected⟩, ht, hthash, htexpected⟩ :=
    hfacts.entryDocuments_eq
  obtain ⟨events, hevents⟩ := hfacts.related
  obtain ⟨pk, db', o, hverify, ho, hresult⟩ := hfacts.observes_otherSigner hreach row q t events
    hchecks (hproposal ▸ hevents) hproposal (intact_sample 1 q hq hqhash hqexpected)
    (intact_sample 2 t ht hthash htexpected)
  obtain ⟨row', checks', events', o', hchecks', hevents', ho', hflag, -⟩ :=
    (consulted_means_answered_for_all sampleConfig intactStorage ⟨.besu, .ok otherSigner⟩).2
      db 8000 1 pk db' hverify
  cases hchecks.symm.trans hchecks'
  rw [hproposal] at hevents'
  cases hevents.symm.trans hevents'
  cases ho.symm.trans ho'
  exact ⟨db, db', pk, o, hreach, hverify, ho, hflag.mpr (hfacts.answeredForAll events hevents),
    hresult⟩

end LamTo.Analysis
