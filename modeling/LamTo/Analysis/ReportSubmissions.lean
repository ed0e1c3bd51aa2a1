import LamTo.Model.Submissions

/-!
# A report is submitted once

The unique constraint lets one row stand for a resident and a client reference, and a second
insertion waits for the first. So a call either makes the row, or finds it: at its first look, or
after the integrity error that ended its transaction.

* `SubmitInv` says of every call what its phase stands for, and that a row of a client has one
  call that made it;
* most steps only move one call, `SubmitInv.settle`; the insertion and the commit are the others;
* a call in progress waits for a call that holds its unit or has inserted its row, and that one
  can go on, so the calls come to their ends.

SOURCE: src/lamto/maintenance/reporting.py:20-144
-/

set_option autoImplicit false

namespace LamTo.Analysis

open LamTo.Library LamTo.Model

variable {C : Type}

/-- What the row of a request has in common with it. -/
structure FromRequest (K : SubmitConfig) (request : SubmitRequest) (row : StoredReport) : Prop where
  ref : SubmitState.sameRef request.resident request.clientRef row = true
  content : contentMatches K row request = true

theorem fromRequest_reportRow (K : SubmitConfig) (w : Premises) (request : SubmitRequest)
    (row : StoredReport) (h : reportRow K w request = .ok row) : FromRequest K request row := by
  simp only [reportRow, bind_eq_ok, orRaise_eq_ok, require_eq_ok, pure_eq_ok] at h
  obtain ⟨unit, hunit, building, -, -, -, -, -, location, hlocation, -, -, names, -, -, -, -, -, -,
    -, rfl⟩ := h
  constructor
  · simp [SubmitState.sameRef]
  · simp [contentMatches, hunit, hlocation]

/-- The clash that `report_client_ref_once` forbids. -/
def SameReport (a b : StoredReport) : Prop :=
  a.reporter = b.reporter ∧ a.clientRef = b.clientRef ∧ a.clientRef ≠ none

theorem SameReport.symm (a b : StoredReport) (h : SameReport a b) : SameReport b a :=
  ⟨h.1.symm, h.2.1.symm, by rw [← h.2.1]; exact h.2.2⟩

theorem sameRef_iff (resident ref : ℕ) (row : StoredReport) :
    SubmitState.sameRef resident ref row = true ↔
      row.reporter = resident ∧ row.clientRef = some ref := by
  simp only [SubmitState.sameRef, Bool.and_eq_true, decide_eq_true_eq]

theorem sameReport_of_sameRef (resident ref : ℕ) (a b : StoredReport)
    (ha : SubmitState.sameRef resident ref a = true)
    (hb : SubmitState.sameRef resident ref b = true) : SameReport a b := by
  obtain ⟨hreporter, hclient⟩ := (sameRef_iff resident ref a).mp ha
  obtain ⟨hreporter', hclient'⟩ := (sameRef_iff resident ref b).mp hb
  refine ⟨hreporter.trans hreporter'.symm, hclient.trans hclient'.symm, ?_⟩
  rw [hclient]
  exact Option.some_ne_none ref

/-- A row that a row of the request clashes with is a row of its reference. -/
theorem sameRef_of_sameReport (resident ref : ℕ) (a b : StoredReport)
    (ha : SubmitState.sameRef resident ref a = true) (h : SameReport a b) :
    SubmitState.sameRef resident ref b = true := by
  obtain ⟨hreporter, hclient⟩ := (sameRef_iff resident ref a).mp ha
  exact (sameRef_iff resident ref b).mpr ⟨h.1.symm.trans hreporter, h.2.1.symm.trans hclient⟩

/-! ## What a phase stands for -/

/-- The photos of the request include one content twice. -/
def TwinPhotos (K : SubmitConfig) (request : SubmitRequest) : Prop :=
  ¬ (request.photos.map K.photoSha).Nodup

/-- The call fails on its own account: a check refuses it, its photos clash with each other, or
its connection breaks. -/
inductive Unsubmitted (K : SubmitConfig) (request : SubmitRequest) : SubmitError → Prop where
  | refused (w : Premises) (e : SubmitError) (h : reportRow K w request = .error e) :
    Unsubmitted K request e
  | twins (h : TwinPhotos K request) : Unsubmitted K request .integrity
  | disconnected : Unsubmitted K request .connection

/-- What the result of a call says of the table. -/
inductive SubmitAnswer (K : SubmitConfig) (t : Table StoredReport) (request : SubmitRequest) :
    SubmitResult → Prop where
  | returned (pk : ℕ) (created : Bool) (row : StoredReport) (hrow : t.get? pk = some row)
    (h : FromRequest K request row) : SubmitAnswer K t request (.returned pk created)
  | conflict (pk : ℕ) (row : StoredReport) (hrow : t.get? pk = some row)
    (href : SubmitState.sameRef request.resident request.clientRef row = true)
    (hcontent : contentMatches K row request = false) : SubmitAnswer K t request .conflict
  | failed (e : SubmitError) (h : Unsubmitted K request e) : SubmitAnswer K t request (.failed e)

/-- A call recovers because a row of its reference is committed, or for its photos. -/
def Recoverable (K : SubmitConfig) (t : Table StoredReport) (request : SubmitRequest) : Prop :=
  (∃ pk row, t.get? pk = some row ∧
    SubmitState.sameRef request.resident request.clientRef row = true) ∨ TwinPhotos K request

/-- What the phase of a call stands for. -/
def PhaseStands (K : SubmitConfig) (v : Versions C StoredReport) (c : C) : SubmitPhase → Prop
  | .idle | .checking _ => True
  | .validated request row => FromRequest K request row
  | .inserted request pk =>
    ∃ row, v.pending pk = some ⟨c, some row⟩ ∧ FromRequest K request row
  | .recovering request => Recoverable K v.committed request
  | .finished request result => SubmitAnswer K v.committed request result

structure SubmitInv (K : SubmitConfig) (s : SubmitState C) : Prop where
  inserts : Versions.InsertOnly s.reports
  once : Versions.Unique SameReport s.reports
  phases : ∀ c, PhaseStands K s.reports c (s.phase c)
  owners : ∀ pk p, s.reports.pending pk = some p →
    ∃ request, s.phase p.owner = .inserted request pk
  made : ∀ pk row, s.reports.committed.get? pk = some row → row.clientRef ≠ none →
    ∃ c request, s.phase c = .finished request (.returned pk true)
  single : ∀ c d r q pk, s.phase c = .finished r (.returned pk true) →
    s.phase d = .finished q (.returned pk true) → c = d
  holders : ∀ unit c, s.unitHolder unit = some c →
    (∃ request row, s.phase c = .validated request row) ∨
      ∃ request pk, s.phase c = .inserted request pk

section Growing

variable {K : SubmitConfig} {t u : Table StoredReport} {request : SubmitRequest}

theorem SubmitAnswer.grow {result : SubmitResult} (h : SubmitAnswer K t request result)
    (hgrow : ∀ pk a, t.get? pk = some a → u.get? pk = some a) : SubmitAnswer K u request result := by
  cases h with
  | returned pk created row hrow h => exact .returned pk created row (hgrow pk row hrow) h
  | conflict pk row hrow href hcontent => exact .conflict pk row (hgrow pk row hrow) href hcontent
  | failed e h => exact .failed e h

theorem Recoverable.grow (h : Recoverable K t request)
    (hgrow : ∀ pk a, t.get? pk = some a → u.get? pk = some a) : Recoverable K u request := by
  rcases h with ⟨pk, row, hrow, href⟩ | htwins
  · exact .inl ⟨pk, row, hgrow pk row hrow, href⟩
  · exact .inr htwins

/-- A call's phase stands while the table grows and what the call inserted is there. -/
theorem PhaseStands.grow {v w : Versions C StoredReport} {c : C} {phase : SubmitPhase}
    (h : PhaseStands K v c phase)
    (hgrow : ∀ pk a, v.committed.get? pk = some a → w.committed.get? pk = some a)
    (hown : ∀ pk row, v.pending pk = some ⟨c, row⟩ → w.pending pk = some ⟨c, row⟩) :
    PhaseStands K w c phase := by
  cases phase with
  | idle => trivial
  | checking request => trivial
  | validated request row => exact h
  | inserted request pk =>
    obtain ⟨row, hrow, hrequest⟩ := h
    exact ⟨row, hown pk _ hrow, hrequest⟩
  | recovering request => exact Recoverable.grow h hgrow
  | finished request result => exact SubmitAnswer.grow h hgrow

end Growing

theorem submitInv_empty (K : SubmitConfig) (premises : Premises) :
    SubmitInv K (SubmitState.empty premises : SubmitState C) where
  inserts := Versions.insertOnly_empty
  once := Versions.unique_empty SameReport
  phases := fun _ => trivial
  owners := fun _ _ h => nomatch h
  made := fun _ _ h => nomatch h
  single := fun _ _ _ _ _ h => nomatch h
  holders := fun _ _ h => nomatch h

/-! ## Steps -/

variable {K : SubmitConfig} {s t : SubmitState C}

/-- A call that has inserted a row is the one whose row is pending. -/
theorem SubmitInv.not_owner (h : SubmitInv K s) (c : C)
    (hphase : ∀ request pk, s.phase c ≠ .inserted request pk) (pk : ℕ)
    (p : Pending C StoredReport) (hp : s.reports.pending pk = some p) : p.owner ≠ c := by
  intro hc
  obtain ⟨request, hinserted⟩ := h.owners pk p hp
  rw [hc] at hinserted
  exact hphase request pk hinserted

variable [DecidableEq C]

/-- **One call moves on**: it is not finished before, it has inserted nothing after, and what it
had not committed is dropped. -/
theorem SubmitInv.settle (h : SubmitInv K s) (c : C) (phase : SubmitPhase)
    (hdrops : Versions.Drops c s.reports t.reports)
    (hphase : t.phase = Function.update s.phase c phase)
    (hbefore : ∀ request result, s.phase c ≠ .finished request result)
    (hstands : PhaseStands K s.reports c phase)
    (hinserted : ∀ request pk, phase ≠ .inserted request pk)
    (hcreated : ∀ request pk, phase ≠ .finished request (.returned pk true))
    (hholders : ∀ unit d, t.unitHolder unit = some d → d ≠ c ∧ s.unitHolder unit = some d ∨
      d = c ∧ ∃ request row, phase = .validated request row) : SubmitInv K t := by
  have hself : t.phase c = phase := by rw [hphase, Function.update_self]
  have hother : ∀ d, d ≠ c → t.phase d = s.phase d := fun d hd => by
    rw [hphase, Function.update_of_ne hd]
  refine ⟨hdrops.insertOnly h.inserts, hdrops.unique h.once, ?_, ?_, ?_, ?_, ?_⟩
  · intro d
    have hgrow : ∀ pk a, s.reports.committed.get? pk = some a →
        t.reports.committed.get? pk = some a := fun pk a ha => by rw [hdrops.committed]; exact ha
    by_cases hd : d = c
    · subst hd
      rw [hself]
      cases phase with
      | inserted request pk => exact absurd rfl (hinserted request pk)
      | idle => trivial
      | checking request => trivial
      | validated request row => exact hstands
      | recovering request => exact Recoverable.grow hstands hgrow
      | finished request result => exact SubmitAnswer.grow hstands hgrow
    · rw [hother d hd]
      exact (h.phases d).grow hgrow fun pk row hrow =>
        (hdrops.pending pk _).mpr ⟨hrow, hd⟩
  · intro pk p hp
    obtain ⟨hp, howner⟩ := (hdrops.pending pk p).mp hp
    rw [hother p.owner howner]
    exact h.owners pk p hp
  · intro pk row hrow hclient
    rw [hdrops.committed] at hrow
    obtain ⟨d, request, hd⟩ := h.made pk row hrow hclient
    have hne : d ≠ c := fun hdc => hbefore request _ (hdc ▸ hd)
    exact ⟨d, request, (hother d hne).trans hd⟩
  · intro d e r q pk hd he
    have hne : ∀ f r, t.phase f = .finished r (.returned pk true) → f ≠ c := by
      intro f r hf hfc
      rw [hfc, hself] at hf
      exact hcreated r pk hf
    rw [hother d (hne d r hd)] at hd
    rw [hother e (hne e q he)] at he
    exact h.single d e r q pk hd he
  · intro unit d hd
    rcases hholders unit d hd with ⟨hne, hbefore'⟩ | ⟨rfl, request, row, hvalidated⟩
    · rw [hother d hne]
      exact h.holders unit d hbefore'
    · exact .inl ⟨request, row, hself.trans hvalidated⟩

/-- **The row of a call is inserted**, which clashes with none. -/
theorem SubmitInv.insert (h : SubmitInv K s) (c : C) (request : SubmitRequest)
    (row : StoredReport) (hphase : s.phase c = .validated request row)
    (hawaits : s.reports.awaits c
      (SubmitState.sameRef request.resident request.clientRef) = false)
    (hview : (s.reports.view c).any
      (SubmitState.sameRef request.resident request.clientRef) = false) :
    SubmitInv K ({ s with reports := s.reports.insert c row }.setPhase c
      (.inserted request s.reports.committed.next)) := by
  have hrequest : FromRequest K request row := by
    have := h.phases c
    rwa [hphase] at this
  have hself := Function.update_self c (SubmitPhase.inserted request s.reports.committed.next)
    s.phase
  have hother : ∀ d, d ≠ c → Function.update s.phase c
      (SubmitPhase.inserted request s.reports.committed.next) d = s.phase d :=
    fun d hd => Function.update_of_ne hd _ _
  refine ⟨h.inserts.insert row, ?_, ?_, ?_, ?_, ?_, ?_⟩
  · refine h.once.insert SameReport.symm row fun pk b hb hsame => ?_
    have hclash := sameRef_of_sameReport _ _ row b hrequest.ref hsame
    rw [h.inserts.not_stored _ hawaits hview pk b hb] at hclash
    cases hclash
  · intro d
    by_cases hd : d = c
    · subst hd
      show PhaseStands K _ d (Function.update s.phase d _ d)
      rw [hself]
      exact ⟨row, (s.reports.pending_insert d row _).trans (if_pos rfl), hrequest⟩
    · show PhaseStands K _ d (Function.update s.phase c _ d)
      rw [hother d hd]
      exact (h.phases d).grow (fun pk a ha => ha) fun pk a ha =>
        (s.reports.pending_insert_other c row pk ⟨d, a⟩ hd).mpr ha
  · intro pk p hp
    change (s.reports.insert c row).pending pk = some p at hp
    rw [Versions.pending_insert] at hp
    split at hp
    · next hpk =>
      cases hp
      exact ⟨request, by rw [hpk]; exact hself⟩
    · obtain ⟨r, hr⟩ := h.owners pk p hp
      have hne : p.owner ≠ c := fun hc => by
        rw [hc, hphase] at hr
        cases hr
      exact ⟨r, (hother _ hne).trans hr⟩
  · intro pk a ha hclient
    obtain ⟨d, r, hd⟩ := h.made pk a ha hclient
    have hne : d ≠ c := fun hc => by
      rw [hc, hphase] at hd
      cases hd
    exact ⟨d, r, (hother d hne).trans hd⟩
  · intro d e r q pk hd he
    have hne : ∀ f r, Function.update s.phase c
        (SubmitPhase.inserted request s.reports.committed.next) f =
          .finished r (.returned pk true) → f ≠ c := by
      intro f r hf hc
      rw [hc, hself] at hf
      cases hf
    exact h.single d e r q pk ((hother d (hne d r hd)).symm.trans hd)
      ((hother e (hne e q he)).symm.trans he)
  · intro unit d hd
    by_cases hdc : d = c
    · subst hdc
      exact .inr ⟨request, _, hself⟩
    · rcases h.holders unit d hd with ⟨r, a, hr⟩ | ⟨r, pk, hr⟩
      · exact .inl ⟨r, a, (hother d hdc).trans hr⟩
      · exact .inr ⟨r, pk, (hother d hdc).trans hr⟩

/-- **The row of a call is committed**: this call made it. -/
theorem SubmitInv.commit (h : SubmitInv K s) (c : C) (request : SubmitRequest) (pk : ℕ)
    (hphase : s.phase c = .inserted request pk) :
    SubmitInv K ({ s.release c with reports := s.reports.commit c }.setPhase c
      (.finished request (.returned pk true))) := by
  obtain ⟨row, hrow, hrequest⟩ : ∃ row, s.reports.pending pk = some ⟨c, some row⟩ ∧
      FromRequest K request row := by
    have := h.phases c
    rwa [hphase] at this
  have hself := Function.update_self c (SubmitPhase.finished request (.returned pk true)) s.phase
  have hother : ∀ d, d ≠ c → Function.update s.phase c
      (SubmitPhase.finished request (.returned pk true)) d = s.phase d :=
    fun d hd => Function.update_of_ne hd _ _
  have hgrow : ∀ q a, s.reports.committed.get? q = some a →
      (s.reports.commit c).committed.get? q = some a :=
    fun q a ha => (h.inserts.get?_commit q a).mpr (.inl ha)
  refine ⟨h.inserts.commit, ?_, ?_, ?_, ?_, ?_, ?_⟩
  · exact Versions.unique_of_stored h.once h.inserts.stored_commit
  · intro d
    by_cases hd : d = c
    · subst hd
      show PhaseStands K _ d (Function.update s.phase d _ d)
      rw [hself]
      exact .returned pk true row ((h.inserts.get?_commit pk row).mpr (.inr hrow)) hrequest
    · show PhaseStands K _ d (Function.update s.phase c _ d)
      rw [hother d hd]
      exact (h.phases d).grow hgrow fun q a ha =>
        (s.reports.pending_commit c q ⟨d, a⟩).mpr ⟨ha, hd⟩
  · intro q p hp
    obtain ⟨hp, hne⟩ := (s.reports.pending_commit c q p).mp hp
    obtain ⟨r, hr⟩ := h.owners q p hp
    exact ⟨r, (hother _ hne).trans hr⟩
  · intro q a ha hclient
    rcases (h.inserts.get?_commit q a).mp ha with hbefore | hown
    · obtain ⟨d, r, hd⟩ := h.made q a hbefore hclient
      have hne : d ≠ c := fun hc => by
        rw [hc, hphase] at hd
        cases hd
      exact ⟨d, r, (hother d hne).trans hd⟩
    · obtain ⟨r, hr⟩ := h.owners q _ hown
      rw [hphase] at hr
      cases hr
      exact ⟨c, request, hself⟩
  · -- No call has made the row before: it was not committed.
    have hnone : ∀ d r, d ≠ c → s.phase d ≠ .finished r (.returned pk true) := by
      intro d r hd hfinished
      have hanswer := h.phases d
      rw [hfinished] at hanswer
      cases hanswer with
      | returned _ _ a ha _ =>
        rw [h.inserts.fresh pk _ hrow] at ha
        cases ha
    have hwas : ∀ d r q, d ≠ c → Function.update s.phase c
        (SubmitPhase.finished request (.returned pk true)) d = .finished r (.returned q true) →
        s.phase d = .finished r (.returned q true) := fun d r q hd hfinished =>
      (hother d hd).symm.trans hfinished
    intro d e r q qk hd he
    by_cases hdc : d = c
    · by_cases hec : e = c
      · rw [hdc, hec]
      · rw [hdc] at hd
        cases hself.symm.trans hd
        exact absurd (hwas e q pk hec he) (hnone e q hec)
    · by_cases hec : e = c
      · rw [hec] at he
        cases hself.symm.trans he
        exact absurd (hwas d r pk hdc hd) (hnone d r hdc)
      · exact h.single d e r q qk (hwas d r qk hdc hd) (hwas e q qk hec he)
  · intro unit d hd
    obtain ⟨hd, hne⟩ := Option.filter_eq_some_iff.mp hd
    have hdc : d ≠ c := of_decide_eq_true hne
    rcases h.holders unit d hd with ⟨r, a, hr⟩ | ⟨r, q, hr⟩
    · exact .inl ⟨r, a, (hother d hdc).trans hr⟩
    · exact .inr ⟨r, q, (hother d hdc).trans hr⟩

/-- The call holds nothing. -/
def Unheld : SubmitPhase → Prop
  | .idle | .checking _ | .recovering _ => True
  | .validated _ _ | .inserted _ _ | .finished _ _ => False

/-- The call has made no row. -/
def Rowless : SubmitPhase → Prop
  | .inserted _ _ | .finished _ (.returned _ true) => False
  | _ => True

theorem Rowless.not_inserted {phase : SubmitPhase} (h : Rowless phase) (request : SubmitRequest)
    (pk : ℕ) : phase ≠ .inserted request pk := by
  rintro rfl
  exact h

theorem Rowless.not_created {phase : SubmitPhase} (h : Rowless phase) (request : SubmitRequest)
    (pk : ℕ) : phase ≠ .finished request (.returned pk true) := by
  rintro rfl
  exact h

/-- **A call moves on that holds nothing.** -/
theorem SubmitInv.advance (h : SubmitInv K s) (c : C) (phase : SubmitPhase)
    (hbefore : Unheld (s.phase c)) (hstands : PhaseStands K s.reports c phase)
    (hafter : Rowless phase) : SubmitInv K (s.setPhase c phase) := by
  have hfinished : ∀ request result, s.phase c ≠ .finished request result := by
    intro request result hphase
    rw [hphase] at hbefore
    exact hbefore
  have hnothing : ∀ request pk, s.phase c ≠ .inserted request pk := by
    intro request pk hphase
    rw [hphase] at hbefore
    exact hbefore
  refine h.settle c phase (Versions.drops_self (h.not_owner c hnothing)) rfl hfinished hstands
    hafter.not_inserted hafter.not_created ?_
  intro unit d hd
  refine .inl ⟨fun hdc => ?_, hd⟩
  rcases h.holders unit d hd with ⟨request, row, hphase⟩ | ⟨request, pk, hphase⟩
  · rw [← hdc, hphase] at hbefore
    exact hbefore
  · exact hnothing request pk (hdc ▸ hphase)

/-- **A call is rolled back.** -/
theorem SubmitInv.giveUp (h : SubmitInv K s) (c : C) (phase : SubmitPhase)
    (hbefore : ∀ request result, s.phase c ≠ .finished request result)
    (hstands : PhaseStands K s.reports c phase) (hafter : Rowless phase) :
    SubmitInv K ((s.rollback c).setPhase c phase) := by
  refine h.settle c phase (Versions.drops_rollback s.reports c) rfl hbefore hstands
    hafter.not_inserted hafter.not_created ?_
  intro unit d hd
  obtain ⟨hd, hne⟩ := Option.filter_eq_some_iff.mp hd
  exact .inl ⟨of_decide_eq_true hne, hd⟩

omit [DecidableEq C] in
/-- What a look at the table finds answers the request. -/
theorem answered_answer (request : SubmitRequest) (found : ℕ × StoredReport)
    (h : s.lookFor request = some found) :
    SubmitAnswer K s.reports.committed request (SubmitState.answer K request found) := by
  obtain ⟨pk, row⟩ := found
  obtain ⟨hrow, href⟩ := Table.first?_eq_some _ _ pk row h
  unfold SubmitState.answer
  cases hcontent : contentMatches K row request with
  | true => exact .returned pk false row hrow ⟨href, hcontent⟩
  | false => exact .conflict pk row hrow href hcontent

theorem rowless_answer (request : SubmitRequest) (found : ℕ × StoredReport) :
    Rowless (.finished request (SubmitState.answer K request found)) := by
  unfold SubmitState.answer
  split <;> trivial

/-- A call ends with what a look has found. -/
theorem SubmitInv.found (h : SubmitInv K s) (c : C) (request : SubmitRequest)
    (found : ℕ × StoredReport) (hfound : s.lookFor request = some found)
    (hbefore : Unheld (s.phase c)) :
    SubmitInv K (s.setPhase c (.finished request (SubmitState.answer K request found))) :=
  h.advance c _ hbefore (answered_answer request found hfound) (rowless_answer request found)

omit [DecidableEq C] in
/-- A row without a reference of a client comes from elsewhere. -/
theorem SubmitInv.other (h : SubmitInv K s) (row : StoredReport) (hrow : row.clientRef = none) :
    SubmitInv K { s with reports := s.reports.insertNow row } where
  inserts := h.inserts.insertNow row
  once := by
    have hstored : ∀ pk a, (s.reports.insertNow row).Stored pk a → a.clientRef ≠ none →
        s.reports.Stored pk a := by
      intro pk a ha hclient
      rcases ha with ha | ⟨d, ha⟩
      · have hget := (s.reports.committed.get?_insert row pk).symm.trans ha
        split at hget
        · cases hget
          exact absurd hrow hclient
        · exact .inl hget
      · exact .inr ⟨d, ha⟩
    intro pk qk a b ha hb hsame
    exact h.once pk qk a b (hstored pk a ha hsame.2.2)
      (hstored qk b hb (by rw [← hsame.2.1]; exact hsame.2.2)) hsame
  phases := fun c => (h.phases c).grow
    (fun pk a ha => s.reports.committed.get?_insert_of_some row a pk ha) fun _ _ ha => ha
  owners := h.owners
  made := by
    intro pk a ha hclient
    have hget := (s.reports.committed.get?_insert row pk).symm.trans ha
    split at hget
    · cases hget
      exact absurd hrow hclient
    · exact h.made pk a hget hclient
  single := h.single
  holders := h.holders

/-- The checks let a call through, which takes its unit. -/
theorem SubmitInv.validate (h : SubmitInv K s) (c : C) (request : SubmitRequest)
    (row : StoredReport) (hphase : s.phase c = .checking request)
    (hrow : FromRequest K request row) :
    SubmitInv K ({ s with
      unitHolder := Function.update s.unitHolder row.unit (some c) }.setPhase c
        (.validated request row)) := by
  have hnothing : ∀ r pk, s.phase c ≠ .inserted r pk := fun r pk hr =>
    nomatch hphase.symm.trans hr
  refine h.settle c (.validated request row) (Versions.drops_self (h.not_owner c hnothing)) rfl
    (fun r result hr => nomatch hphase.symm.trans hr) hrow (fun r pk hr => nomatch hr)
    (fun r pk hr => nomatch hr) ?_
  intro unit d hd
  change Function.update s.unitHolder row.unit (some c) unit = some d at hd
  by_cases hdc : d = c
  · exact .inr ⟨hdc, request, row, rfl⟩
  · by_cases hunit : unit = row.unit
    · rw [hunit, Function.update_self] at hd
      cases hd
      exact absurd rfl hdc
    · rw [Function.update_of_ne hunit] at hd
      exact .inl ⟨hdc, hd⟩

/-- An insertion that fails has met a committed row of its reference. -/
theorem SubmitInv.clash (h : SubmitInv K s) (c : C) (request : SubmitRequest)
    (row : StoredReport) (hphase : s.phase c = .validated request row)
    (hview : (s.reports.view c).any
      (SubmitState.sameRef request.resident request.clientRef) = true) :
    ∃ pk a, s.reports.committed.get? pk = some a ∧
      SubmitState.sameRef request.resident request.clientRef a = true := by
  obtain ⟨pk, a, ha, href⟩ := (Table.any_eq_true _ _).mp hview
  rw [Versions.get?_view, h.inserts.seen_eq_some] at ha
  rcases ha with ha | ha
  · exact ⟨pk, a, ha, href⟩
  · exact absurd rfl (h.not_owner c (fun r q hr => nomatch hphase.symm.trans hr) pk _ ha)

omit [DecidableEq C] in
/-- A call that recovers and finds nothing has clashed with itself. -/
theorem SubmitInv.twins (h : SubmitInv K s) (c : C) (request : SubmitRequest)
    (hphase : s.phase c = .recovering request) (hnone : s.lookFor request = none) :
    TwinPhotos K request := by
  have hstands := h.phases c
  rw [hphase] at hstands
  rcases hstands with ⟨pk, row, hrow, href⟩ | htwins
  · rw [(Table.first?_eq_none _ _).mp hnone pk row hrow] at href
    cases href
  · exact htwins

/-- **Every step keeps the invariant.** -/
theorem SubmitInv.step (h : SubmitInv K s) (action : SubmitAction C)
    (hstep : s.step K action = some t) : SubmitInv K t := by
  cases action with
  | setPremises premises =>
    cases hstep
    exact ⟨h.inserts, h.once, h.phases, h.owners, h.made, h.single, h.holders⟩
  | other row =>
    simp only [SubmitState.step] at hstep
    split at hstep
    · next hrow =>
      cases hstep
      exact h.other row hrow
    · cases hstep
  | begin c request =>
    simp only [SubmitState.step, SubmitState.begin] at hstep
    split at hstep
    · next hphase =>
      have hbefore : Unheld (s.phase c) := by rw [hphase]; trivial
      split at hstep
      · next found hfound =>
        cases hstep
        exact h.found c request found hfound hbefore
      · cases hstep
        exact h.advance c _ hbefore trivial trivial
    · cases hstep
  | check c =>
    simp only [SubmitState.step, SubmitState.check] at hstep
    split at hstep
    · next request hphase =>
      have hbefore : Unheld (s.phase c) := by rw [hphase]; trivial
      split at hstep
      · cases hstep
      · split at hstep
        · next e he =>
          cases hstep
          exact h.advance c _ hbefore (.failed e (.refused s.premises e he)) trivial
        · next row hrow =>
          cases hstep
          exact h.validate c request row hphase (fromRequest_reportRow K _ request row hrow)
    · cases hstep
  | insert c =>
    simp only [SubmitState.step, SubmitState.insert] at hstep
    split at hstep
    · next request row hphase =>
      split at hstep
      · cases hstep
      · next hawaits =>
        split at hstep
        · next hview =>
          cases hstep
          refine h.giveUp c _ ?_ (.inl (h.clash c request row hphase hview)) trivial
          intro r result hfinished
          cases hphase.symm.trans hfinished
        · next hview =>
          cases hstep
          exact h.insert c request row hphase (Bool.eq_false_of_not_eq_true hawaits)
            (Bool.eq_false_of_not_eq_true hview)
    · cases hstep
  | finish c =>
    simp only [SubmitState.step, SubmitState.finish] at hstep
    split at hstep
    · next request pk hphase =>
      split at hstep
      · cases hstep
        exact h.commit c request pk hphase
      · next htwins =>
        cases hstep
        refine h.giveUp c _ ?_ (.inr htwins) trivial
        intro r result hfinished
        cases hphase.symm.trans hfinished
    · cases hstep
  | recover c =>
    simp only [SubmitState.step, SubmitState.recover] at hstep
    split at hstep
    · next request hphase =>
      have hbefore : Unheld (s.phase c) := by rw [hphase]; trivial
      split at hstep
      · next found hfound =>
        cases hstep
        exact h.found c request found hfound hbefore
      · next hnone =>
        cases hstep
        exact h.advance c _ hbefore (.failed _ (.twins (h.twins c request hphase hnone))) trivial
    · cases hstep
  | disconnect c =>
    simp only [SubmitState.step, SubmitState.disconnect] at hstep
    have hgive : ∀ request, (∀ r result, s.phase c ≠ .finished r result) →
        some ((s.rollback c).setPhase c (.finished request (.failed .connection))) = some t →
        SubmitInv K t := by
      intro request hbefore heq
      cases heq
      exact h.giveUp c _ hbefore (.failed _ .disconnected) trivial
    split at hstep
    · next request hphase =>
      exact hgive request (fun r result hr => by cases hphase.symm.trans hr) hstep
    · next request row hphase =>
      exact hgive request (fun r result hr => by cases hphase.symm.trans hr) hstep
    · next request pk hphase =>
      exact hgive request (fun r result hr => by cases hphase.symm.trans hr) hstep
    · next request hphase =>
      exact hgive request (fun r result hr => by cases hphase.symm.trans hr) hstep
    · cases hstep

/-- Only a call that makes a row changes the rows with a reference of a client. -/
theorem committed_step (action : SubmitAction C) (hstep : s.step K action = some t) (pk : ℕ) :
    t.reports.committed.get? pk = s.reports.committed.get? pk ∨
      (∃ c request made, t.phase c = .finished request (.returned made true) ∧
        ∀ result, s.phase c ≠ .finished request result) ∨
      ∃ row, action = .other row := by
  cases action with
  | setPremises premises =>
    cases hstep
    exact .inl rfl
  | other row => exact .inr (.inr ⟨row, rfl⟩)
  | finish c =>
    simp only [SubmitState.step, SubmitState.finish] at hstep
    split at hstep
    · next request made hphase =>
      split at hstep
      · cases hstep
        refine .inr (.inl ⟨c, request, made, Function.update_self _ _ _, ?_⟩)
        intro result hr
        exact nomatch hphase.symm.trans hr
      · cases hstep
        exact .inl rfl
    · cases hstep
  | begin c request =>
    simp only [SubmitState.step, SubmitState.begin] at hstep
    repeat' split at hstep
    all_goals
      cases hstep
      try exact .inl rfl
  | check c =>
    simp only [SubmitState.step, SubmitState.check] at hstep
    repeat' split at hstep
    all_goals
      cases hstep
      try exact .inl rfl
  | insert c =>
    simp only [SubmitState.step, SubmitState.insert] at hstep
    repeat' split at hstep
    all_goals
      cases hstep
      try exact .inl rfl
  | recover c =>
    simp only [SubmitState.step, SubmitState.recover] at hstep
    repeat' split at hstep
    all_goals
      cases hstep
      try exact .inl rfl
  | disconnect c =>
    simp only [SubmitState.step, SubmitState.disconnect] at hstep
    repeat' split at hstep
    all_goals
      cases hstep
      try exact .inl rfl

/-- A call that a step has ended is the one that moved. -/
theorem ended_moves {c d : C} {phase after : SubmitPhase}
    (hphase : t.phase = Function.update s.phase d phase) (hbefore : s.phase c ≠ after)
    (hafter : t.phase c = after) : c = d ∧ phase = after := by
  by_cases hcd : c = d
  · subst hcd
    rw [hphase, Function.update_self] at hafter
    exact ⟨rfl, hafter⟩
  · rw [hphase, Function.update_of_ne hcd] at hafter
    exact absurd hafter hbefore

theorem answer_ne_failed (request : SubmitRequest) (found : ℕ × StoredReport) (e : SubmitError) :
    SubmitState.answer K request found ≠ .failed e := by
  unfold SubmitState.answer
  split
  · exact fun h => nomatch h
  · exact fun h => nomatch h

/-- **A call fails** because a check refuses it as things stand, for its photos, or by the loss of
its connection. -/
theorem SubmitInv.failed_step (h : SubmitInv K s) (action : SubmitAction C)
    (hstep : s.step K action = some t) (c : C) (request : SubmitRequest) (e : SubmitError)
    (hbefore : s.phase c ≠ .finished request (.failed e))
    (hafter : t.phase c = .finished request (.failed e)) :
    reportRow K s.premises request = .error e ∨ (TwinPhotos K request ∧ e = .integrity) ∨
      action = .disconnect c := by
  cases action with
  | setPremises premises =>
    cases hstep
    exact absurd hafter hbefore
  | other row =>
    simp only [SubmitState.step] at hstep
    split at hstep
    · cases hstep
      exact absurd hafter hbefore
    · cases hstep
  | begin d r =>
    simp only [SubmitState.step, SubmitState.begin] at hstep
    split at hstep
    · split at hstep
      · next found hfound =>
        cases hstep
        obtain ⟨-, hphase⟩ := ended_moves rfl hbefore hafter
        injection hphase with _ hresult
        exact absurd hresult (answer_ne_failed r found e)
      · cases hstep
        obtain ⟨-, hphase⟩ := ended_moves rfl hbefore hafter
        cases hphase
    · cases hstep
  | check d =>
    simp only [SubmitState.step, SubmitState.check] at hstep
    split at hstep
    · next r hphase =>
      split at hstep
      · cases hstep
      · split at hstep
        · next e' he =>
          cases hstep
          obtain ⟨-, hphase⟩ := ended_moves rfl hbefore hafter
          cases hphase
          exact .inl he
        · cases hstep
          obtain ⟨-, hphase⟩ := ended_moves rfl hbefore hafter
          cases hphase
    · cases hstep
  | insert d =>
    simp only [SubmitState.step, SubmitState.insert] at hstep
    split at hstep
    · split at hstep
      · cases hstep
      · split at hstep
        · cases hstep
          obtain ⟨-, hphase⟩ := ended_moves rfl hbefore hafter
          cases hphase
        · cases hstep
          obtain ⟨-, hphase⟩ := ended_moves rfl hbefore hafter
          cases hphase
    · cases hstep
  | finish d =>
    simp only [SubmitState.step, SubmitState.finish] at hstep
    split at hstep
    · split at hstep
      · cases hstep
        obtain ⟨-, hphase⟩ := ended_moves rfl hbefore hafter
        cases hphase
      · cases hstep
        obtain ⟨-, hphase⟩ := ended_moves rfl hbefore hafter
        cases hphase
    · cases hstep
  | recover d =>
    simp only [SubmitState.step, SubmitState.recover] at hstep
    split at hstep
    · next r hrecovering =>
      split at hstep
      · next found hfound =>
        cases hstep
        obtain ⟨-, hphase⟩ := ended_moves rfl hbefore hafter
        injection hphase with _ hresult
        exact absurd hresult (answer_ne_failed r found e)
      · next hnone =>
        cases hstep
        obtain ⟨-, hphase⟩ := ended_moves rfl hbefore hafter
        cases hphase
        exact .inr (.inl ⟨h.twins d request hrecovering hnone, rfl⟩)
    · cases hstep
  | disconnect d =>
    simp only [SubmitState.step, SubmitState.disconnect] at hstep
    refine .inr (.inr ?_)
    repeat' split at hstep
    all_goals
      cases hstep
      try rw [(ended_moves rfl hbefore hafter).1]

/-! ## The calls come to their ends -/

/-- How many steps a call has at most before it. -/
def stepsLeft : SubmitPhase → ℕ
  | .idle => 5
  | .checking _ => 4
  | .validated _ _ => 3
  | .inserted _ _ => 2
  | .recovering _ => 1
  | .finished _ _ => 0

/-- The call has begun and has not ended. -/
def InProgress : SubmitPhase → Prop
  | .idle | .finished _ _ => False
  | .checking _ | .validated _ _ | .inserted _ _ | .recovering _ => True

/-- The action is the next statement of a call. -/
def IsStatementOf (c : C) : SubmitAction C → Prop
  | .check d | .insert d | .finish d | .recover d => d = c
  | .setPremises _ | .other _ | .begin _ _ | .disconnect _ => False

/-- The call can take its next statement, which brings it nearer to its end. -/
def CanGoOn (K : SubmitConfig) (s : SubmitState C) (c : C) : Prop :=
  ∃ action t, IsStatementOf c action ∧ s.step K action = some t ∧
    stepsLeft (t.phase c) < stepsLeft (s.phase c) ∧ ∀ d, d ≠ c → t.phase d = s.phase d

theorem canGoOn_of_step (c : C) (action : SubmitAction C) (u : SubmitState C)
    (phase : SubmitPhase) (haction : IsStatementOf c action)
    (hstep : s.step K action = some (u.setPhase c phase)) (hu : u.phase = s.phase)
    (hleft : stepsLeft phase < stepsLeft (s.phase c)) : CanGoOn K s c := by
  refine ⟨action, u.setPhase c phase, haction, hstep, ?_, ?_⟩
  · rw [SubmitState.phase_setPhase_self]
    exact hleft
  · intro d hd
    rw [← hu]
    exact Function.update_of_ne hd _ _

theorem inserted_canGoOn (c : C) (request : SubmitRequest) (pk : ℕ)
    (hphase : s.phase c = .inserted request pk) : CanGoOn K s c := by
  by_cases htwins : (request.photos.map K.photoSha).Nodup
  · refine canGoOn_of_step c (.finish c) { s.release c with reports := s.reports.commit c }
      (.finished request (.returned pk true)) rfl ?_ rfl ?_
    · simp only [SubmitState.step, SubmitState.finish, hphase, if_pos htwins]
    · rw [hphase]
      simp only [stepsLeft, Nat.reduceLT]
  · refine canGoOn_of_step c (.finish c) (s.rollback c) (.recovering request)
      rfl ?_ rfl ?_
    · simp only [SubmitState.step, SubmitState.finish, hphase, if_neg htwins]
    · rw [hphase]
      simp only [stepsLeft, Nat.reduceLT]

theorem recovering_canGoOn (c : C) (request : SubmitRequest)
    (hphase : s.phase c = .recovering request) : CanGoOn K s c := by
  cases hfound : s.lookFor request with
  | some found =>
    refine canGoOn_of_step c (.recover c) s (.finished request (SubmitState.answer K request found))
      rfl ?_ rfl ?_
    · simp only [SubmitState.step, SubmitState.recover, hphase, hfound]
    · rw [hphase]
      simp only [stepsLeft, Nat.reduceLT]
  | none =>
    refine canGoOn_of_step c (.recover c) s (.finished request (.failed .integrity))
      rfl ?_ rfl ?_
    · simp only [SubmitState.step, SubmitState.recover, hphase, hfound]
    · rw [hphase]
      simp only [stepsLeft, Nat.reduceLT]

/-- A call that has passed the checks can insert its row, or the call it waits for can commit. -/
theorem SubmitInv.validated_canGoOn (h : SubmitInv K s) (c : C) (request : SubmitRequest)
    (row : StoredReport) (hphase : s.phase c = .validated request row) :
    ∃ d, CanGoOn K s d := by
  cases hawaits : s.reports.awaits c
      (SubmitState.sameRef request.resident request.clientRef) with
  | true =>
    obtain ⟨d, pk, a, -, hpending, -⟩ := h.inserts.of_awaits _ hawaits
    obtain ⟨r, hr⟩ := h.owners pk _ hpending
    exact ⟨d, inserted_canGoOn d r pk hr⟩
  | false =>
    cases hview : (s.reports.view c).any
        (SubmitState.sameRef request.resident request.clientRef) with
    | true =>
      refine ⟨c, canGoOn_of_step c (.insert c) (s.rollback c) (.recovering request)
        rfl ?_ rfl ?_⟩
      · simp only [SubmitState.step, SubmitState.insert, hphase, hawaits, hview, if_true,
          Bool.false_eq_true, if_false]
      · rw [hphase]
        simp only [stepsLeft, Nat.reduceLT]
    | false =>
      refine ⟨c, canGoOn_of_step c (.insert c) { s with reports := s.reports.insert c row }
        (.inserted request s.reports.committed.next) rfl ?_ rfl ?_⟩
      · simp only [SubmitState.step, SubmitState.insert, hphase, hawaits, hview,
          Bool.false_eq_true, if_false]
      · rw [hphase]
        simp only [stepsLeft, Nat.reduceLT]

/-- **No call waits for ever**: while one is in progress, one can go on. -/
theorem SubmitInv.progress (h : SubmitInv K s) (c : C) (hprogress : InProgress (s.phase c)) :
    ∃ d, CanGoOn K s d := by
  cases hphase : s.phase c with
  | idle => exact absurd hprogress (by rw [hphase]; exact not_false)
  | finished request result => exact absurd hprogress (by rw [hphase]; exact not_false)
  | recovering request => exact ⟨c, recovering_canGoOn c request hphase⟩
  | inserted request pk => exact ⟨c, inserted_canGoOn c request pk hphase⟩
  | validated request row => exact h.validated_canGoOn c request row hphase
  | checking request =>
    cases hheld : request.unit.any fun unit => (s.unitHolder unit).isSome with
    | true =>
      obtain ⟨unit, -, hunit⟩ := (Option.any_eq_true _ _).mp hheld
      obtain ⟨d, hd⟩ := Option.isSome_iff_exists.mp hunit
      rcases h.holders unit d hd with ⟨r, row, hr⟩ | ⟨r, pk, hr⟩
      · exact h.validated_canGoOn d r row hr
      · exact ⟨d, inserted_canGoOn d r pk hr⟩
    | false =>
      cases hrow : reportRow K s.premises request with
      | error e =>
        refine ⟨c, canGoOn_of_step c (.check c) s (.finished request (.failed e)) rfl ?_ rfl
          ?_⟩
        · simp only [SubmitState.step, SubmitState.check, hphase, hheld, hrow,
            Bool.false_eq_true, if_false]
        · rw [hphase]
          simp only [stepsLeft, Nat.reduceLT]
      | ok row =>
        refine ⟨c, canGoOn_of_step c (.check c)
          { s with unitHolder := Function.update s.unitHolder row.unit (some c) }
          (.validated request row) rfl ?_ rfl ?_⟩
        · simp only [SubmitState.step, SubmitState.check, hphase, hheld, hrow,
            Bool.false_eq_true, if_false]
        · rw [hphase]
          simp only [stepsLeft, Nat.reduceLT]

end LamTo.Analysis
