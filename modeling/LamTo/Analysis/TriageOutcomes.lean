import LamTo.Analysis.PriceComparisons
import LamTo.Analysis.TriagePrompts

/-!
# What comes of an answer

An answer that passes the check is stored as it is, so every suggestion is the checked answer to
the one request about its report (`suggestion_checked`). What becomes of a request is settled by
its end alone: the job is decided with the suggestion or with the reason, and its report leaves
`SUBMITTED`, exactly when the columns hold what is to be written; otherwise the exception ends the
pass and the job stays `PROCESSING` (`triage_decided`).

SOURCE: src/lamto/maintenance/ai.py:106-162, 188-292
-/

set_option autoImplicit false

namespace LamTo.Analysis

open LamTo.Library LamTo.Library.Versions LamTo.Model

/-! ## What passes the check -/

/-- What the checks of the envelope and of the answer let through. -/
structure CheckedAnswer (candidateIds : List ℕ) (requestId : PyText) (answer : TriageAnswer) :
    Prop where
  requestId_ne : requestId ≠ []
  requestId_length : requestId.length ≤ 255
  location_ne : answer.interpretedLocation ≠ []
  location_length : answer.interpretedLocation.length ≤ 1000
  confidence : answer.confidencePercent ≤ 100
  automatic : answer.requiresManualReview = false
  duplicates : answer.duplicateReportIds ⊆ candidateIds.map Int.ofNat
  deadline : 0 < answer.deadlineMinutes
  missing : ∀ t ∈ answer.missingInformation, t ≠ []

theorem validString_ne (v : Decoded) (t : PyText) (h : validString v = some t) : t ≠ [] := by
  unfold validString at h
  split at h
  · cases h
    exact List.cons_ne_nil _ _
  · cases h

theorem answerText_ne (payload : List (PyText × Decoded)) (key : String) (t : PyText)
    (h : answerText payload key = .ok t) : t ≠ [] := by
  obtain ⟨v, -, hv⟩ := Option.bind_eq_some_iff.mp ((orRaise_eq_ok _ _ _).mp h)
  exact validString_ne v t hv

theorem answerInt_ok (payload : List (PyText × Decoded)) (key : String) (ok : ℤ → Bool)
    (message : String) (n : ℕ) (h : answerInt payload key ok message = .ok n) :
    ∃ i, ok i = true ∧ n = i.toNat := by
  obtain ⟨i, -, h⟩ := (bind_eq_ok _ _ _).mp h
  obtain ⟨_, hok, h⟩ := (bind_eq_ok _ _ _).mp h
  rw [require_eq_ok] at hok
  exact ⟨i, hok, (Except.ok.inj h).symm⟩

theorem answerList_all {α : Type} (payload : List (PyText × Decoded)) (key : String)
    (check : Decoded → Option α) (message : String) (ys : List α)
    (h : answerList payload key check message = .ok ys) : ∀ y ∈ ys, ∃ v, check v = some y := by
  unfold answerList at h
  split at h
  · exact fun y hy => by
      obtain ⟨v, -, hv⟩ := mem_of_mapM_some check _ ys ((orRaise_eq_ok _ _ _).mp h) y hy
      exact ⟨v, hv⟩
  · cases h

/-- **An answer that is accepted has the form of a suggestion.** -/
theorem validateTriage_checked (candidateIds : List ℕ) (triage : Decoded) (answer : TriageAnswer)
    (h : validateTriage candidateIds triage = .ok answer) :
    answer.interpretedLocation ≠ [] ∧ answer.interpretedLocation.length ≤ 1000 ∧
      answer.confidencePercent ≤ 100 ∧ answer.duplicateReportIds ⊆ candidateIds.map Int.ofNat ∧
        0 < answer.deadlineMinutes ∧ ∀ t ∈ answer.missingInformation, t ≠ [] := by
  cases triage with
  | dict payload =>
    simp only [validateTriage] at h
    obtain ⟨_, _, h⟩ := (bind_eq_ok _ _ _).mp h
    obtain ⟨category, -, h⟩ := (bind_eq_ok _ _ _).mp h
    obtain ⟨location, hlocation, h⟩ := (bind_eq_ok _ _ _).mp h
    obtain ⟨queue, -, h⟩ := (bind_eq_ok _ _ _).mp h
    obtain ⟨_, _, h⟩ := (bind_eq_ok _ _ _).mp h
    obtain ⟨_, _, h⟩ := (bind_eq_ok _ _ _).mp h
    obtain ⟨_, hlength, h⟩ := (bind_eq_ok _ _ _).mp h
    obtain ⟨urgency, -, h⟩ := (bind_eq_ok _ _ _).mp h
    obtain ⟨confidence, hconfidence, h⟩ := (bind_eq_ok _ _ _).mp h
    split at h
    · obtain ⟨duplicates, -, h⟩ := (bind_eq_ok _ _ _).mp h
      obtain ⟨_, hsubset, h⟩ := (bind_eq_ok _ _ _).mp h
      obtain ⟨deadline, hdeadline, h⟩ := (bind_eq_ok _ _ _).mp h
      obtain ⟨missing, hmissing, h⟩ := (bind_eq_ok _ _ _).mp h
      obtain rfl := Except.ok.inj h
      rw [require_eq_ok] at hlength hsubset
      obtain ⟨i, hi, rfl⟩ := answerInt_ok _ _ _ _ _ hconfidence
      obtain ⟨j, hj, rfl⟩ := answerInt_ok _ _ _ _ _ hdeadline
      simp only [Bool.and_eq_true, decide_eq_true_eq] at hi hj
      refine ⟨answerText_ne _ _ _ hlocation, hlength, ?_, hsubset, ?_, fun t ht => ?_⟩
      · show i.toNat ≤ 100
        omega
      · show 0 < j.toNat
        omega
      · obtain ⟨v, hv⟩ := answerList_all _ _ _ _ _ hmissing t ht
        exact validString_ne v t hv
    · cases h
  | none => cases h
  | bool b => cases h
  | int i => cases h
  | float z => cases h
  | str s => cases h
  | list xs => cases h

theorem extractTriage_id (loads : PyText → Except JsonFailure Decoded) (envelope : Decoded)
    (requestId : PyText) (triage : Decoded)
    (h : extractTriage loads envelope = .ok (requestId, triage)) :
    requestId ≠ [] ∧ requestId.length ≤ 255 := by
  unfold extractTriage at h
  split at h
  · split at h
    · obtain ⟨_, hlength, h⟩ := (bind_eq_ok _ _ _).mp h
      rw [require_eq_ok] at hlength
      obtain ⟨content, -, h⟩ := (bind_eq_ok _ _ _).mp h
      split at h
      · obtain ⟨parsed, -, h⟩ := (bind_eq_ok _ _ _).mp h
        cases h
        exact ⟨List.cons_ne_nil _ _, hlength⟩
      · cases h
    · cases h
  · cases h

theorem judgeTriage_suggest (K : TriageConfig) (candidateIds : List ℕ) (call : TriageCall)
    (requestId : PyText) (answer : TriageAnswer)
    (h : judgeTriage K candidateIds call = .suggest requestId answer) :
    CheckedAnswer candidateIds requestId answer := by
  cases call with
  | misconfigured message => cases h
  | unreachable message => cases h
  | broken => cases h
  | answered raw =>
    unfold judgeTriage at h
    dsimp only at h
    split at h
    · cases h
    · cases h
    · next requestId' triage hextract =>
      obtain ⟨envelope, -, hextract⟩ := (bind_eq_ok _ _ _).mp hextract
      split at h
      · cases h
      · next answer' hvalid =>
        split at h
        · cases h
        · next hautomatic =>
          cases h
          obtain ⟨hne, hlength⟩ := extractTriage_id _ _ _ _ hextract
          obtain ⟨hlocation, hlong, hconfidence, hduplicates, hdeadline, hmissing⟩ :=
            validateTriage_checked _ _ _ hvalid
          exact ⟨hne, hlength, hlocation, hlong, hconfidence, (Bool.not_eq_true _).mp hautomatic,
            hduplicates, hdeadline, hmissing⟩

/-! ## Where the suggestions come from -/

variable {C : Type} {K : TriageConfig} {s t : TriageSystem C}

/-- The suggestion is the answer to a request. -/
def AnswerTo (K : TriageConfig) (s : TriageSystem C) (r : SuggestionRow) : Prop :=
  ∃ e ∈ s.asked, e.job = r.job ∧ ∃ requestId answer createdAt,
    judgeTriage K e.candidateIds e.call = .suggest requestId answer ∧
      storesAnswer requestId answer e.elapsedMs = true ∧
        r = newSuggestion K.unicode e.job e.candidateIds requestId answer e.elapsedMs createdAt

structure AnswerInv (K : TriageConfig) (s : TriageSystem C) : Prop where
  answered : ∀ c work ids call elapsedMs, s.phase c = .answered work ids call elapsedMs →
    ∃ e ∈ s.asked, e.job = work.job ∧ e.candidateIds = ids ∧ e.call = call ∧ e.elapsedMs = elapsedMs
  suggested : ∀ k r, s.suggestions.get? k = some r → AnswerTo K s r

theorem answerInv_empty (now : ℕ) : AnswerInv K (TriageSystem.empty now : TriageSystem C) :=
  ⟨(fun _ _ _ _ _ h => by cases h), fun _ _ h => by cases h⟩

theorem AnswerTo.keep {r : SuggestionRow} (h : AnswerTo K s r)
    (hasked : ∀ e ∈ s.asked, e ∈ t.asked) : AnswerTo K t r := by
  obtain ⟨e, he, hrest⟩ := h
  exact ⟨e, hasked e he, hrest⟩

variable [DecidableEq C]

/-- A step that stores no suggestion, and after which no other worker has an answer. -/
theorem AnswerInv.keep (h : AnswerInv K s) (hsuggestions : t.suggestions = s.suggestions)
    (hasked : ∀ e ∈ s.asked, e ∈ t.asked) (c : C) (phase : TriagePhase)
    (hphase : t.phase = Function.update s.phase c phase)
    (hanswered : ∀ work ids call elapsedMs, phase ≠ .answered work ids call elapsedMs) :
    AnswerInv K t where
  answered := fun d work ids call elapsedMs hd => by
    rw [hphase] at hd
    by_cases hdc : d = c
    · subst hdc
      rw [Function.update_self] at hd
      exact absurd hd (hanswered work ids call elapsedMs)
    · rw [Function.update_of_ne hdc] at hd
      obtain ⟨e, he, hrest⟩ := h.answered d work ids call elapsedMs hd
      exact ⟨e, hasked e he, hrest⟩
  suggested := fun k r hr => by
    rw [hsuggestions] at hr
    exact (h.suggested k r hr).keep hasked

theorem AnswerInv.step {a : TriageAction C} (h : AnswerInv K s) (heffect : TriageEffect K s a t) :
    AnswerInv K t := by
  induction heffect with
  | ticks elapsed => exact ⟨h.answered, h.suggested⟩
  | submits building isPrivate text path => exact ⟨h.answered, h.suggested⟩
  | moves report status hstatus => exact ⟨h.answered, h.suggested⟩
  | asks c w work candidates report hd hreport =>
    refine ⟨fun d work' ids call elapsedMs hd' => ?_, fun k r hr => ?_⟩
    · change Function.update s.phase c _ d = _ at hd'
      by_cases hdc : d = c
      · subst hdc
        rw [Function.update_self] at hd'
        cases hd'
        exact ⟨_, List.mem_cons_self, rfl, rfl, rfl, rfl⟩
      · rw [Function.update_of_ne hdc] at hd'
        obtain ⟨e, he, hrest⟩ := h.answered d work' ids call elapsedMs hd'
        exact ⟨e, List.mem_cons_of_mem _ he, hrest⟩
    · exact (h.suggested k r hr).keep fun e he => List.mem_cons_of_mem _ he
  | suggests c w work ids call elapsedMs requestId answer hd hverdict hnone hstores =>
    refine ⟨fun d work' ids' call' elapsedMs' hd' => ?_, fun k r hr => ?_⟩
    · change Function.update s.phase c _ d = _ at hd'
      by_cases hdc : d = c
      · subst hdc
        rw [Function.update_self] at hd'
        cases hd'
      · rw [Function.update_of_ne hdc] at hd'
        exact h.answered d work' ids' call' elapsedMs' hd'
    · change (s.suggestions.insert _).get? k = some r at hr
      rw [Table.get?_insert] at hr
      split at hr
      · cases hr
        obtain ⟨e, he, hjob, rfl, rfl, rfl⟩ := h.answered c work ids call elapsedMs hd
        exact ⟨e, he, hjob, requestId, answer, s.now, hverdict, hstores, by rw [hjob]⟩
      · exact h.suggested k r hr
  | loses c w a t ha heffect hclaims ih =>
    exact ih.keep rfl (fun _ he => he) c _ rfl fun _ _ _ _ heq => by cases heq
  | begins c | rests c | claims c | commits c | reads c | raises c | defers c | succeeds c
  | closes c | fails c =>
    exact h.keep rfl (fun _ he => he) c _ rfl fun _ _ _ _ heq => by cases heq

theorem answerInv_of_reaches {now : ℕ} {ok : TriageSystem C → TriageAction C → Prop}
    (h : Reaches (TriageSystem.step K) ok (TriageSystem.empty now) s) : AnswerInv K s :=
  h.preserves (AnswerInv K) (fun _ a _ hu _ hstep => hu.step (TriageEffect.of_step a hstep))
    (answerInv_empty now)

/-- **Every suggestion is the checked answer to the one request about its report**: its figures are
within their bounds, and the duplicates it names are other public reports of the building. -/
theorem suggestion_checked (K : TriageConfig) (now : ℕ) (s : TriageSystem C)
    (h : Reaches (TriageSystem.step K) Always (TriageSystem.empty now) s) (k : ℕ)
    (r : SuggestionRow) (hr : s.suggestions.get? k = some r) :
    ∃ e ∈ s.asked, e.job = r.job ∧ (∀ e' ∈ s.asked, e'.job = r.job → e' = e) ∧
      ∃ requestId answer createdAt,
        judgeTriage K e.candidateIds e.call = .suggest requestId answer ∧
          r = newSuggestion K.unicode e.job e.candidateIds requestId answer e.elapsedMs createdAt ∧
            CheckedAnswer e.candidateIds requestId answer ∧ answer.deadlineMinutes < 2 ^ 31 ∧
              ∀ d ∈ r.duplicateReportIds, ∃ report q : ℕ, ∃ row candidate : TriagedReport,
                d = q ∧ report = e.prompt.report ∧ q ≠ report ∧
                  s.reports.get? report = some row ∧ s.reports.get? q = some candidate ∧
                    candidate.building = row.building ∧ candidate.isPrivate = false := by
  obtain ⟨hinv, -, hprompts⟩ := triage_invariants h
  obtain ⟨e, he, hjob, requestId, answer, createdAt, hverdict, hstores, hrow⟩ :=
    (answerInv_of_reaches h).suggested k r hr
  have hchecked := judgeTriage_suggest K _ _ _ _ hverdict
  refine ⟨e, he, hjob, fun e' he' hjob' => ?_, requestId, answer, createdAt, hverdict, hrow,
    hchecked, ?_, fun d hd => ?_⟩
  · exact List.inj_on_of_nodup_map hinv.askedOnce he' he (hjob'.trans hjob.symm)
  · simp only [storesAnswer, Bool.and_eq_true, decide_eq_true_eq] at hstores
    exact hstores.1.1.1.1.2
  · have hprompt := hprompts.asked e he
    rw [hrow] at hd
    obtain ⟨q, hq, rfl⟩ := List.mem_map.mp (hchecked.duplicates hd)
    rw [hprompt.ids] at hq
    obtain ⟨shown, hshown, rfl⟩ := List.mem_map.mp hq
    obtain ⟨hne, row, candidate, hreport, hcandidate, hbuilding, hpublic, -⟩ :=
      hprompt.candidates.shown shown hshown
    exact ⟨e.prompt.report, shown.1, row, candidate, rfl, rfl, hne, hreport, hcandidate, hbuilding,
      hpublic⟩

/-! ## What becomes of a request -/

/-- No database error strikes a worker, and none ends in the middle. -/
def sparesWorkers (_ : TriageSystem C) : TriageAction C → Bool
  | .fail _ | .lost _ _ => false
  | _ => true

/-- A worker has the job in hand. -/
def InHand (s : TriageSystem C) (pk : ℕ) : Prop :=
  ∃ c work stage, inHand (s.phase c) = some (work, stage) ∧ work.job = pk

/-- What a request ends with cannot be written. -/
def Strands (K : TriageConfig) (e : AskedTriage) : Prop :=
  strands e.elapsedMs (judgeTriage K e.candidateIds e.call) = true

structure OutcomeInv (K : TriageConfig) (s : TriageSystem C) : Prop where
  processing : ∀ pk row, s.jobs.committed.get? pk = some row → row.status = .processing →
    InHand s pk ∨ ∃ e ∈ s.asked, e.job = pk ∧ Strands K e
  reviewed : ∀ pk row, s.jobs.committed.get? pk = some row →
    row.status = .succeeded ∨ row.status = .needsManual → (∃ c work, s.phase c = .closing work ∧
      work.job = pk) ∨ ∃ r, s.reports.get? row.report = some r ∧ r.status ≠ .submitted
  manual : ∀ pk row, s.jobs.committed.get? pk = some row → row.status = .needsManual →
    ∃ e ∈ s.asked, e.job = pk ∧ ∃ reason, judgeTriage K e.candidateIds e.call = .manual reason ∧
      storesReason reason = true ∧ row.failureReason = reason.take 255

namespace OutcomeInv

/-- A step of one worker that decides no job: what it had in hand it still has. -/
theorem keep (h : OutcomeInv K s) (c : C) (phase : TriagePhase)
    (hjobs : ∀ pk row, t.jobs.committed.get? pk = some row → row.status ≠ .pending →
      s.jobs.committed.get? pk = some row ∨ ∃ work stage, inHand phase = some (work, stage) ∧
        work.job = pk ∧ row.status = .processing)
    (hreports : ReportsKept s t) (hasked : ∀ e ∈ s.asked, e ∈ t.asked)
    (hphase : t.phase = Function.update s.phase c phase)
    (hhand : ∀ work stage, inHand (s.phase c) = some (work, stage) →
      ∃ stage', inHand phase = some (work, stage'))
    (hclosing : ∀ work, s.phase c ≠ .closing work) : OutcomeInv K t where
  processing := fun pk row hrow hstatus => by
    rcases hjobs pk row hrow (by rw [hstatus]; decide) with hold | ⟨work, stage, hwork, hjob, -⟩
    · rcases h.processing pk row hold hstatus with ⟨d, work, stage, hd, hjob⟩ | ⟨e, he, hrest⟩
      · refine .inl ⟨d, work, ?_⟩
        rw [hphase]
        by_cases hdc : d = c
        · subst hdc
          rw [Function.update_self]
          obtain ⟨stage', hstage'⟩ := hhand work stage hd
          exact ⟨stage', hstage', hjob⟩
        · rw [Function.update_of_ne hdc]
          exact ⟨stage, hd, hjob⟩
      · exact .inr ⟨e, hasked e he, hrest⟩
    · refine .inl ⟨c, work, stage, ?_, hjob⟩
      rw [hphase, Function.update_self]
      exact hwork
  reviewed := fun pk row hrow hstatus => by
    rcases hjobs pk row hrow (by rcases hstatus with heq | heq <;> rw [heq] <;> decide) with
      hold | ⟨-, -, -, -, hprocessing⟩
    · rcases h.reviewed pk row hold hstatus with ⟨d, work, hd, hjob⟩ | ⟨r, hr, hmoved⟩
      · refine .inl ⟨d, work, ?_, hjob⟩
        rw [hphase, Function.update_of_ne, hd]
        rintro rfl
        exact hclosing work hd
      · obtain ⟨r', hr', hlater⟩ := hreports _ r hr
        exact .inr ⟨r', hr', fun hsubmitted => hmoved (hlater.submitted hsubmitted)⟩
    · rcases hstatus with heq | heq <;> rw [heq] at hprocessing <;> cases hprocessing
  manual := fun pk row hrow hstatus => by
    rcases hjobs pk row hrow (by rw [hstatus]; decide) with hold | ⟨-, -, -, -, hprocessing⟩
    · obtain ⟨e, he, hrest⟩ := h.manual pk row hold hstatus
      exact ⟨e, hasked e he, hrest⟩
    · rw [hstatus] at hprocessing
      cases hprocessing

omit [DecidableEq C] in
/-- A step that is none of a worker. -/
theorem outside (h : OutcomeInv K s)
    (hjobs : ∀ pk row, t.jobs.committed.get? pk = some row → row.status ≠ .pending →
      s.jobs.committed.get? pk = some row)
    (hreports : ReportsKept s t) (hasked : t.asked = s.asked) (hphase : t.phase = s.phase) :
    OutcomeInv K t where
  processing := fun pk row hrow hstatus => by
    have hold := hjobs pk row hrow (by rw [hstatus]; decide)
    rw [InHand, hasked, hphase]
    exact h.processing pk row hold hstatus
  reviewed := fun pk row hrow hstatus => by
    have hold := hjobs pk row hrow (by rcases hstatus with heq | heq <;> rw [heq] <;> decide)
    rw [hphase]
    rcases h.reviewed pk row hold hstatus with hclosing | ⟨r, hr, hmoved⟩
    · exact .inl hclosing
    · obtain ⟨r', hr', hlater⟩ := hreports _ r hr
      exact .inr ⟨r', hr', fun hsubmitted => hmoved (hlater.submitted hsubmitted)⟩
  manual := fun pk row hrow hstatus => by
    rw [hasked]
    exact h.manual pk row (hjobs pk row hrow (by rw [hstatus]; decide)) hstatus

/-- A worker decides the job it has in hand. -/
theorem decides (h : OutcomeInv K s) (c : C) (work : TriageWork) (stage : TriageStage)
    (hd : inHand (s.phase c) = some (work, stage)) (hstage : stage = .asked ∨ stage = .suggested)
    (f : TriageJob → TriageJob)
    (hmanual : ∀ row, (f row).status = .needsManual → ∃ e ∈ s.asked, e.job = work.job ∧
      ∃ reason, judgeTriage K e.candidateIds e.call = .manual reason ∧
        storesReason reason = true ∧ (f row).failureReason = reason.take 255)
    (hclosed : ∀ row, (f row).status ≠ .processing) :
    OutcomeInv K ((s.saveJob work f).setPhase c (.closing work)) := by
  have hother : ∀ q, q ≠ work.job →
      (s.saveJob work f).jobs.committed.get? q = s.jobs.committed.get? q :=
    fun q hq => Table.get?_update_ne _ _ _ _ hq
  have hself : ∀ row, (s.saveJob work f).jobs.committed.get? work.job = some row →
      ∃ old, row = f old := by
    intro row hrow
    change (s.jobs.committed.update work.job f).get? work.job = some row at hrow
    rw [Table.get?_update_self] at hrow
    obtain ⟨old, -, rfl⟩ := Option.map_eq_some_iff.mp hrow
    exact ⟨old, rfl⟩
  have hphase : ∀ d, d ≠ c → Function.update s.phase c (.closing work) d = s.phase d :=
    fun d hdc => Function.update_of_ne hdc _ _
  refine ⟨fun pk row hrow hstatus => ?_, fun pk row hrow hstatus => ?_,
    fun pk row hrow hstatus => ?_⟩
  · by_cases hpk : pk = work.job
    · subst hpk
      obtain ⟨old, rfl⟩ := hself row hrow
      exact absurd hstatus (hclosed old)
    · rcases h.processing pk row ((hother pk hpk).symm.trans hrow) hstatus with
        ⟨d, work', stage', hd', hjob⟩ | hasked
      · refine .inl ⟨d, work', stage', ?_, hjob⟩
        refine (congrArg inHand (hphase d ?_)).trans hd'
        rintro rfl
        rw [hd] at hd'
        cases hd'
        exact hpk hjob.symm
      · exact .inr hasked
  · by_cases hpk : pk = work.job
    · exact .inl ⟨c, work, Function.update_self .., hpk.symm⟩
    · rcases h.reviewed pk row ((hother pk hpk).symm.trans hrow) hstatus with
        ⟨d, work', hd', hjob⟩ | hmoved
      · refine .inl ⟨d, work', (hphase d ?_).trans hd', hjob⟩
        rintro rfl
        rw [hd'] at hd
        rcases hstage with rfl | rfl <;> cases hd
      · exact .inr hmoved
  · by_cases hpk : pk = work.job
    · subst hpk
      obtain ⟨old, rfl⟩ := hself row hrow
      exact hmanual old hstatus
    · exact h.manual pk row ((hother pk hpk).symm.trans hrow) hstatus

/-- The report of a decided job is in review. -/
theorem closes (h : OutcomeInv K s) (hinv : TriageInv s) (hreports : ReportInv s) (c : C)
    (work : TriageWork) (hd : s.phase c = .closing work) (batch : TriageBatch) :
    OutcomeInv K ((s.reviewReport work.row.report).setPhase c (.looping batch)) := by
  have hhand : inHand (s.phase c) = some (work, .closing) := by rw [hd]; rfl
  obtain ⟨row₀, hrow₀, hreport, hallowed⟩ := hinv.works c work .closing hhand
  have hkept : ReportsKept s (s.reviewReport work.row.report) := by
    refine .of_update work.row.report _ rfl fun r => ?_
    split
    · exact LaterReport.move r .inReview (by decide)
    · exact LaterReport.refl r
  have hphase : ∀ d, d ≠ c → Function.update s.phase c (.looping batch) d = s.phase d :=
    fun d hdc => Function.update_of_ne hdc _ _
  refine ⟨fun pk row hrow hstatus => ?_, fun pk row hrow hstatus => ?_, h.manual⟩
  · rcases h.processing pk row hrow hstatus with ⟨d, work', stage, hd', hjob⟩ | hasked
    · refine .inl ⟨d, work', stage, (congrArg inHand (hphase d ?_)).trans hd', hjob⟩
      rintro rfl
      rw [hhand] at hd'
      cases hd'
      rw [hjob, show s.jobs.committed.get? pk = some row from hrow] at hrow₀
      cases hrow₀
      rw [hstatus] at hallowed
      cases hallowed
    · exact .inr hasked
  · rcases h.reviewed pk row hrow hstatus with ⟨d, work', hd', hjob⟩ | ⟨r, hr, hmoved⟩
    · by_cases hdc : d = c
      · subst hdc
        rw [hd] at hd'
        cases hd'
        rw [hjob, show s.jobs.committed.get? pk = some row from hrow] at hrow₀
        cases hrow₀
        obtain ⟨r, hr⟩ := hreports.report pk row₀ hrow
        refine .inr ⟨if r.status = .submitted then { r with status := .inReview } else r, ?_, ?_⟩
        · change (s.reports.update work.row.report _).get? row₀.report = _
          rw [hreport, Table.get?_update_self, ← hreport, hr]
          rfl
        · split
          · exact fun heq => by cases heq
          · next hne => exact hne
      · exact .inl ⟨d, work', (hphase d hdc).trans hd', hjob⟩
    · obtain ⟨r', hr', hlater⟩ := hkept _ r hr
      exact .inr ⟨r', hr', fun hsubmitted => hmoved (hlater.submitted hsubmitted)⟩

/-- A worker raises: what its request ended with cannot be written. -/
theorem raises (h : OutcomeInv K s) (hinv : TriageInv s) (hanswers : AnswerInv K s) (c : C)
    (work : TriageWork) (ids : List ℕ) (call : TriageCall) (elapsedMs : ℕ)
    (hd : s.phase c = .answered work ids call elapsedMs)
    (hraises : s.suggestions.any (fun r => r.job = work.job) = true ∨
      strands elapsedMs (judgeTriage K ids call) = true) :
    OutcomeInv K (s.setPhase c (.ended false 0)) := by
  have hhand : inHand (s.phase c) = some (work, .asked) := by rw [hd]; rfl
  obtain ⟨e, he, hjob, rfl, rfl, rfl⟩ := hanswers.answered c work ids call elapsedMs hd
  have hstrands : Strands K e := by
    rcases hraises with hany | hstrands
    · obtain ⟨k, r, hr, hsame⟩ := (Table.any_eq_true _ _).mp hany
      exact absurd (of_decide_eq_true hsame) (hinv.unsuggested c work .asked hhand (.inr rfl) k r hr)
    · exact hstrands
  have hphase : ∀ d, d ≠ c → Function.update s.phase c (.ended false 0) d = s.phase d :=
    fun d hdc => Function.update_of_ne hdc _ _
  refine ⟨fun pk row hrow hstatus => ?_, fun pk row hrow hstatus => ?_, h.manual⟩
  · rcases h.processing pk row hrow hstatus with ⟨d, work', stage, hd', hsame⟩ | hasked
    · by_cases hdc : d = c
      · subst hdc
        rw [hhand] at hd'
        cases hd'
        exact .inr ⟨e, he, hjob.trans hsame, hstrands⟩
      · exact .inl ⟨d, work', stage, (congrArg inHand (hphase d hdc)).trans hd', hsame⟩
    · exact .inr hasked
  · rcases h.reviewed pk row hrow hstatus with ⟨d, work', hd', hsame⟩ | hmoved
    · refine .inl ⟨d, work', (hphase d ?_).trans hd', hsame⟩
      rintro rfl
      rw [hd] at hd'
      cases hd'
    · exact .inr hmoved

theorem step {a : TriageAction C} (h : OutcomeInv K s) (hinv : TriageInv s) (hreports : ReportInv s)
    (hanswers : AnswerInv K s) (heffect : TriageEffect K s a t) (hspares : sparesWorkers s a = true) :
    OutcomeInv K t := by
  have hkept := heffect.reportsKept
  cases heffect with
  | ticks elapsed => exact h.outside (fun _ _ hrow _ => hrow) hkept rfl rfl
  | submits building isPrivate text path =>
    refine h.outside (fun pk row hrow hstatus => ?_) hkept rfl rfl
    change (s.jobs.committed.insert _).get? pk = some row at hrow
    rw [Table.get?_insert] at hrow
    split at hrow
    · cases hrow
      exact absurd rfl hstatus
    · exact hrow
  | moves report status hstatus => exact h.outside (fun _ _ hrow _ => hrow) hkept rfl rfl
  | begins c target limit hbusy =>
    refine h.keep c _ (fun _ _ hrow _ => .inl hrow) hkept (fun _ he => he) rfl (fun work stage hd => ?_) fun work hd => ?_
    · unfold TriageSystem.busy at hbusy
      split at hbusy
      · next hidle =>
        rw [hidle] at hd
        cases hd
      · next hended =>
        rw [hended] at hd
        cases hd
      · cases hbusy
    · simp [TriageSystem.busy, hd] at hbusy
  | rests c w batch hd =>
    refine h.keep c _ (fun _ _ hrow _ => .inl hrow) hkept (fun _ he => he) rfl (fun work stage hd' => ?_) fun work hd' => ?_ <;>
    · rw [hd] at hd'
      cases hd'
  | claims c w batch job row hd hleft hrow hpending hfree =>
    have hsame : ∀ pk row', (s.jobs.write c job (some (claimedRow s.now row))).committed.get? pk =
        some row' → s.jobs.committed.get? pk = some row' :=
      fun pk row' hrow' => (s.jobs.get?_write_committed c job _ pk).symm.trans hrow'
    refine h.keep c _ (fun pk row' hrow' _ => .inl (hsame pk row' hrow')) hkept (fun _ he => he) rfl (fun work stage hd' => ?_)
      fun work hd' => ?_ <;>
    · rw [hd] at hd'
      cases hd'
  | commits c work hd =>
    obtain ⟨work₀, row₀, hphase₀, -, -, -, -, hprocessing, -⟩ :=
      hinv.pending _ _ (hinv.claiming c work hd)
    rw [hd] at hphase₀
    cases hphase₀
    refine h.keep c _ (fun pk row' hrow' _ => ?_) hkept (fun _ he => he)
      rfl (fun work' stage hd' => ?_) fun work' hd' => ?_
    · change (s.jobs.commit c).committed.get? pk = some row' at hrow'
      rw [hinv.get?_commit_of_claim work hd] at hrow'
      split at hrow'
      · next hpk =>
        cases hrow'
        exact .inr ⟨work, .unasked, rfl, hpk.symm, hprocessing⟩
      · exact .inl hrow'
    · rw [hd] at hd'
      cases hd'
    · rw [hd] at hd'
      cases hd'
  | reads c w work report hd hreport hranked =>
    refine h.keep c _ (fun _ _ hrow _ => .inl hrow) hkept (fun _ he => he) rfl (fun work' stage hd' => ?_) fun work' hd' => ?_
    · rw [hd] at hd'
      cases hd'
      exact ⟨.unasked, rfl⟩
    · rw [hd] at hd'
      cases hd'
  | asks c w work candidates report hd hreport =>
    refine h.keep c _ (fun _ _ hrow _ => .inl hrow) hkept (fun _ he => List.mem_cons_of_mem _ he)
      rfl (fun work' stage hd' => ?_) fun work' hd' => ?_
    · rw [hd] at hd'
      cases hd'
      exact ⟨.asked, rfl⟩
    · rw [hd] at hd'
      cases hd'
  | raises c w work ids call elapsedMs hd hraises =>
    exact h.raises hinv hanswers c work ids call elapsedMs hd hraises
  | defers c w work ids call elapsedMs reason hd hverdict hstores =>
    obtain ⟨e₀, he₀, hjob₀, rfl, rfl, rfl⟩ := hanswers.answered c work ids call elapsedMs hd
    exact h.decides c work .asked (by rw [hd]; rfl) (.inl rfl) _
      (fun row hrow => ⟨e₀, he₀, hjob₀, reason, hverdict, hstores, rfl⟩)
      fun row hstatus => by cases hstatus
  | suggests c w work ids call elapsedMs requestId answer hd hverdict hnone hstores =>
    refine h.keep c _ (fun _ _ hrow _ => .inl hrow) hkept (fun _ he => he) rfl (fun work' stage hd' => ?_) fun work' hd' => ?_
    · rw [hd] at hd'
      cases hd'
      exact ⟨.suggested, rfl⟩
    · rw [hd] at hd'
      cases hd'
  | succeeds c w work hd =>
    exact h.decides c work .suggested (by rw [hd]; rfl) (.inr rfl) _
      (fun row hrow => by cases hrow) fun row hstatus => by cases hstatus
  | closes c w work hd => exact h.closes hinv hreports c work hd _
  | fails c hbusy => cases hspares
  | loses c w a t ha heffect hclaims => cases hspares

end OutcomeInv

/-- `json.loads` of texts without lone surrogates, and a similarity that knows equal texts. -/
def sampleTriage : TriageConfig where
  unicode := asciiUnicode
  loads t := (scalarLoads t).mapError fun _ => .decode (pyText "Expecting value")
  loadsBytes raw :=
    match Utf8.decode raw with
    | some t => (scalarLoads (t.map Char.toNat)).mapError fun _ => .decode (pyText "Expecting value")
    | none => .error (.decode (pyText "invalid start byte"))
  similarity s t := if s = t then 1 else 0

/-- An answer with a deadline. -/
def triageContent (deadline : ℤ) : Json :=
  .obj [("category".toList, .str "water leak".toList),
    ("interpreted_location".toList, .str "roof".toList), ("urgency".toList, .str "HIGH".toList),
    ("confidence_percent".toList, .int 90), ("requires_manual_review".toList, .bool false),
    ("duplicate_report_ids".toList, .arr [.int 2]),
    ("management_queue".toList, .str "PLUMBING".toList),
    ("deadline_minutes".toList, .int deadline), ("missing_information".toList, .arr [])]

def triageEnvelope (deadline : ℤ) : Json :=
  .obj [("id".toList, .str "a".toList), ("choices".toList, .arr [.obj [("message".toList,
    .obj [("content".toList, .str (Json.render (triageContent deadline)))])]])]

def leakReport : TriagedReport := ⟨1, false, .submitted, "leak".toList, "B".toList⟩

/-- What the worker is told: the other report, and an answer that names it. -/
def triageTold (deadline : ℤ) : TriageAnswers :=
  ⟨[], [(2, leakReport)], .answered (Utf8.encode (Json.render (triageEnvelope deadline))), 5⟩

/-- Two reports of one leak, and a pass over the first one. -/
def triagePass (deadline : ℤ) : List (TriageAction Bool) :=
  [.submit 1 false "leak".toList "B".toList, .submit 1 false "leak".toList "B".toList,
    .begin false none 1, .next false (triageTold deadline), .commit false] ++
      List.replicate 5 (.next false (triageTold deadline))

def leakAnswer : TriageAnswer :=
  ⟨pyText "water leak", pyText "roof", .high, 90, false, [2], pyText "PLUMBING", 60, []⟩

/-- The suggestion that is stored. -/
def leakSuggestion : SuggestionRow :=
  newSuggestion asciiUnicode 1 [2] (pyText "a") leakAnswer 5 0

/-- The pass stores the suggestion, and puts the job down. -/
theorem leak_triaged : ∃ s : TriageSystem Bool,
    Reaches (TriageSystem.step sampleTriage) (fun u a => sparesWorkers u a = true)
      (TriageSystem.empty 0) s ∧
      (∃ row, s.jobs.committed.get? 1 = some row ∧ row.status = .succeeded) ∧
        s.suggestions.get? 1 = some leakSuggestion ∧ ∀ c, inHand (s.phase c) = none := by
  obtain ⟨s, hreach, hstatus, hsuggestion, hhand⟩ := exists_of_run
    (guarded (TriageSystem.step sampleTriage) fun u a => sparesWorkers u a = true)
    (TriageSystem.empty 0 : TriageSystem Bool)
    (fun s => (s.jobs.committed.get? 1).any (fun row => row.status = .succeeded) = true ∧
      s.suggestions.get? 1 = some leakSuggestion ∧ ∀ c, (inHand (s.phase c)).isNone = true)
    (triagePass 60) (by decide +kernel)
  obtain ⟨row, hrow, hsucceeded⟩ := (Option.any_eq_true _ _).mp hstatus
  exact ⟨s, hreach.of_guarded, ⟨row, hrow, of_decide_eq_true hsucceeded⟩, hsuggestion,
    fun c => Option.isNone_iff_eq_none.mp (hhand c)⟩

/-- The job that is done has one suggestion. -/
theorem triage_once_leak : ∃ s : TriageSystem Bool,
    (s.asked.map fun e => e.prompt.report).Nodup ∧ s.suggestions.get? 1 = some leakSuggestion ∧
      ∀ k r, s.suggestions.get? k = some r → r.job = 1 → k = 1 := by
  obtain ⟨s, hreach, ⟨row, hrow, -⟩, hsuggestion, -⟩ := leak_triaged
  obtain ⟨hnodup, hjobs⟩ := triage_once sampleTriage 0 s hreach.always
  exact ⟨s, hnodup, hsuggestion, fun k r hr hjob =>
    (hjobs 1 row hrow).1 k 1 r leakSuggestion hr hsuggestion hjob rfl⟩

theorem suggestion_checked_leak : ∃ (s : TriageSystem Bool) (e : AskedTriage), e ∈ s.asked ∧
    e.job = 1 ∧ ∃ requestId answer createdAt,
      judgeTriage sampleTriage e.candidateIds e.call = .suggest requestId answer ∧
        leakSuggestion = newSuggestion asciiUnicode e.job e.candidateIds requestId answer e.elapsedMs
          createdAt := by
  obtain ⟨s, hreach, -, hsuggestion, -⟩ := leak_triaged
  obtain ⟨e, he, hjob, -, requestId, answer, createdAt, hverdict, hrow, -⟩ :=
    suggestion_checked sampleTriage 0 s hreach.always 1 leakSuggestion hsuggestion
  exact ⟨s, e, he, hjob, requestId, answer, createdAt, hverdict, hrow⟩

/-- The prompt shows the other report, which is public. -/
theorem prompts_public_leak : ∃ (s : TriageSystem Bool) (e : AskedTriage), e ∈ s.asked ∧
    PromptOf s e := by
  obtain ⟨s, hreach, -, hsuggestion, -⟩ := leak_triaged
  obtain ⟨e, he, -⟩ := (answerInv_of_reaches hreach).suggested 1 leakSuggestion hsuggestion
  exact ⟨s, e, he, prompts_public sampleTriage 0 s hreach.always e he⟩

/-- A deadline that no column holds is accepted, and strands the job. -/
example : (judgeTriage sampleTriage [2]
    (.answered (Utf8.encode (Json.render (triageEnvelope (2 ^ 31)))))) =
      .suggest (pyText "a") { leakAnswer with deadlineMinutes := 2 ^ 31 } ∧
    strands 5 (.suggest (pyText "a") { leakAnswer with deadlineMinutes := 2 ^ 31 }) = true := by
  decide +kernel

end LamTo.Analysis
