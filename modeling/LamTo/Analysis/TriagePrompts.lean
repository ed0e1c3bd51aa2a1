import LamTo.Analysis.TriageOnce

/-!
# What the provider is shown

A report keeps its building, its text and its privacy, whatever happens to its status. So what was
true of a candidate when it was read is true of it for good: a prompt shows the report it is about
and at most five other public reports of the same building, cut to their bounds.

SOURCE: src/lamto/maintenance/ai.py:37-38, 164-186, src/lamto/maintenance/candidates.py
-/

set_option autoImplicit false

namespace LamTo.Analysis

open LamTo.Library LamTo.Library.Versions LamTo.Model

/-- A report later on: only its status has moved, and never back to `SUBMITTED`. -/
structure LaterReport (r r' : TriagedReport) : Prop where
  building : r'.building = r.building
  isPrivate : r'.isPrivate = r.isPrivate
  text : r'.text = r.text
  path : r'.locationPathSnapshot = r.locationPathSnapshot
  submitted : r'.status = .submitted → r.status = .submitted

theorem LaterReport.refl (r : TriagedReport) : LaterReport r r := ⟨rfl, rfl, rfl, rfl, id⟩

theorem LaterReport.move (r : TriagedReport) (status : ReportStatus) (h : status ≠ .submitted) :
    LaterReport r { r with status } :=
  ⟨rfl, rfl, rfl, rfl, fun hstatus => absurd hstatus h⟩

variable {C : Type}

/-- Every report is still there. -/
def ReportsKept (s t : TriageSystem C) : Prop :=
  ∀ k r, s.reports.get? k = some r → ∃ r', t.reports.get? k = some r' ∧ LaterReport r r'

theorem ReportsKept.of_eq {s t : TriageSystem C} (h : t.reports = s.reports) : ReportsKept s t :=
  fun _ r hr => ⟨r, by rw [h]; exact hr, LaterReport.refl r⟩

theorem ReportsKept.of_update {s t : TriageSystem C} (report : ℕ) (f : TriagedReport → TriagedReport)
    (h : t.reports = s.reports.update report f) (hf : ∀ r, LaterReport r (f r)) :
    ReportsKept s t := by
  intro k r hr
  rw [h]
  by_cases hk : k = report
  · subst hk
    rw [Table.get?_update_self, hr]
    exact ⟨f r, rfl, hf r⟩
  · rw [Table.get?_update_ne _ _ _ _ hk]
    exact ⟨r, hr, LaterReport.refl r⟩

/-- Every job has a report of its own. -/
structure ReportInv (s : TriageSystem C) : Prop where
  report : ∀ pk row, s.jobs.committed.get? pk = some row → ∃ r, s.reports.get? row.report = some r
  apart : ∀ pk pk' row row', s.jobs.committed.get? pk = some row →
    s.jobs.committed.get? pk' = some row' → row.report = row'.report → pk = pk'

theorem reportInv_empty (now : ℕ) : ReportInv (TriageSystem.empty now : TriageSystem C) :=
  ⟨(fun _ _ h => by cases h), fun _ _ _ _ h => by cases h⟩

/-- A candidate as a prompt shows it. -/
def shownCandidate (c : ℕ × TriagedReport) : ℕ × Text × Text :=
  (c.1, c.2.text.take 1000, c.2.locationPathSnapshot)

/-- The candidates are other public reports of the building, no more than five. -/
structure PublicCandidates (s : TriageSystem C) (report : ℕ) (candidates : List (ℕ × Text × Text)) :
    Prop where
  few : candidates.length ≤ 5
  distinct : (candidates.map Prod.fst).Nodup
  shown : ∀ c ∈ candidates, c.1 ≠ report ∧ ∃ r q, s.reports.get? report = some r ∧
    s.reports.get? c.1 = some q ∧ q.building = r.building ∧ q.isPrivate = false ∧
      c.2.1 = q.text.take 1000 ∧ c.2.2 = q.locationPathSnapshot

/-- A prompt is about its report and shows public candidates. -/
structure PromptOf (s : TriageSystem C) (e : AskedTriage) : Prop where
  candidates : PublicCandidates s e.prompt.report e.prompt.candidates
  ids : e.candidateIds = e.prompt.candidates.map Prod.fst
  report : ∃ r, s.reports.get? e.prompt.report = some r ∧ e.prompt.text = r.text.take 4000 ∧
    e.prompt.locationPathSnapshot = r.locationPathSnapshot

structure PromptInv (s : TriageSystem C) : Prop where
  reading : ∀ c work candidates, s.phase c = .asking work candidates →
    PublicCandidates s work.row.report (candidates.map shownCandidate)
  asked : ∀ e ∈ s.asked, PromptOf s e

theorem promptInv_empty (now : ℕ) : PromptInv (TriageSystem.empty now : TriageSystem C) :=
  ⟨(fun _ _ _ h => by cases h), fun _ h => by cases h⟩

section Kept

variable {s t : TriageSystem C}

theorem PublicCandidates.keep {report : ℕ} {candidates : List (ℕ × Text × Text)}
    (h : PublicCandidates s report candidates) (hkept : ReportsKept s t) :
    PublicCandidates t report candidates where
  few := h.few
  distinct := h.distinct
  shown := fun c hc => by
    obtain ⟨hne, r, q, hr, hq, hbuilding, hpublic, htext, hpath⟩ := h.shown c hc
    obtain ⟨r', hr', hlater⟩ := hkept report r hr
    obtain ⟨q', hq', hlater'⟩ := hkept c.1 q hq
    refine ⟨hne, r', q', hr', hq', ?_, hlater'.isPrivate.trans hpublic, ?_, ?_⟩
    · rw [hlater'.building, hlater.building, hbuilding]
    · rw [hlater'.text, htext]
    · rw [hlater'.path, hpath]

theorem PromptOf.keep {e : AskedTriage} (h : PromptOf s e) (hkept : ReportsKept s t) :
    PromptOf t e where
  candidates := h.candidates.keep hkept
  ids := h.ids
  report := by
    obtain ⟨r, hr, htext, hpath⟩ := h.report
    obtain ⟨r', hr', hlater⟩ := hkept _ r hr
    exact ⟨r', hr', by rw [hlater.text, htext], by rw [hlater.path, hpath]⟩

/-- A step that asks nobody and reads no candidates. -/
theorem PromptInv.keep (h : PromptInv s) (hkept : ReportsKept s t) (hasked : t.asked = s.asked)
    (hreading : ∀ c work candidates, t.phase c = .asking work candidates →
      s.phase c = .asking work candidates) : PromptInv t where
  reading := fun c work candidates hd => (h.reading c work candidates (hreading _ _ _ hd)).keep hkept
  asked := fun e he => by
    rw [hasked] at he
    exact (h.asked e he).keep hkept

end Kept

variable [DecidableEq C] {K : TriageConfig} {s t : TriageSystem C}

theorem TriageEffect.reportsKept {a : TriageAction C} (heffect : TriageEffect K s a t) :
    ReportsKept s t := by
  induction heffect with
  | submits building isPrivate text path =>
    exact fun k r hr => ⟨r, Table.get?_insert_of_some _ _ _ _ hr, LaterReport.refl r⟩
  | moves report status hstatus =>
    exact .of_update report _ rfl fun r => LaterReport.move r status hstatus
  | closes c w work hd =>
    refine .of_update work.row.report _ rfl fun r => ?_
    split
    · exact LaterReport.move r .inReview (by decide)
    · exact LaterReport.refl r
  | loses c w a t ha heffect hclaims ih => exact ih
  | _ => exact .of_eq rfl

/-- A job has the report it had, or is the one of a new report. -/
theorem TriageEffect.job_origin {a : TriageAction C} (heffect : TriageEffect K s a t)
    (h : TriageInv s) (pk : ℕ) (row' : TriageJob) (hrow' : t.jobs.committed.get? pk = some row') :
    (∃ row, s.jobs.committed.get? pk = some row ∧ row'.report = row.report) ∨
      pk = s.jobs.committed.next ∧ row'.report = s.reports.next ∧
        ∃ r, t.reports.get? row'.report = some r := by
  have hsaved : ∀ (work : TriageWork) (f : TriageJob → TriageJob),
      (∀ row, (f row).report = row.report) →
      (s.jobs.committed.update work.job f).get? pk = some row' →
        ∃ row, s.jobs.committed.get? pk = some row ∧ row'.report = row.report := by
    intro work f hf hrow
    by_cases hpk : pk = work.job
    · subst hpk
      rw [Table.get?_update_self] at hrow
      obtain ⟨row, hold, rfl⟩ := Option.map_eq_some_iff.mp hrow
      exact ⟨row, hold, hf row⟩
    · rw [Table.get?_update_ne _ _ _ _ hpk] at hrow
      exact ⟨row', hrow, rfl⟩
  induction heffect with
  | submits building isPrivate text path =>
    change (s.jobs.committed.insert _).get? pk = some row' at hrow'
    rw [Table.get?_insert] at hrow'
    split at hrow'
    · next hpk =>
      cases hrow'
      exact .inr ⟨hpk, rfl, _, Table.get?_insert_self _ _⟩
    · exact .inl ⟨row', hrow', rfl⟩
  | claims c w batch job row hd hleft hrow hpending hfree =>
    exact .inl ⟨row', (s.jobs.get?_write_committed c job _ pk).symm.trans hrow', rfl⟩
  | commits c work hd =>
    change (s.jobs.commit c).committed.get? pk = some row' at hrow'
    rw [h.get?_commit_of_claim work hd] at hrow'
    split at hrow'
    · next hpk =>
      cases hrow'
      obtain ⟨work', row, hphase, -, -, hrow, -, -, hreport⟩ := h.pending _ _ (h.claiming c work hd)
      rw [hd] at hphase
      cases hphase
      exact .inl ⟨row, hpk ▸ hrow, hreport⟩
    · exact .inl ⟨row', hrow', rfl⟩
  | defers c w work ids call elapsedMs reason hd hverdict hstores =>
    refine .inl (hsaved work _ (fun _ => ?_) hrow')
    rfl
  | succeeds c w work hd =>
    refine .inl (hsaved work _ (fun _ => ?_) hrow')
    rfl
  | loses c w a t ha heffect hclaims ih => exact ih hrow'
  | ticks | moves | begins | rests | reads | asks | raises | suggests | closes | fails =>
    exact .inl ⟨row', hrow', rfl⟩

theorem ReportInv.step {a : TriageAction C} (hreports : ReportInv s) (h : TriageInv s)
    (heffect : TriageEffect K s a t) : ReportInv t where
  report := fun pk row hrow => by
    rcases heffect.job_origin h pk row hrow with ⟨old, hold, hsame⟩ | ⟨-, -, r, hr⟩
    · obtain ⟨r, hr⟩ := hreports.report pk old hold
      obtain ⟨r', hr', -⟩ := heffect.reportsKept _ r hr
      exact ⟨r', by rw [hsame]; exact hr'⟩
    · exact ⟨r, hr⟩
  apart := fun pk pk' row row' hrow hrow' hsame => by
    have hbelow : ∀ q old, s.jobs.committed.get? q = some old → old.report ≠ s.reports.next := by
      rintro q old hold heq
      obtain ⟨r, hr⟩ := hreports.report q old hold
      rw [heq, s.reports.get?_next] at hr
      cases hr
    rcases heffect.job_origin h pk row hrow with ⟨old, hold, heq⟩ | ⟨hpk, heq, -⟩
    · rcases heffect.job_origin h pk' row' hrow' with ⟨old', hold', heq'⟩ | ⟨-, heq', -⟩
      · exact hreports.apart pk pk' old old' hold hold' (by rw [← heq, ← heq', hsame])
      · exact absurd (by rw [← heq, hsame, heq']) (hbelow pk old hold)
    · rcases heffect.job_origin h pk' row' hrow' with ⟨old', hold', heq'⟩ | ⟨hpk', -, -⟩
      · exact absurd (by rw [← heq', ← hsame, heq]) (hbelow pk' old' hold')
      · exact hpk.trans hpk'.symm

omit [DecidableEq C] in
/-- The first five of the candidates are public candidates. -/
theorem publicCandidates_of_ranked (pk : ℕ) (report : TriagedReport)
    (hreport : s.reports.get? pk = some report) (ranked : List (ℕ × TriagedReport))
    (hranked : ranksCandidates K s.reports pk report ranked = true) :
    PublicCandidates s pk ((ranked.take 5).map shownCandidate) := by
  simp only [ranksCandidates, Bool.and_eq_true, List.isPerm_iff] at hranked
  have hperm := hranked.1
  have hfst : ∀ l : List (ℕ × TriagedReport),
      (l.map shownCandidate).map Prod.fst = l.map Prod.fst := by
    intro l
    rw [List.map_map]
    rfl
  refine ⟨?_, ?_, fun c hc => ?_⟩
  · rw [List.length_map]
    exact List.length_take_le _ _
  · rw [hfst]
    have hall : (ranked.map Prod.fst).Nodup :=
      (hperm.map Prod.fst).nodup_iff.mpr (s.reports.keys_nodup.sublist
        ((List.filter_sublist).map Prod.fst))
    exact hall.sublist ((List.take_sublist 5 ranked).map Prod.fst)
  · obtain ⟨⟨k, q⟩, hmem, rfl⟩ := List.mem_map.mp hc
    have hfilter := hperm.mem_iff.mp (List.mem_of_mem_take hmem)
    obtain ⟨hrow, hcandidate⟩ := List.mem_filter.mp hfilter
    simp only [isCandidate, Bool.and_eq_true, decide_eq_true_eq, Bool.not_eq_true'] at hcandidate
    obtain ⟨⟨⟨⟨-, hbuilding⟩, hne⟩, hpublic⟩, -⟩ := hcandidate
    exact ⟨hne, report, q, hreport, (Table.get?_eq_some _ _ _).mpr hrow, hbuilding, hpublic, rfl,
      rfl⟩

theorem PromptInv.step {a : TriageAction C} (h : PromptInv s) (heffect : TriageEffect K s a t) :
    PromptInv t := by
  have hkept := heffect.reportsKept
  have hother : ∀ (c : C) (phase : TriagePhase), (∀ work candidates, phase ≠ .asking work candidates) →
      ∀ d work candidates, Function.update s.phase c phase d = .asking work candidates →
        s.phase d = .asking work candidates := by
    intro c phase hphase d work candidates hd
    by_cases hdc : d = c
    · subst hdc
      rw [Function.update_self] at hd
      exact absurd hd (hphase work candidates)
    · rwa [Function.update_of_ne hdc] at hd
  induction heffect with
  | ticks elapsed => exact h.keep hkept rfl fun _ _ _ hd => hd
  | submits building isPrivate text path => exact h.keep hkept rfl fun _ _ _ hd => hd
  | moves report status hstatus => exact h.keep hkept rfl fun _ _ _ hd => hd
  | reads c w work report hd hreport hranked =>
    refine ⟨fun d work' candidates hd' => ?_, fun e he => (h.asked e he).keep hkept⟩
    change Function.update s.phase c _ d = _ at hd'
    by_cases hdc : d = c
    · subst hdc
      rw [Function.update_self] at hd'
      cases hd'
      exact (publicCandidates_of_ranked _ report hreport _ hranked).keep hkept
    · rw [Function.update_of_ne hdc] at hd'
      exact (h.reading d work' candidates hd').keep hkept
  | asks c w work candidates report hd hreport =>
    refine ⟨fun d work' candidates' hd' => ?_, fun e he => ?_⟩
    · exact (h.reading d work' candidates' (hother c _ (fun _ _ heq => by cases heq) _ _ _ hd')).keep
        hkept
    · rcases List.mem_cons.mp he with rfl | hold
      · have hcandidates := (h.reading c work candidates hd).keep hkept
        refine ⟨hcandidates, ?_, report, hreport, rfl, rfl⟩
        show candidates.map Prod.fst = (candidates.map shownCandidate).map Prod.fst
        rw [List.map_map]
        rfl
      · exact (h.asked e hold).keep hkept
  | loses c w a t ha heffect hclaims ih =>
    have ht := ih heffect.reportsKept
    refine ht.keep (.of_eq rfl) rfl fun d work candidates hd => ?_
    change Function.update t.phase c _ d = _ at hd
    by_cases hdc : d = c
    · subst hdc
      rw [Function.update_self] at hd
      cases hd
    · rwa [Function.update_of_ne hdc] at hd
  | begins c | rests c | claims c | commits c | raises c | defers c | suggests c | succeeds c
  | closes c | fails c =>
    exact h.keep hkept rfl (hother c _ fun _ _ heq => by cases heq)

/-- What the runs of triage keep. -/
theorem triage_invariants {now : ℕ} {ok : TriageSystem C → TriageAction C → Prop}
    (h : Reaches (TriageSystem.step K) ok (TriageSystem.empty now) s) :
    TriageInv s ∧ ReportInv s ∧ PromptInv s :=
  h.preserves (fun u => TriageInv u ∧ ReportInv u ∧ PromptInv u)
    (fun _ a _ hu _ hstep => by
      have heffect := TriageEffect.of_step a hstep
      exact ⟨hu.1.step heffect, hu.2.1.step hu.1 heffect, hu.2.2.step heffect⟩)
    ⟨triageInv_empty now, reportInv_empty now, promptInv_empty now⟩

/-- **The provider is shown the report it is asked about and at most five other public reports of
the building**, whatever workers run and fail. -/
theorem prompts_public (K : TriageConfig) (now : ℕ) (s : TriageSystem C)
    (h : Reaches (TriageSystem.step K) Always (TriageSystem.empty now) s) (e : AskedTriage)
    (he : e ∈ s.asked) : PromptOf s e :=
  (triage_invariants h).2.2.asked e he

/-- **A report is triaged once**: it is asked about once, it gets one suggestion at most, and the
status of its job says whether it has one. -/
theorem triage_once (K : TriageConfig) (now : ℕ) (s : TriageSystem C)
    (h : Reaches (TriageSystem.step K) Always (TriageSystem.empty now) s) :
    (s.asked.map fun e => e.prompt.report).Nodup ∧
      ∀ pk row, s.jobs.committed.get? pk = some row →
        (∀ k k' r r', s.suggestions.get? k = some r → s.suggestions.get? k' = some r' →
          r.job = pk → r'.job = pk → k = k') ∧
        (row.status = .pending → ∀ e ∈ s.asked, e.prompt.report ≠ row.report) ∧
        (row.status = .succeeded → ∃ k r, s.suggestions.get? k = some r ∧ r.job = pk) ∧
        (row.status = .pending ∨ row.status = .needsManual →
          ∀ k r, s.suggestions.get? k = some r → r.job ≠ pk) := by
  obtain ⟨hinv, hreports, -⟩ := triage_invariants h
  refine ⟨?_, fun pk row hrow => ⟨fun k k' r r' hr hr' hjob hjob' => ?_, fun hpending e he heq => ?_,
    fun hsucceeded => hinv.succeeded pk row hrow hsucceeded, ?_⟩⟩
  · -- one job asks once, and a report has one job
    refine (List.nodup_map_iff_inj_on hinv.askedOnce.of_map).mpr fun e he e' he' hsame => ?_
    obtain ⟨row, hrow, -, hreport⟩ := hinv.asked e he
    obtain ⟨row', hrow', -, hreport'⟩ := hinv.asked e' he'
    have hjob : e.job = e'.job :=
      hreports.apart _ _ row row' hrow hrow' (by rw [← hreport, ← hreport', hsame])
    exact List.inj_on_of_nodup_map hinv.askedOnce he he' hjob
  · exact hinv.once k k' r r' hr hr' (hjob.trans hjob'.symm)
  · obtain ⟨row', hrow', hstatus, hreport⟩ := hinv.asked e he
    have hjob := hreports.apart _ _ row' row hrow' hrow (hreport.symm.trans heq)
    rw [hjob, hrow] at hrow'
    cases hrow'
    exact hstatus hpending
  · rintro hstatus k r hr rfl
    obtain ⟨row', hrow', hclaimed⟩ := hinv.suggestions k r hr
    rw [hrow] at hrow'
    cases hrow'
    rcases hstatus with hstatus | hstatus <;> rw [hstatus] at hclaimed <;>
      rcases hclaimed with hclaimed | hclaimed <;> cases hclaimed

end LamTo.Analysis
