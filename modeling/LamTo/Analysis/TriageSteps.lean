import LamTo.Model.TriageJobs

/-!
# What a step of triage does

`TriageEffect` lists the statements of the workers and what goes on around them, one case for each.
A statement that its worker does not learn of has the same effect, and the worker has ended
(`loses`).

SOURCE: src/lamto/maintenance/ai.py:54-73, 143-162, 216-299, src/lamto/config/worker.py:38-53
-/

set_option autoImplicit false

namespace LamTo.Analysis

open LamTo.Library LamTo.Library.Versions LamTo.Model

/-- The job that a claim takes, as the transaction writes it. -/
def claimedRow (now : ℕ) (row : TriageJob) : TriageJob :=
  { row with status := .processing, startedAt := some now, failureReason := [] }

/-- The answer cannot be recorded: the exception ends the worker, and the job is not decided. -/
def strands (elapsedMs : ℕ) : TriageVerdict → Bool
  | .raised => true
  | .manual reason => !storesReason reason
  | .suggest requestId answer => !storesAnswer requestId answer elapsedMs

variable {C : Type} [DecidableEq C]

inductive TriageEffect (K : TriageConfig) (s : TriageSystem C) :
    TriageAction C → TriageSystem C → Prop where
  | ticks (elapsed : ℕ) : TriageEffect K s (.tick elapsed) { s with now := s.now + elapsed }
  | submits (building : ℕ) (isPrivate : Bool) (text path : Text) :
      TriageEffect K s (.submit building isPrivate text path) (s.submit building isPrivate text path)
  | moves (report : ℕ) (status : ReportStatus) (hstatus : status ≠ .submitted) :
      TriageEffect K s (.move report status)
        { s with reports := s.reports.update report fun r => { r with status } }
  | begins (c : C) (target : Option ℕ) (limit : ℕ) (hbusy : s.busy c = false) :
      TriageEffect K s (.begin c target limit) (s.setPhase c (.looping ⟨target, limit, 0⟩))
  | rests (c : C) (w : TriageAnswers) (batch : TriageBatch) (hd : s.phase c = .looping batch) :
      TriageEffect K s (.next c w) (s.setPhase c (.ended true batch.count))
  | claims (c : C) (w : TriageAnswers) (batch : TriageBatch) (job : ℕ) (row : TriageJob)
      (hd : s.phase c = .looping batch) (hleft : batch.left ≠ 0)
      (hrow : s.jobs.committed.get? job = some row) (hpending : row.status = .pending)
      (hfree : s.jobs.locked c job = false) :
      TriageEffect K s (.next c w)
        ({ s with jobs := s.jobs.write c job (some (claimedRow s.now row)) }.setPhase c
          (.claiming ⟨⟨batch.target, batch.left - 1, batch.count⟩, job, claimedRow s.now row⟩))
  | commits (c : C) (work : TriageWork) (hd : s.phase c = .claiming work) :
      TriageEffect K s (.commit c) ({ s with jobs := s.jobs.commit c }.setPhase c (.claimed work))
  | reads (c : C) (w : TriageAnswers) (work : TriageWork) (report : TriagedReport)
      (hd : s.phase c = .claimed work) (hreport : s.reports.get? work.row.report = some report)
      (hranked : ranksCandidates K s.reports work.row.report report w.ranked = true) :
      TriageEffect K s (.next c w) (s.setPhase c (.asking work (w.ranked.take 5)))
  | asks (c : C) (w : TriageAnswers) (work : TriageWork) (candidates : List (ℕ × TriagedReport))
      (report : TriagedReport) (hd : s.phase c = .asking work candidates)
      (hreport : s.reports.get? work.row.report = some report) :
      TriageEffect K s (.next c w)
        ({ s with asked := ⟨work.job, chatBody work.row.report report candidates,
          candidates.map Prod.fst, w.call, w.elapsedMs⟩ :: s.asked }.setPhase c
            (.answered work (candidates.map Prod.fst) w.call w.elapsedMs))
  | raises (c : C) (w : TriageAnswers) (work : TriageWork) (ids : List ℕ) (call : TriageCall)
      (elapsedMs : ℕ) (hd : s.phase c = .answered work ids call elapsedMs)
      (hraises : s.suggestions.any (fun r => r.job = work.job) = true ∨
        strands elapsedMs (judgeTriage K ids call) = true) :
      TriageEffect K s (.next c w) (s.setPhase c (.ended false 0))
  | defers (c : C) (w : TriageAnswers) (work : TriageWork) (ids : List ℕ) (call : TriageCall)
      (elapsedMs : ℕ) (reason : PyText) (hd : s.phase c = .answered work ids call elapsedMs)
      (hverdict : judgeTriage K ids call = .manual reason) (hstores : storesReason reason = true) :
      TriageEffect K s (.next c w)
        ((s.saveJob work fun row => { row with
          status := .needsManual
          failureReason := reason.take 255
          completedAt := some s.now }).setPhase c (.closing work))
  | suggests (c : C) (w : TriageAnswers) (work : TriageWork) (ids : List ℕ) (call : TriageCall)
      (elapsedMs : ℕ) (requestId : PyText) (answer : TriageAnswer)
      (hd : s.phase c = .answered work ids call elapsedMs)
      (hverdict : judgeTriage K ids call = .suggest requestId answer)
      (hnone : s.suggestions.any (fun r => r.job = work.job) = false)
      (hstores : storesAnswer requestId answer elapsedMs = true) :
      TriageEffect K s (.next c w)
        ({ s with suggestions := s.suggestions.insert (newSuggestion K.unicode work.job ids
          requestId answer elapsedMs s.now) }.setPhase c (.suggested work))
  | succeeds (c : C) (w : TriageAnswers) (work : TriageWork) (hd : s.phase c = .suggested work) :
      TriageEffect K s (.next c w)
        ((s.saveJob work fun row => { row with
          status := .succeeded
          completedAt := some s.now }).setPhase c (.closing work))
  | closes (c : C) (w : TriageAnswers) (work : TriageWork) (hd : s.phase c = .closing work) :
      TriageEffect K s (.next c w)
        ((s.reviewReport work.row.report).setPhase c
          (.looping ⟨work.batch.target, work.batch.left, work.batch.count + 1⟩))
  | fails (c : C) (hbusy : s.busy c = true) :
      TriageEffect K s (.fail c)
        ({ s with jobs := s.jobs.rollback c }.setPhase c (.ended false 0))
  | loses (c : C) (w : TriageAnswers) (a : TriageAction C) (t : TriageSystem C)
      (ha : a = .next c w ∨ a = .commit c) (h : TriageEffect K s a t)
      (hclaims : ∀ work, t.phase c ≠ .claiming work) :
      TriageEffect K s (.lost c w) (t.setPhase c (.ended false 0))

namespace TriageEffect

variable {K : TriageConfig} {s t : TriageSystem C}

theorem of_claim (c : C) (w : TriageAnswers) (batch : TriageBatch)
    (hd : s.phase c = .looping batch) (hleft : batch.left ≠ 0) :
    TriageEffect K s (.next c w) (s.claim c batch w.held) := by
  unfold TriageSystem.claim
  split
  · exact rests c w batch hd
  · next job row hfind =>
    have hmem := List.mem_of_find?_eq_some hfind
    have hclaimable := List.find?_some hfind
    simp only [TriageSystem.claimable, Bool.and_eq_true, decide_eq_true_eq, Bool.not_eq_true']
      at hclaimable
    exact claims c w batch job row hd hleft ((Table.get?_eq_some _ _ _).mpr hmem)
      hclaimable.1.1.1 hclaimable.2

theorem of_record (c : C) (w : TriageAnswers) (work : TriageWork) (ids : List ℕ)
    (call : TriageCall) (elapsedMs : ℕ) (hd : s.phase c = .answered work ids call elapsedMs) :
    TriageEffect K s (.next c w) (s.record K c work ids elapsedMs (judgeTriage K ids call)) := by
  cases hverdict : judgeTriage K ids call with
  | raised => exact raises c w work ids call elapsedMs hd (.inr (by rw [hverdict]; rfl))
  | manual reason =>
    unfold TriageSystem.record
    dsimp only
    by_cases hstores : storesReason reason = true
    · rw [if_pos hstores]
      exact defers c w work ids call elapsedMs reason hd hverdict hstores
    · rw [if_neg hstores]
      refine raises c w work ids call elapsedMs hd (.inr ?_)
      rw [hverdict]
      simpa only [strands, Bool.not_eq_true', Bool.not_eq_true] using hstores
  | suggest requestId answer =>
    unfold TriageSystem.record
    dsimp only
    by_cases hany : s.suggestions.any (fun r => r.job = work.job) = true
    · rw [if_pos hany]
      exact raises c w work ids call elapsedMs hd (.inl hany)
    · rw [if_neg hany]
      by_cases hstores : storesAnswer requestId answer elapsedMs = true
      · rw [if_pos hstores]
        exact suggests c w work ids call elapsedMs requestId answer hd hverdict
          ((Bool.not_eq_true _).mp hany) hstores
      · rw [if_neg hstores]
        refine raises c w work ids call elapsedMs hd (.inr ?_)
        rw [hverdict]
        simpa only [strands, Bool.not_eq_true', Bool.not_eq_true] using hstores

theorem of_next (c : C) (w : TriageAnswers) (h : s.next K c w = some t) :
    TriageEffect K s (.next c w) t := by
  unfold TriageSystem.next at h
  cases hd : s.phase c with
  | looping batch =>
    simp only [hd] at h
    split at h
    · cases h
      exact rests c w batch hd
    · next hleft =>
      cases h
      exact of_claim c w batch hd hleft
  | claimed work =>
    simp only [hd, TriageSystem.readCandidates] at h
    split at h
    · cases h
    · next report hreport =>
      split at h
      · next hranked =>
        cases h
        exact reads c w work report hd hreport hranked
      · cases h
  | asking work candidates =>
    simp only [hd, TriageSystem.ask] at h
    split at h
    · cases h
    · next report hreport =>
      cases h
      exact asks c w work candidates report hd hreport
  | answered work ids call elapsedMs =>
    simp only [hd] at h
    cases h
    exact of_record c w work ids call elapsedMs hd
  | suggested work =>
    simp only [hd] at h
    cases h
    exact succeeds c w work hd
  | closing work =>
    simp only [hd] at h
    cases h
    exact closes c w work hd
  | idle | claiming | ended =>
    simp only [hd] at h
    cases h

theorem of_commit (c : C) (h : s.commit c = some t) : TriageEffect K s (.commit c) t := by
  unfold TriageSystem.commit at h
  split at h
  · next work hd =>
    cases h
    exact commits c work hd
  · cases h

/-- No statement that can be lost is a claim. -/
theorem of_lost (c : C) (w : TriageAnswers) (h : s.lost K c w = some t) :
    TriageEffect K s (.lost c w) t := by
  unfold TriageSystem.lost at h
  cases hd : s.phase c with
  | claiming work =>
    simp only [hd] at h
    obtain ⟨u, hu, rfl⟩ := Option.map_eq_some_iff.mp h
    refine loses c w _ u (.inr rfl) (of_commit c hu) fun work' hclaims => ?_
    simp only [TriageSystem.commit, hd] at hu
    cases hu
    rw [TriageSystem.setPhase] at hclaims
    simp only [Function.update_self] at hclaims
    cases hclaims
  | answered work ids call elapsedMs =>
    simp only [hd] at h
    obtain ⟨u, hu, rfl⟩ := Option.map_eq_some_iff.mp h
    refine loses c w _ u (.inl rfl) (of_next c w hu) fun work' hclaims => ?_
    simp only [TriageSystem.next, hd] at hu
    cases hu
    unfold TriageSystem.record at hclaims
    split at hclaims
    · simp [TriageSystem.setPhase] at hclaims
    · split at hclaims <;> simp [TriageSystem.setPhase] at hclaims
    · split at hclaims
      · simp [TriageSystem.setPhase] at hclaims
      · split at hclaims <;> simp [TriageSystem.setPhase] at hclaims
  | suggested work =>
    simp only [hd] at h
    obtain ⟨u, hu, rfl⟩ := Option.map_eq_some_iff.mp h
    refine loses c w _ u (.inl rfl) (of_next c w hu) fun work' hclaims => ?_
    simp only [TriageSystem.next, hd] at hu
    cases hu
    simp [TriageSystem.setPhase] at hclaims
  | closing work =>
    simp only [hd] at h
    obtain ⟨u, hu, rfl⟩ := Option.map_eq_some_iff.mp h
    refine loses c w _ u (.inl rfl) (of_next c w hu) fun work' hclaims => ?_
    simp only [TriageSystem.next, hd] at hu
    cases hu
    simp [TriageSystem.setPhase] at hclaims
  | idle | looping | claimed | asking | ended =>
    simp only [hd] at h
    cases h

/-- **Every step is in the list.** -/
theorem of_step (a : TriageAction C) (h : s.step K a = some t) : TriageEffect K s a t := by
  cases a with
  | tick elapsed =>
    cases h
    exact ticks elapsed
  | submit building isPrivate text path =>
    cases h
    exact submits building isPrivate text path
  | move report status =>
    simp only [TriageSystem.step] at h
    split at h
    · cases h
    · next hstatus =>
      cases h
      exact moves report status hstatus
  | begin c target limit =>
    simp only [TriageSystem.step] at h
    split at h
    · cases h
    · next hbusy =>
      cases h
      exact begins c target limit ((Bool.not_eq_true _).mp hbusy)
  | next c w => exact of_next c w h
  | commit c => exact of_commit c h
  | lost c w => exact of_lost c w h
  | fail c =>
    simp only [TriageSystem.step, TriageSystem.fail] at h
    split at h
    · next hbusy =>
      cases h
      exact fails c hbusy
    · cases h

end TriageEffect

end LamTo.Analysis
