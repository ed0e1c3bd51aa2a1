import LamTo.Library.Transition
import LamTo.Analysis.TriageSteps

/-!
# A report is triaged once

A job is claimed from `PENDING`, and nothing brings it back there. So one worker at most has it in
hand, and the statements of that worker come in their order: one request, at most one suggestion, and
a status that says which of the two ends was reached. `TriageInv` is that account, and every step
keeps it, also when a database error or the end of a worker cuts a pass short.

SOURCE: src/lamto/maintenance/ai.py:54-73, 143-162, 216-292
-/

set_option autoImplicit false

namespace LamTo.Analysis

open LamTo.Library LamTo.Library.Versions LamTo.Model

/-- How far a job in hand is. -/
inductive TriageStage where
  | unasked
  | asked
  | suggested
  | closing
deriving DecidableEq

/-- The job that a worker has in hand, once it is claimed. -/
def inHand : TriagePhase → Option (TriageWork × TriageStage)
  | .claimed work | .asking work _ => some (work, .unasked)
  | .answered work _ _ _ => some (work, .asked)
  | .suggested work => some (work, .suggested)
  | .closing work => some (work, .closing)
  | .idle | .looping _ | .claiming _ | .ended _ _ => none

/-- The statuses of a job in hand. -/
def TriageStage.allows : TriageStage → TriageJobStatus → Bool
  | .closing, status => status = .succeeded || status = .needsManual
  | _, status => status = .processing

variable {C : Type}

/-- **What is known of every job.** -/
structure TriageInv (s : TriageSystem C) : Prop where
  pending : ∀ pk p, s.jobs.pending pk = some p → ∃ work row, s.phase p.owner = .claiming work ∧
    work.job = pk ∧ p.row = some work.row ∧ s.jobs.committed.get? pk = some row ∧
      row.status = .pending ∧ work.row.status = .processing ∧ work.row.report = row.report
  claiming : ∀ c work, s.phase c = .claiming work →
    s.jobs.pending work.job = some ⟨c, some work.row⟩
  works : ∀ c work stage, inHand (s.phase c) = some (work, stage) →
    ∃ row, s.jobs.committed.get? work.job = some row ∧ row.report = work.row.report ∧
      stage.allows row.status = true
  alone : ∀ c c' work work' stage stage', inHand (s.phase c) = some (work, stage) →
    inHand (s.phase c') = some (work', stage') → work.job = work'.job → c = c'
  asked : ∀ e ∈ s.asked, ∃ row, s.jobs.committed.get? e.job = some row ∧ row.status ≠ .pending ∧
    e.prompt.report = row.report
  askedOnce : (s.asked.map AskedTriage.job).Nodup
  unasked : ∀ c work, inHand (s.phase c) = some (work, .unasked) → ∀ e ∈ s.asked, e.job ≠ work.job
  suggestions : ∀ k r, s.suggestions.get? k = some r →
    ∃ row, s.jobs.committed.get? r.job = some row ∧
      (row.status = .processing ∨ row.status = .succeeded)
  unsuggested : ∀ c work stage, inHand (s.phase c) = some (work, stage) →
    stage = .unasked ∨ stage = .asked → ∀ k r, s.suggestions.get? k = some r → r.job ≠ work.job
  suggested : ∀ c work, inHand (s.phase c) = some (work, .suggested) →
    ∃ k r, s.suggestions.get? k = some r ∧ r.job = work.job
  succeeded : ∀ pk row, s.jobs.committed.get? pk = some row → row.status = .succeeded →
    ∃ k r, s.suggestions.get? k = some r ∧ r.job = pk
  once : ∀ k k' r r', s.suggestions.get? k = some r → s.suggestions.get? k' = some r' →
    r.job = r'.job → k = k'

theorem triageInv_empty (now : ℕ) : TriageInv (TriageSystem.empty now : TriageSystem C) where
  pending := fun _ _ h => by cases h
  claiming := fun _ _ h => by cases h
  works := fun _ _ _ h => by cases h
  alone := fun _ _ _ _ _ _ h => by cases h
  asked := fun _ h => by cases h
  askedOnce := List.nodup_nil
  unasked := fun _ _ h => by cases h
  suggestions := fun _ _ h => by cases h
  unsuggested := fun _ _ _ h => by cases h
  suggested := fun _ _ h => by cases h
  succeeded := fun _ _ h => by cases h
  once := fun _ _ _ _ h => by cases h

variable [DecidableEq C] {K : TriageConfig} {s t : TriageSystem C} {c : C}

namespace TriageInv

/-- A worker puts down what it has in hand, or goes on with it at the same stage. -/
theorem rephase (h : TriageInv s) (phase : TriagePhase) (hclaims : ∀ work, s.phase c ≠ .claiming work)
    (hclaims' : ∀ work, phase ≠ .claiming work)
    (hhand : inHand phase = none ∨ inHand phase = inHand (s.phase c)) :
    TriageInv (s.setPhase c phase) := by
  have hold : ∀ d work stage, inHand (Function.update s.phase c phase d) = some (work, stage) →
      inHand (s.phase d) = some (work, stage) := by
    intro d work stage hd
    by_cases hdc : d = c
    · subst hdc
      rw [Function.update_self] at hd
      rcases hhand with hnone | hsame
      · rw [hnone] at hd
        cases hd
      · rwa [hsame] at hd
    · rwa [Function.update_of_ne hdc] at hd
  have hclaiming : ∀ d work, Function.update s.phase c phase d = .claiming work ↔
      s.phase d = .claiming work := by
    intro d work
    by_cases hdc : d = c
    · subst hdc
      rw [Function.update_self]
      exact ⟨fun hd => absurd hd (hclaims' work), fun hd => absurd hd (hclaims work)⟩
    · rw [Function.update_of_ne hdc]
  exact {
    pending := fun pk p hp => by
      obtain ⟨work, row, hphase, hrest⟩ := h.pending pk p hp
      exact ⟨work, row, (hclaiming _ _).mpr hphase, hrest⟩
    claiming := fun d work hd => h.claiming d work ((hclaiming d work).mp hd)
    works := fun d work stage hd => h.works d work stage (hold d work stage hd)
    alone := fun d d' work work' stage stage' hd hd' =>
      h.alone d d' work work' stage stage' (hold _ _ _ hd) (hold _ _ _ hd')
    asked := h.asked
    askedOnce := h.askedOnce
    unasked := fun d work hd => h.unasked d work (hold _ _ _ hd)
    suggestions := h.suggestions
    unsuggested := fun d work stage hd => h.unsuggested d work stage (hold _ _ _ hd)
    suggested := fun d work hd => h.suggested d work (hold _ _ _ hd)
    succeeded := h.succeeded
    once := h.once }

omit [DecidableEq C] in
/-- The clock and the reports are not in the account. -/
theorem congr (h : TriageInv s) (hjobs : t.jobs = s.jobs) (hsuggestions : t.suggestions = s.suggestions)
    (hasked : t.asked = s.asked) (hphase : t.phase = s.phase) : TriageInv t where
  pending := by rw [hjobs, hphase]; exact h.pending
  claiming := by rw [hjobs, hphase]; exact h.claiming
  works := by rw [hjobs, hphase]; exact h.works
  alone := by rw [hphase]; exact h.alone
  asked := by rw [hjobs, hasked]; exact h.asked
  askedOnce := by rw [hasked]; exact h.askedOnce
  unasked := by rw [hasked, hphase]; exact h.unasked
  suggestions := by rw [hjobs, hsuggestions]; exact h.suggestions
  unsuggested := by rw [hsuggestions, hphase]; exact h.unsuggested
  suggested := by rw [hsuggestions, hphase]; exact h.suggested
  succeeded := by rw [hjobs, hsuggestions]; exact h.succeeded
  once := by rw [hsuggestions]; exact h.once

omit [DecidableEq C] in
/-- A row that the claim of another holds is not written by anyone else. -/
theorem pending_of_status (h : TriageInv s) (pk : ℕ) (row : TriageJob)
    (hrow : s.jobs.committed.get? pk = some row) (hstatus : row.status ≠ .pending) :
    s.jobs.pending pk = none := by
  cases hp : s.jobs.pending pk with
  | none => rfl
  | some p =>
    obtain ⟨-, row', -, -, -, hrow', hpending, -⟩ := h.pending pk p hp
    rw [hrow] at hrow'
    cases hrow'
    exact absurd hpending hstatus

omit [DecidableEq C] in
/-- A new job is pending, and nobody knows of it. -/
theorem submits (h : TriageInv s) (building : ℕ) (isPrivate : Bool) (text path : Text) :
    TriageInv (s.submit building isPrivate text path) := by
  have hkept : ∀ pk row, s.jobs.committed.get? pk = some row →
      (s.submit building isPrivate text path).jobs.committed.get? pk = some row :=
    fun pk row hrow => Table.get?_insert_of_some _ _ _ _ hrow
  exact {
    pending := fun pk p hp => by
      obtain ⟨work, row, hphase, hjob, hown, hrow, hrest⟩ := h.pending pk p hp
      exact ⟨work, row, hphase, hjob, hown, hkept pk row hrow, hrest⟩
    claiming := h.claiming
    works := fun d work stage hd => by
      obtain ⟨row, hrow, hrest⟩ := h.works d work stage hd
      exact ⟨row, hkept _ row hrow, hrest⟩
    alone := h.alone
    asked := fun e he => by
      obtain ⟨row, hrow, hrest⟩ := h.asked e he
      exact ⟨row, hkept _ row hrow, hrest⟩
    askedOnce := h.askedOnce
    unasked := h.unasked
    suggestions := fun k r hr => by
      obtain ⟨row, hrow, hstatus⟩ := h.suggestions k r hr
      exact ⟨row, hkept _ row hrow, hstatus⟩
    unsuggested := h.unsuggested
    suggested := h.suggested
    succeeded := fun pk row hrow hstatus => by
      change (s.jobs.committed.insert _).get? pk = some row at hrow
      rw [Table.get?_insert] at hrow
      split at hrow
      · cases hrow
        cases hstatus
      · exact h.succeeded pk row hrow hstatus
    once := h.once }

/-- A claim writes a pending row that it has locked. -/
theorem claims (h : TriageInv s) (batch : TriageBatch) (job : ℕ) (row : TriageJob)
    (hd : s.phase c = .looping batch) (hrow : s.jobs.committed.get? job = some row)
    (hpending : row.status = .pending) (hfree : s.jobs.locked c job = false) (batch' : TriageBatch) :
    TriageInv ({ s with jobs := s.jobs.write c job (some (claimedRow s.now row)) }.setPhase c
      (.claiming ⟨batch', job, claimedRow s.now row⟩)) := by
  have hbound : 0 < job ∧ job < s.jobs.committed.next :=
    ⟨s.jobs.committed.pos_of_get? job row hrow, s.jobs.committed.lt_next_of_get? job row hrow⟩
  have hother : ∀ d, d ≠ c → Function.update s.phase c
      (.claiming ⟨batch', job, claimedRow s.now row⟩) d = s.phase d :=
    fun d hdc => Function.update_of_ne hdc _ _
  have hown : ∀ q p, s.jobs.pending q = some p → p.owner ≠ c := by
    rintro q p hp rfl
    obtain ⟨work, -, hphase, -⟩ := h.pending q p hp
    rw [hd] at hphase
    cases hphase
  have hnone : s.jobs.pending job = none := by
    cases hp : s.jobs.pending job with
    | none => rfl
    | some p => exact absurd ((s.jobs.locked_eq_false c job).mp hfree p hp) (hown job p hp)
  have hold : ∀ d work stage, inHand (Function.update s.phase c
      (.claiming ⟨batch', job, claimedRow s.now row⟩) d) = some (work, stage) →
      inHand (s.phase d) = some (work, stage) := by
    intro d work stage hhand
    by_cases hdc : d = c
    · subst hdc
      rw [Function.update_self] at hhand
      cases hhand
    · rwa [hother d hdc] at hhand
  exact {
    pending := fun q p hp => by
      change (s.jobs.write c job (some (claimedRow s.now row))).pending q = some p at hp
      rw [pending_write _ _ _ _ hbound] at hp
      split at hp
      · next hq =>
        cases hp
        subst hq
        refine ⟨⟨batch', q, claimedRow s.now row⟩, row, Function.update_self .., rfl, rfl, ?_,
          hpending, rfl, rfl⟩
        exact (s.jobs.get?_write_committed c q _ q).trans hrow
      · obtain ⟨work, row', hphase, hjob, hrest, hrow', htail⟩ := h.pending q p hp
        refine ⟨work, row', (hother _ (hown q p hp)).trans hphase, hjob, hrest, ?_, htail⟩
        exact (s.jobs.get?_write_committed c job _ q).trans hrow'
    claiming := fun d work hphase => by
      change (s.jobs.write c job (some (claimedRow s.now row))).pending work.job = _
      rw [pending_write _ _ _ _ hbound]
      by_cases hdc : d = c
      · subst hdc
        change Function.update s.phase d _ d = _ at hphase
        rw [Function.update_self] at hphase
        cases hphase
        exact if_pos rfl
      · change Function.update s.phase c _ d = _ at hphase
        rw [hother d hdc] at hphase
        have hclaim := h.claiming d work hphase
        have hne : work.job ≠ job := by
          rintro heq
          rw [heq, hnone] at hclaim
          cases hclaim
        rw [if_neg hne]
        exact hclaim
    works := fun d work stage hhand => by
      obtain ⟨row', hrow', hrest⟩ := h.works d work stage (hold d work stage hhand)
      exact ⟨row', (s.jobs.get?_write_committed c job _ _).trans hrow', hrest⟩
    alone := fun d d' work work' stage stage' hhand hhand' =>
      h.alone d d' work work' stage stage' (hold _ _ _ hhand) (hold _ _ _ hhand')
    asked := fun e he => by
      obtain ⟨row', hrow', hrest⟩ := h.asked e he
      exact ⟨row', (s.jobs.get?_write_committed c job _ _).trans hrow', hrest⟩
    askedOnce := h.askedOnce
    unasked := fun d work hhand => h.unasked d work (hold _ _ _ hhand)
    suggestions := fun k r hr => by
      obtain ⟨row', hrow', hstatus⟩ := h.suggestions k r hr
      exact ⟨row', (s.jobs.get?_write_committed c job _ _).trans hrow', hstatus⟩
    unsuggested := fun d work stage hhand => h.unsuggested d work stage (hold _ _ _ hhand)
    suggested := fun d work hhand => h.suggested d work (hold _ _ _ hhand)
    succeeded := fun pk row' hrow' hstatus => by
      refine h.succeeded pk row' ?_ hstatus
      exact (s.jobs.get?_write_committed c job _ pk).symm.trans hrow'
    once := h.once }

/-- What the commit of a claim leaves of the jobs. -/
theorem get?_commit_of_claim (h : TriageInv s) (work : TriageWork) (hd : s.phase c = .claiming work)
    (q : ℕ) : (s.jobs.commit c).committed.get? q =
      if q = work.job then some work.row else s.jobs.committed.get? q := by
  rw [s.jobs.get?_commit]
  have hclaim := h.claiming c work hd
  split
  · next hq =>
    rw [hq]
    exact s.jobs.seen_own c _ _ hclaim
  · next hq =>
    rcases s.jobs.seen_cases c q with ⟨row, hrow, -⟩ | ⟨-, hseen⟩
    · obtain ⟨work', -, hphase, hjob, -⟩ := h.pending q _ hrow
      rw [hd] at hphase
      cases hphase
      exact absurd hjob.symm hq
    · exact hseen

theorem commits (h : TriageInv s) (work : TriageWork) (hd : s.phase c = .claiming work) :
    TriageInv ({ s with jobs := s.jobs.commit c }.setPhase c (.claimed work)) := by
  have hclaim := h.claiming c work hd
  obtain ⟨work₀, row, hphase, -, -, hrow, hpending, hprocessing, hreport⟩ := h.pending _ _ hclaim
  rw [hd] at hphase
  cases hphase
  have hother : ∀ d, d ≠ c → Function.update s.phase c (.claimed work) d = s.phase d :=
    fun d hdc => Function.update_of_ne hdc _ _
  -- nobody knows of a job that is pending
  have hunknown : ∀ q row', s.jobs.committed.get? q = some row' → row'.status ≠ .pending →
      q ≠ work.job := by
    rintro q row' hrow' hstatus rfl
    rw [hrow] at hrow'
    cases hrow'
    exact hstatus hpending
  have hkept : ∀ q row', s.jobs.committed.get? q = some row' → row'.status ≠ .pending →
      (s.jobs.commit c).committed.get? q = some row' := fun q row' hrow' hstatus => by
    rw [h.get?_commit_of_claim work hd, if_neg (hunknown q row' hrow' hstatus)]
    exact hrow'
  have hallows : ∀ (stage : TriageStage) status, stage.allows status = true → status ≠ .pending := by
    intro stage status hallowed heq
    subst heq
    cases stage <;> cases hallowed
  have hhands : ∀ d work' stage, inHand (Function.update s.phase c (.claimed work) d) =
      some (work', stage) → d = c ∧ work' = work ∧ stage = .unasked ∨
        d ≠ c ∧ inHand (s.phase d) = some (work', stage) ∧ work'.job ≠ work.job := by
    intro d work' stage hhand
    by_cases hdc : d = c
    · subst hdc
      rw [Function.update_self] at hhand
      cases hhand
      exact .inl ⟨rfl, rfl, rfl⟩
    · rw [hother d hdc] at hhand
      obtain ⟨row', hrow', -, hallowed⟩ := h.works d work' stage hhand
      exact .inr ⟨hdc, hhand, hunknown _ row' hrow' (hallows stage _ hallowed)⟩
  exact {
    pending := fun q p hp => by
      obtain ⟨hold, howner⟩ := (s.jobs.pending_commit c q p).mp hp
      obtain ⟨work', row', hphase', hjob, hrest, hrow', htail⟩ := h.pending q p hold
      refine ⟨work', row', (hother _ howner).trans hphase', hjob, hrest, ?_, htail⟩
      have hne : q ≠ work.job := by
        rintro rfl
        rw [hclaim] at hold
        cases hold
        exact howner rfl
      exact (h.get?_commit_of_claim work hd q).trans ((if_neg hne).trans hrow')
    claiming := fun d work' hphase => by
      have hdc : d ≠ c := by
        rintro rfl
        change Function.update s.phase d _ d = _ at hphase
        rw [Function.update_self] at hphase
        cases hphase
      change Function.update s.phase c _ d = _ at hphase
      rw [hother d hdc] at hphase
      exact (s.jobs.pending_commit c _ _).mpr ⟨h.claiming d work' hphase, hdc⟩
    works := fun d work' stage hhand => by
      rcases hhands d work' stage hhand with ⟨rfl, rfl, rfl⟩ | ⟨-, hold, hne⟩
      · refine ⟨work'.row, ?_, rfl, decide_eq_true hprocessing⟩
        exact (h.get?_commit_of_claim work' hd _).trans (if_pos rfl)
      · obtain ⟨row', hrow', hrest⟩ := h.works d work' stage hold
        refine ⟨row', ?_, hrest⟩
        exact (h.get?_commit_of_claim work hd _).trans ((if_neg hne).trans hrow')
    alone := fun d d' work₁ work₂ stage stage' hhand hhand' hjob => by
      rcases hhands d work₁ stage hhand with ⟨rfl, rfl, rfl⟩ | ⟨-, hold, hne⟩
      · rcases hhands d' work₂ stage' hhand' with ⟨rfl, -, -⟩ | ⟨-, -, hne'⟩
        · rfl
        · exact absurd hjob.symm hne'
      · rcases hhands d' work₂ stage' hhand' with ⟨rfl, rfl, -⟩ | ⟨-, hold', -⟩
        · exact absurd hjob hne
        · exact h.alone d d' work₁ work₂ stage stage' hold hold' hjob
    asked := fun e he => by
      obtain ⟨row', hrow', hstatus, hrest⟩ := h.asked e he
      exact ⟨row', hkept _ row' hrow' hstatus, hstatus, hrest⟩
    askedOnce := h.askedOnce
    unasked := fun d work' hhand e he => by
      rcases hhands d work' _ hhand with ⟨rfl, rfl, -⟩ | ⟨-, hold, -⟩
      · obtain ⟨row', hrow', hstatus, -⟩ := h.asked e he
        exact hunknown _ row' hrow' hstatus
      · exact h.unasked d work' hold e he
    suggestions := fun k r hr => by
      obtain ⟨row', hrow', hstatus⟩ := h.suggestions k r hr
      refine ⟨row', hkept _ row' hrow' ?_, hstatus⟩
      rcases hstatus with heq | heq <;> rw [heq] <;> decide
    unsuggested := fun d work' stage hhand hstage k r hr => by
      rcases hhands d work' stage hhand with ⟨rfl, rfl, -⟩ | ⟨-, hold, -⟩
      · obtain ⟨row', hrow', hstatus⟩ := h.suggestions k r hr
        refine hunknown _ row' hrow' ?_
        rcases hstatus with heq | heq <;> rw [heq] <;> decide
      · exact h.unsuggested d work' stage hold hstage k r hr
    suggested := fun d work' hhand => by
      rcases hhands d work' _ hhand with ⟨-, -, hstage⟩ | ⟨-, hold, -⟩
      · cases hstage
      · exact h.suggested d work' hold
    succeeded := fun pk row' hrow' hstatus => by
      change (s.jobs.commit c).committed.get? pk = some row' at hrow'
      rw [h.get?_commit_of_claim work hd] at hrow'
      split at hrow'
      · cases hrow'
        rw [hprocessing] at hstatus
        cases hstatus
      · exact h.succeeded pk row' hrow' hstatus
    once := h.once }

/-- The job in hand of the worker that takes the step, before it and after. -/
theorem hand_cases {phase : TriagePhase} {work : TriageWork} {stage : TriageStage}
    (hphase : inHand phase = some (work, stage)) (d : C) (work' : TriageWork) (stage' : TriageStage)
    (hhand : inHand (Function.update s.phase c phase d) = some (work', stage')) :
    d = c ∧ work' = work ∧ stage' = stage ∨ d ≠ c ∧ inHand (s.phase d) = some (work', stage') := by
  by_cases hdc : d = c
  · subst hdc
    rw [Function.update_self, hphase] at hhand
    cases hhand
    exact .inl ⟨rfl, rfl, rfl⟩
  · rw [Function.update_of_ne hdc] at hhand
    exact .inr ⟨hdc, hhand⟩

/-- A worker goes on with the job in hand: what it claims stays, and it is alone. -/
theorem alone_of_hand (h : TriageInv s) {phase : TriagePhase} {work : TriageWork}
    {stage₀ stage : TriageStage} (hd : inHand (s.phase c) = some (work, stage₀))
    (hphase : inHand phase = some (work, stage)) (d d' : C) (work₁ work₂ : TriageWork)
    (stage₁ stage₂ : TriageStage)
    (hhand : inHand (Function.update s.phase c phase d) = some (work₁, stage₁))
    (hhand' : inHand (Function.update s.phase c phase d') = some (work₂, stage₂))
    (hjob : work₁.job = work₂.job) : d = d' := by
  rcases hand_cases hphase d work₁ stage₁ hhand with ⟨rfl, rfl, -⟩ | ⟨-, hold⟩
  · rcases hand_cases hphase d' work₂ stage₂ hhand' with ⟨rfl, -, -⟩ | ⟨-, hold'⟩
    · rfl
    · exact h.alone _ _ _ _ _ _ hd hold' hjob
  · rcases hand_cases hphase d' work₂ stage₂ hhand' with ⟨rfl, rfl, -⟩ | ⟨-, hold'⟩
    · exact h.alone _ _ _ _ _ _ hold hd hjob
    · exact h.alone _ _ _ _ _ _ hold hold' hjob

omit [DecidableEq C] in
/-- No other worker has the job in hand. -/
theorem other_job (h : TriageInv s) {work work' : TriageWork} {stage stage' : TriageStage} {d : C}
    (hd : inHand (s.phase c) = some (work, stage)) (hdc : d ≠ c)
    (hhand : inHand (s.phase d) = some (work', stage')) : work'.job ≠ work.job :=
  fun hjob => hdc (h.alone _ _ _ _ _ _ hhand hd hjob)

/-- The workers that are claiming are the same ones. -/
theorem claiming_of_hand {phase : TriagePhase} {work : TriageWork} {stage₀ stage : TriageStage}
    (hd : inHand (s.phase c) = some (work, stage₀)) (hphase : inHand phase = some (work, stage))
    (d : C) (work' : TriageWork) :
    Function.update s.phase c phase d = .claiming work' ↔ s.phase d = .claiming work' := by
  by_cases hdc : d = c
  · subst hdc
    rw [Function.update_self]
    constructor
    · intro heq
      rw [heq] at hphase
      cases hphase
    · intro heq
      rw [heq] at hd
      cases hd
  · rw [Function.update_of_ne hdc]

theorem asks (h : TriageInv s) (work : TriageWork) (candidates : List (ℕ × TriagedReport))
    (hd : s.phase c = .asking work candidates) (e : AskedTriage) (hjob : e.job = work.job)
    (hreport : e.prompt.report = work.row.report) (ids : List ℕ) (call : TriageCall)
    (elapsedMs : ℕ) :
    TriageInv ({ s with asked := e :: s.asked }.setPhase c (.answered work ids call elapsedMs)) := by
  have hhand₀ : inHand (s.phase c) = some (work, .unasked) := by rw [hd]; rfl
  have hphase : inHand (.answered work ids call elapsedMs) = some (work, .asked) := rfl
  obtain ⟨row, hrow, hsame, hallowed⟩ := h.works c work .unasked hhand₀
  have hprocessing : row.status = .processing := of_decide_eq_true hallowed
  exact {
    pending := fun q p hp => by
      obtain ⟨work', row', hclaims, hrest⟩ := h.pending q p hp
      exact ⟨work', row', (claiming_of_hand hhand₀ hphase _ _).mpr hclaims, hrest⟩
    claiming := fun d work' hclaims =>
      h.claiming d work' ((claiming_of_hand hhand₀ hphase _ _).mp hclaims)
    works := fun d work' stage hhand => by
      rcases hand_cases hphase d work' stage hhand with ⟨rfl, rfl, rfl⟩ | ⟨-, hold⟩
      · exact ⟨row, hrow, hsame, hallowed⟩
      · exact h.works d work' stage hold
    alone := fun d d' work₁ work₂ stage₁ stage₂ hhand hhand' =>
      h.alone_of_hand hhand₀ hphase d d' work₁ work₂ stage₁ stage₂ hhand hhand'
    asked := fun e' he => by
      rcases List.mem_cons.mp he with rfl | hold
      · refine ⟨row, hjob ▸ hrow, ?_, hreport.trans hsame.symm⟩
        rw [hprocessing]
        decide
      · exact h.asked e' hold
    askedOnce := by
      refine List.nodup_cons.mpr ⟨fun hmem => ?_, h.askedOnce⟩
      obtain ⟨e', he, hsame'⟩ := List.mem_map.mp hmem
      exact h.unasked c work hhand₀ e' he (hsame'.trans hjob)
    unasked := fun d work' hhand e' he => by
      rcases hand_cases hphase d work' _ hhand with ⟨-, -, hstage⟩ | ⟨hdc, hold⟩
      · cases hstage
      · rcases List.mem_cons.mp he with rfl | hmem
        · rw [hjob]
          exact (h.other_job hhand₀ hdc hold).symm
        · exact h.unasked d work' hold e' hmem
    suggestions := h.suggestions
    unsuggested := fun d work' stage hhand hstage k r hr => by
      rcases hand_cases hphase d work' stage hhand with ⟨-, rfl, -⟩ | ⟨-, hold⟩
      · exact h.unsuggested c work' .unasked hhand₀ (.inl rfl) k r hr
      · exact h.unsuggested d work' stage hold hstage k r hr
    suggested := fun d work' hhand => by
      rcases hand_cases hphase d work' _ hhand with ⟨-, -, hstage⟩ | ⟨-, hold⟩
      · cases hstage
      · exact h.suggested d work' hold
    succeeded := h.succeeded
    once := h.once }

/-- A suggestion is stored for a job that has none. -/
theorem suggests (h : TriageInv s) (work : TriageWork)
    (hhand₀ : inHand (s.phase c) = some (work, .asked)) (r₀ : SuggestionRow)
    (hjob : r₀.job = work.job) :
    TriageInv ({ s with suggestions := s.suggestions.insert r₀ }.setPhase c (.suggested work)) := by
  have hphase : inHand (.suggested work) = some (work, .suggested) := rfl
  obtain ⟨row, hrow, hsame, hallowed⟩ := h.works c work .asked hhand₀
  have hprocessing : row.status = .processing := of_decide_eq_true hallowed
  have hinsert : ∀ k r, (s.suggestions.insert r₀).get? k = some r →
      r = r₀ ∧ k = s.suggestions.next ∨ s.suggestions.get? k = some r := by
    intro k r hr
    rw [Table.get?_insert] at hr
    split at hr
    · next hk =>
      cases hr
      exact .inl ⟨rfl, hk⟩
    · exact .inr hr
  have hnew : (s.suggestions.insert r₀).get? s.suggestions.next = some r₀ :=
    Table.get?_insert_self _ _
  have hkept : ∀ k r, s.suggestions.get? k = some r → (s.suggestions.insert r₀).get? k = some r :=
    fun k r hr => Table.get?_insert_of_some _ _ _ _ hr
  exact {
    pending := fun q p hp => by
      obtain ⟨work', row', hclaims, hrest⟩ := h.pending q p hp
      exact ⟨work', row', (claiming_of_hand hhand₀ hphase _ _).mpr hclaims, hrest⟩
    claiming := fun d work' hclaims =>
      h.claiming d work' ((claiming_of_hand hhand₀ hphase _ _).mp hclaims)
    works := fun d work' stage hhand => by
      rcases hand_cases hphase d work' stage hhand with ⟨rfl, rfl, rfl⟩ | ⟨-, hold⟩
      · exact ⟨row, hrow, hsame, hallowed⟩
      · exact h.works d work' stage hold
    alone := fun d d' work₁ work₂ stage₁ stage₂ hhand hhand' =>
      h.alone_of_hand hhand₀ hphase d d' work₁ work₂ stage₁ stage₂ hhand hhand'
    asked := h.asked
    askedOnce := h.askedOnce
    unasked := fun d work' hhand => by
      rcases hand_cases hphase d work' _ hhand with ⟨-, -, hstage⟩ | ⟨-, hold⟩
      · cases hstage
      · exact h.unasked d work' hold
    suggestions := fun k r hr => by
      rcases hinsert k r hr with ⟨rfl, -⟩ | hold
      · exact ⟨row, hjob ▸ hrow, .inl hprocessing⟩
      · exact h.suggestions k r hold
    unsuggested := fun d work' stage hhand hstage k r hr => by
      rcases hand_cases hphase d work' stage hhand with ⟨-, -, rfl⟩ | ⟨hdc, hold⟩
      · rcases hstage with hstage | hstage <;> cases hstage
      · rcases hinsert k r hr with ⟨rfl, -⟩ | hr'
        · rw [hjob]
          exact (h.other_job hhand₀ hdc hold).symm
        · exact h.unsuggested d work' stage hold hstage k r hr'
    suggested := fun d work' hhand => by
      rcases hand_cases hphase d work' _ hhand with ⟨-, rfl, -⟩ | ⟨-, hold⟩
      · exact ⟨_, r₀, hnew, hjob⟩
      · obtain ⟨k, r, hr, hsame'⟩ := h.suggested d work' hold
        exact ⟨k, r, hkept k r hr, hsame'⟩
    succeeded := fun pk row' hrow' hstatus => by
      obtain ⟨k, r, hr, hsame'⟩ := h.succeeded pk row' hrow' hstatus
      exact ⟨k, r, hkept k r hr, hsame'⟩
    once := fun k k' r r' hr hr' hsame' => by
      rcases hinsert k r hr with ⟨rfl, rfl⟩ | hold
      · rcases hinsert k' r' hr' with ⟨-, rfl⟩ | hold'
        · rfl
        · rw [hjob] at hsame'
          exact absurd hsame'.symm (h.unsuggested c work .asked hhand₀ (.inr rfl) k' r' hold')
      · rcases hinsert k' r' hr' with ⟨rfl, rfl⟩ | hold'
        · rw [hjob] at hsame'
          exact absurd hsame' (h.unsuggested c work .asked hhand₀ (.inr rfl) k r hold)
        · exact h.once k k' r r' hold hold' hsame' }

/-- The job in hand is decided: with its suggestion, or without one. -/
theorem saves (h : TriageInv s) (work : TriageWork) (stage₀ : TriageStage)
    (hhand₀ : inHand (s.phase c) = some (work, stage₀)) (f : TriageJob → TriageJob)
    (hreport : ∀ row, (f row).report = row.report)
    (hstage : stage₀ = .asked ∧ (∀ row, (f row).status = .needsManual) ∨
      stage₀ = .suggested ∧ ∀ row, (f row).status = .succeeded) :
    TriageInv ((s.saveJob work f).setPhase c (.closing work)) := by
  have hphase : inHand (.closing work) = some (work, .closing) := rfl
  obtain ⟨row, hrow, hsame, hallowed⟩ := h.works c work stage₀ hhand₀
  have hprocessing : row.status = .processing := by
    rcases hstage with ⟨rfl, -⟩ | ⟨rfl, -⟩ <;> exact of_decide_eq_true hallowed
  have hpending : s.jobs.pending work.job = none :=
    h.pending_of_status _ row hrow (by rw [hprocessing]; decide)
  have hself : (s.saveJob work f).jobs.committed.get? work.job = some (f row) :=
    (Table.get?_update_self _ _ _).trans (by rw [hrow]; rfl)
  have hother : ∀ q, q ≠ work.job →
      (s.saveJob work f).jobs.committed.get? q = s.jobs.committed.get? q :=
    fun q hq => Table.get?_update_ne _ _ _ _ hq
  have hclosed : (f row).status = .needsManual ∨ (f row).status = .succeeded := by
    rcases hstage with ⟨-, hmanual⟩ | ⟨-, hsucceeded⟩
    · exact .inl (hmanual row)
    · exact .inr (hsucceeded row)
  exact {
    pending := fun q p hp => by
      obtain ⟨work', row', hclaims, hjob, hrest, hrow', htail⟩ := h.pending q p hp
      have hq : q ≠ work.job := by
        rintro rfl
        change s.jobs.pending work.job = some p at hp
        rw [hpending] at hp
        cases hp
      exact ⟨work', row', (claiming_of_hand hhand₀ hphase _ _).mpr hclaims, hjob, hrest,
        (hother q hq).trans hrow', htail⟩
    claiming := fun d work' hclaims =>
      h.claiming d work' ((claiming_of_hand hhand₀ hphase _ _).mp hclaims)
    works := fun d work' stage hhand => by
      rcases hand_cases hphase d work' stage hhand with ⟨rfl, rfl, rfl⟩ | ⟨hdc, hold⟩
      · refine ⟨f row, hself, (hreport row).trans hsame, ?_⟩
        rcases hclosed with hmanual | hsucceeded
        · rw [hmanual]
          rfl
        · rw [hsucceeded]
          rfl
      · obtain ⟨row', hrow', hrest⟩ := h.works d work' stage hold
        exact ⟨row', (hother _ (h.other_job hhand₀ hdc hold)).trans hrow', hrest⟩
    alone := fun d d' work₁ work₂ stage₁ stage₂ hhand hhand' =>
      h.alone_of_hand hhand₀ hphase d d' work₁ work₂ stage₁ stage₂ hhand hhand'
    asked := fun e he => by
      obtain ⟨row', hrow', hstatus, hrest⟩ := h.asked e he
      by_cases hq : e.job = work.job
      · rw [hq, hrow] at hrow'
        cases hrow'
        refine ⟨f row, hq ▸ hself, ?_, hrest.trans (hreport row).symm⟩
        rcases hclosed with hmanual | hsucceeded
        · rw [hmanual]
          decide
        · rw [hsucceeded]
          decide
      · exact ⟨row', (hother _ hq).trans hrow', hstatus, hrest⟩
    askedOnce := h.askedOnce
    unasked := fun d work' hhand => by
      rcases hand_cases hphase d work' _ hhand with ⟨-, -, hstage'⟩ | ⟨-, hold⟩
      · cases hstage'
      · exact h.unasked d work' hold
    suggestions := fun k r hr => by
      obtain ⟨row', hrow', hstatus⟩ := h.suggestions k r hr
      by_cases hq : r.job = work.job
      · refine ⟨f row, hq ▸ hself, .inr ?_⟩
        rcases hstage with ⟨rfl, -⟩ | ⟨-, hsucceeded⟩
        · exact absurd hq (h.unsuggested c work .asked hhand₀ (.inr rfl) k r hr)
        · exact hsucceeded row
      · exact ⟨row', (hother _ hq).trans hrow', hstatus⟩
    unsuggested := fun d work' stage hhand hstage' => by
      rcases hand_cases hphase d work' stage hhand with ⟨-, -, rfl⟩ | ⟨-, hold⟩
      · rcases hstage' with heq | heq <;> cases heq
      · exact h.unsuggested d work' stage hold hstage'
    suggested := fun d work' hhand => by
      rcases hand_cases hphase d work' _ hhand with ⟨-, -, hstage'⟩ | ⟨-, hold⟩
      · cases hstage'
      · exact h.suggested d work' hold
    succeeded := fun pk row' hrow' hstatus => by
      by_cases hq : pk = work.job
      · subst hq
        change (s.saveJob work f).jobs.committed.get? work.job = some row' at hrow'
        rw [hself] at hrow'
        cases hrow'
        rcases hstage with ⟨-, hmanual⟩ | ⟨rfl, -⟩
        · rw [hmanual row] at hstatus
          cases hstatus
        · exact h.suggested c work hhand₀
      · exact h.succeeded pk row' ((hother pk hq).symm.trans hrow') hstatus
    once := h.once }

/-- A claim that fails leaves the job pending. -/
theorem fails (h : TriageInv s) (phase : TriagePhase) (hclaims' : ∀ work, phase ≠ .claiming work)
    (hhand : inHand phase = none) :
    TriageInv ({ s with jobs := s.jobs.rollback c }.setPhase c phase) := by
  have hold : ∀ d work stage, inHand (Function.update s.phase c phase d) = some (work, stage) →
      inHand (s.phase d) = some (work, stage) := by
    intro d work stage hd
    by_cases hdc : d = c
    · subst hdc
      rw [Function.update_self, hhand] at hd
      cases hd
    · rwa [Function.update_of_ne hdc] at hd
  exact {
    pending := fun q p hp => by
      obtain ⟨hp', howner⟩ := (s.jobs.pending_rollback c q p).mp hp
      obtain ⟨work, row, hphase, hrest⟩ := h.pending q p hp'
      exact ⟨work, row, (Function.update_of_ne howner _ _).trans hphase, hrest⟩
    claiming := fun d work hphase => by
      have hdc : d ≠ c := by
        rintro rfl
        change Function.update s.phase d _ d = _ at hphase
        rw [Function.update_self] at hphase
        exact hclaims' work hphase
      change Function.update s.phase c _ d = _ at hphase
      rw [Function.update_of_ne hdc] at hphase
      exact (s.jobs.pending_rollback c _ _).mpr ⟨h.claiming d work hphase, hdc⟩
    works := fun d work stage hd => h.works d work stage (hold d work stage hd)
    alone := fun d d' work work' stage stage' hd hd' =>
      h.alone d d' work work' stage stage' (hold _ _ _ hd) (hold _ _ _ hd')
    asked := h.asked
    askedOnce := h.askedOnce
    unasked := fun d work hd => h.unasked d work (hold _ _ _ hd)
    suggestions := h.suggestions
    unsuggested := fun d work stage hd => h.unsuggested d work stage (hold _ _ _ hd)
    suggested := fun d work hd => h.suggested d work (hold _ _ _ hd)
    succeeded := h.succeeded
    once := h.once }

/-- **Every step keeps the account.** -/
theorem step {a : TriageAction C} (h : TriageInv s) (heffect : TriageEffect K s a t) :
    TriageInv t := by
  induction heffect with
  | ticks elapsed => exact h.congr rfl rfl rfl rfl
  | submits building isPrivate text path => exact h.submits building isPrivate text path
  | moves report status hstatus => exact h.congr rfl rfl rfl rfl
  | begins c target limit hbusy =>
    refine h.rephase _ (fun work hd => ?_) (fun work hd => by cases hd) (.inl rfl)
    simp [TriageSystem.busy, hd] at hbusy
  | rests c w batch hd =>
    refine h.rephase _ (fun work hd' => ?_) (fun work hd' => by cases hd') (.inl rfl)
    rw [hd] at hd'
    cases hd'
  | claims c w batch job row hd hleft hrow hpending hfree =>
    exact h.claims batch job row hd hrow hpending hfree _
  | commits c work hd => exact h.commits work hd
  | reads c w work report hd hreport hranked =>
    refine h.rephase _ (fun work' hd' => ?_) (fun work' hd' => by cases hd') (.inr ?_)
    · rw [hd] at hd'
      cases hd'
    · rw [hd]
      rfl
  | asks c w work candidates report hd hreport =>
    exact h.asks work candidates hd _ rfl rfl _ _ _
  | raises c w work ids call elapsedMs hd hraises =>
    refine h.rephase _ (fun work' hd' => ?_) (fun work' hd' => by cases hd') (.inl rfl)
    rw [hd] at hd'
    cases hd'
  | defers c w work ids call elapsedMs reason hd hverdict hstores =>
    exact h.saves work .asked (by rw [hd]; rfl) _ (fun _ => rfl) (.inl ⟨rfl, fun _ => rfl⟩)
  | suggests c w work ids call elapsedMs requestId answer hd hverdict hnone hstores =>
    exact h.suggests work (by rw [hd]; rfl) _ rfl
  | succeeds c w work hd =>
    exact h.saves work .suggested (by rw [hd]; rfl) _ (fun _ => rfl) (.inr ⟨rfl, fun _ => rfl⟩)
  | closes c w work hd =>
    have hsame : TriageInv (s.reviewReport work.row.report) := h.congr rfl rfl rfl rfl
    refine hsame.rephase _ (fun work' hd' => ?_) (fun work' hd' => by cases hd') (.inl rfl)
    change s.phase c = _ at hd'
    rw [hd] at hd'
    cases hd'
  | fails c hbusy => exact h.fails _ (fun work hd => by cases hd) rfl
  | loses c w a t ha heffect hclaims ih =>
    exact ih.rephase _ hclaims (fun work hd => by cases hd) (.inl rfl)

end TriageInv

theorem triageInv_of_reaches {now : ℕ} {ok : TriageSystem C → TriageAction C → Prop}
    (h : Reaches (TriageSystem.step K) ok (TriageSystem.empty now) s) : TriageInv s :=
  h.preserves TriageInv (fun _ a _ hu _ hstep => hu.step (TriageEffect.of_step a hstep))
    (triageInv_empty now)

end LamTo.Analysis
