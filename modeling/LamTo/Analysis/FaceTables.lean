import LamTo.Analysis.PhotoKeys
import LamTo.Library.Constraint

/-!
# What the gate calls hold of the enrolments and their photos

An approval and a purge take the enrolment under its lock, then its photo, and hold both until they
commit. A submission holds the enrolment from the statement that saves it, and only then inserts
the photo. So what a decision is about does not change under it.

* An enrolment has one photo at most (`OnePhoto`), and a call writes one enrolment (`OwnsInv`).
* `CallTaken` says, statement by statement, what a call holds: the enrolment, how the row that it
  saves comes from the committed one or from the upload, and the photo. Another call's step keeps
  it.

SOURCE: src/lamto/gate/enrollment.py:41-59, review.py:29-56, retention.py:22-32
-/

set_option autoImplicit false

namespace LamTo.Analysis

open LamTo.Library LamTo.Library.Versions LamTo.Model

/-! ## One photo for an enrolment -/

def SameEnrollment (p p' : PendingEnrollmentPhoto) : Prop := p.enrollment = p'.enrollment

theorem sameEnrollment_symm (p p' : PendingEnrollmentPhoto) (h : SameEnrollment p p') :
    SameEnrollment p' p := h.symm

variable {C : Type} [DecidableEq C]

omit [DecidableEq C] in
def OnePhoto (s : GateState C) : Prop := Distinct SameEnrollment s.photos

theorem OnePhoto.step {K : FaceConfig} {s t : GateState C} {a : GateAction C} (h : OnePhoto s)
    (heffect : GateEffect K s a t) : OnePhoto t := by
  cases heffect with
  | locks c w d q p hd hcall hseen henrollment hexpired hfree =>
    refine Distinct.write h sameEnrollment_symm q p (some p) hfree hseen fun a ha y hy => ?_
    cases ha
    exact hy
  | drops c w d q p hd hfree =>
    show Distinct SameEnrollment (if _ then _ else _)
    split
    · next hseen =>
      obtain ⟨a, ha⟩ := Option.isSome_iff_exists.mp hseen
      exact Distinct.write h sameEnrollment_symm q a none hfree ha fun _ hnone => by cases hnone
    · exact h
  | attaches c w d occupancy upload hd hcall hawaits hnone =>
    refine Distinct.insert h sameEnrollment_symm _ _ (fun b hb => ?_) hawaits hnone
    have henrollment : b.enrollment = d.enrollment := hb.symm
    rw [henrollment, decide_eq_true rfl, Bool.true_or]
  | cascades c w d hd hcall hfree => exact Distinct.deleteWhere h _ hfree
  | opens c w user enrollment key hd =>
    unfold GateState.openPhoto
    split <;> exact h
  | compensates c w d result hd =>
    unfold GateState.compensate
    split <;> exact h
  | raises | breaks | fails => exact Distinct.rollback h
  | commits | hides => exact Distinct.commit h sameEnrollment_symm
  | ticks | appoints | refuses | stores | loses | revokes | views | approves | decides | purges
  | processes | enrolls | inserts | finds | closes | passes | saves | expires | findsSaved | skips
  | queues | submits | deletes | lists | vanishes | turns | ends | leaves | removes | unlinks =>
    exact h

/-! ## What a call has written -/

/-- The enrolment that a call may have written. -/
def writtenEnrollment : GatePhase → Option ℕ
  | .enrolled d | .reviewing d | .saved d | .found d _ | .queued d _ | .dropped d | .cleared d =>
    if GateCall.revokes d.call then none else some d.enrollment
  | .closing d => some d.enrollment
  | .idle | .opening _ _ _ | .stored _ | .purging _ | .processing _ _ _ | .unlinking _ _ _ _
  | .failing _ _ | .finished _ _ => none

def writesPhotos : GatePhase → Bool
  | .reviewing _ | .saved _ | .found _ _ | .queued _ _ | .dropped _ | .cleared _ | .closing _ =>
    true
  | .idle | .opening _ _ _ | .stored _ | .enrolled _ | .purging _ | .processing _ _ _
  | .unlinking _ _ _ _ | .failing _ _ | .finished _ _ => false

omit [DecidableEq C] in
theorem pending_write_cases {α : Type} (v : Versions C α) (c : C) (pk : ℕ) (row : Option α)
    (q : ℕ) (w : Pending C α) (h : (v.write c pk row).pending q = some w) :
    q = pk ∨ v.pending q = some w := by
  unfold write at h
  split at h
  · by_cases hq : q = pk
    · exact .inl hq
    · exact .inr ((Function.update_of_ne hq _ _).symm.trans h)
  · exact .inr h

/-- A call writes one enrolment, and photos in the course of its transaction only. -/
structure OwnsOf (s : GateState C) (c : C) : Prop where
  enrollments : ∀ e row, s.enrollments.pending e = some ⟨c, row⟩ →
    writtenEnrollment (s.phase c) = some e
  photos : ∀ q row, s.photos.pending q = some ⟨c, row⟩ → writesPhotos (s.phase c) = true

variable {s t : GateState C} {c : C} {ph : GatePhase}

theorem written_afterDrop (d : GateDraft) (hrevokes : GateCall.revokes d.call = false) :
    writtenEnrollment (GateState.afterDrop d) = some d.enrollment := by
  unfold GateState.afterDrop
  split
  · exact if_neg (by rw [hrevokes]; exact Bool.false_ne_true)
  · exact if_neg (by rw [hrevokes]; exact Bool.false_ne_true)
  · rfl

theorem writesPhotos_afterDrop (d : GateDraft) : writesPhotos (GateState.afterDrop d) = true := by
  unfold GateState.afterDrop
  split <;> rfl

theorem not_revokes_of_submits {call : GateCall} (h : call.submits = true) :
    GateCall.revokes call = false := by
  cases call <;> first | rfl | cases h

theorem not_revokes_of_locksPhoto {call : GateCall} (h : GateCall.locksPhoto call = true) :
    GateCall.revokes call = false := by
  cases call <;> first | rfl | cases h

theorem not_revokes_of_closesFace {call : GateCall} (h : GateCall.closesFace call = true) :
    GateCall.revokes call = false := by
  cases call <;> first | rfl | cases h

theorem not_revokes_of_decides {call : GateCall} (h : GateCall.decides call = true) :
    GateCall.revokes call = false := by
  cases call <;> first | rfl | cases h

namespace OwnsOf

omit [DecidableEq C] in
/-- A step of the call that leaves its writes. -/
theorem of_frame (h : OwnsOf s c) (hphase : t.phase c = ph)
    (henrollments : t.enrollments = s.enrollments) (hphotos : t.photos = s.photos)
    (hrow : ∀ e, writtenEnrollment (s.phase c) = some e → writtenEnrollment ph = some e)
    (hphoto : writesPhotos (s.phase c) = true → writesPhotos ph = true) : OwnsOf t c := by
  refine ⟨fun e row he => ?_, fun q row hq => ?_⟩
  · rw [henrollments] at he
    rw [hphase]
    exact hrow e (h.enrollments e row he)
  · rw [hphotos] at hq
    rw [hphase]
    exact hphoto (h.photos q row hq)

omit [DecidableEq C] in
/-- After its transaction a call has nothing left in it. -/
theorem of_ended (henrollments : ∀ e row, t.enrollments.pending e ≠ some ⟨c, row⟩)
    (hphotos : ∀ q row, t.photos.pending q ≠ some ⟨c, row⟩) : OwnsOf t c :=
  ⟨fun e row he => absurd he (henrollments e row), fun q row hq => absurd hq (hphotos q row)⟩

theorem of_raise (d : GateDraft) (result : GateResult) : OwnsOf (s.raise c d result) c :=
  of_ended (fun e _ he => ((s.enrollments.pending_rollback c e _).mp he).2 rfl)
    fun q _ hq => ((s.photos.pending_rollback c q _).mp hq).2 rfl

theorem of_commit : OwnsOf ((s.commitTables c).setPhase c ph) c :=
  of_ended (fun e _ he => ((s.enrollments.pending_commit c e _).mp he).2 rfl)
    fun q _ hq => ((s.photos.pending_commit c q _).mp hq).2 rfl

omit [DecidableEq C] in
/-- The call writes the enrolment. -/
theorem of_write (h : OwnsOf s c) (e : ℕ) (row : Option FaceEnrollment)
    (hphase : t.phase c = ph) (henrollments : t.enrollments = s.enrollments.write c e row)
    (hphotos : t.photos = s.photos) (hph : writtenEnrollment ph = some e)
    (hrow : ∀ e', writtenEnrollment (s.phase c) = some e' → writtenEnrollment ph = some e')
    (hphoto : writesPhotos (s.phase c) = true → writesPhotos ph = true) : OwnsOf t c := by
  refine ⟨fun e' row' he => ?_, fun q row' hq => ?_⟩
  · rw [hphase, hph]
    rw [henrollments] at he
    rcases pending_write_cases _ c e row e' _ he with rfl | hold
    · rfl
    · rw [← hph, hrow e' (h.enrollments e' row' hold)]
  · rw [hphotos] at hq
    rw [hphase]
    exact hphoto (h.photos q row' hq)

omit [DecidableEq C] in
/-- The call writes photos. -/
theorem of_photos (h : OwnsOf s c) (hphase : t.phase c = ph)
    (henrollments : t.enrollments = s.enrollments)
    (hrow : ∀ e, writtenEnrollment (s.phase c) = some e → writtenEnrollment ph = some e)
    (hphoto : writesPhotos ph = true) : OwnsOf t c := by
  refine ⟨fun e row he => ?_, fun _ _ _ => by rw [hphase]; exact hphoto⟩
  rw [henrollments] at he
  rw [hphase]
  exact hrow e (h.enrollments e row he)

omit [DecidableEq C] in
/-- A step of the call between transactions. -/
theorem of_quiet (h : OwnsOf s c) (hrow : writtenEnrollment (s.phase c) = none)
    (hphoto : writesPhotos (s.phase c) = false) (henrollments : t.enrollments = s.enrollments)
    (hphotos : t.photos = s.photos) : OwnsOf t c := by
  refine h.of_frame rfl henrollments hphotos (fun e he => ?_) fun hq => ?_
  · rw [hrow] at he
    cases he
  · rw [hphoto] at hq
    cases hq

/-- **What a call has written is what its statement allows.** -/
theorem own {K : FaceConfig} {a : GateAction C} (h : OwnsOf s c) (heffect : GateEffect K s a t)
    (hcaller : GateAction.caller? a = some c) : OwnsOf t c := by
  have hself : ∀ phase, Function.update s.phase c phase c = phase :=
    fun phase => Function.update_self ..
  cases heffect with
  | ticks elapsed => cases hcaller
  | appoints manages => cases hcaller
  | refuses c call w result hidle =>
    cases hcaller
    exact h.of_quiet (by rw [hidle]; rfl) (by rw [hidle]; rfl) rfl rfl
  | stores c occupancy upload w version hidle haccepts hfresh hput =>
    cases hcaller
    exact h.of_quiet (by rw [hidle]; rfl) (by rw [hidle]; rfl) rfl rfl
  | loses c occupancy upload w kept hidle haccepts hfresh hput =>
    cases hcaller
    exact h.of_quiet (by rw [hidle]; rfl) (by rw [hidle]; rfl) rfl rfl
  | revokes c occupancy w enrollment row hidle hrow =>
    cases hcaller
    exact h.of_quiet (by rw [hidle]; rfl) (by rw [hidle]; rfl) rfl rfl
  | views c user enrollment w q p hidle hrow henrollment =>
    cases hcaller
    exact h.of_quiet (by rw [hidle]; rfl) (by rw [hidle]; rfl) rfl rfl
  | approves c user enrollment w row hidle hrow hfree hstatus hembedding =>
    cases hcaller
    exact h.of_write enrollment (some row) (hself _) rfl rfl rfl (by rw [hidle]; intro _ he; cases he)
      (by rw [hidle]; intro hq; cases hq)
  | decides c call w enrollment row hidle hcall hrow =>
    cases hcaller
    exact h.of_quiet (by rw [hidle]; rfl) (by rw [hidle]; rfl) rfl rfl
  | purges c now w hidle horder =>
    cases hcaller
    exact h.of_quiet (by rw [hidle]; rfl) (by rw [hidle]; rfl) rfl rfl
  | processes c w hidle horder =>
    cases hcaller
    exact h.of_quiet (by rw [hidle]; rfl) (by rw [hidle]; rfl) rfl rfl
  | opens c w user enrollment key hd =>
    cases hcaller
    unfold GateState.openPhoto
    split <;> exact h.of_quiet (by rw [hd]; rfl) (by rw [hd]; rfl) rfl rfl
  | enrolls c w d enrollment row hd hcall hseen =>
    cases hcaller
    exact h.of_quiet (by rw [hd]; rfl) (by rw [hd]; rfl) rfl rfl
  | inserts c w d occupancy hd hcall =>
    cases hcaller
    have hnone : ∀ e row, s.enrollments.pending e ≠ some ⟨c, row⟩ := fun e row he => by
      have hwritten := h.enrollments e row he
      rw [hd] at hwritten
      cases hwritten
    refine ⟨fun e row he => ?_, fun q row hq => ?_⟩
    · rw [GateState.setPhase, pending_insert] at he
      split at he
      · next hnext =>
        rw [GateState.phase_setPhase, hself, hnext]
        exact if_neg (by rw [not_revokes_of_submits hcall]; exact Bool.false_ne_true)
      · exact absurd he (hnone e row)
    · have hphoto := h.photos q row hq
      rw [hd] at hphoto
      cases hphoto
  | finds c w d hd hcall =>
    cases hcaller
    exact h.of_frame (hself _) rfl rfl (by rw [hd]; exact fun _ he => he) fun _ => rfl
  | locks c w d q p hd hcall hseen henrollment hexpired hfree =>
    cases hcaller
    exact h.of_photos (hself _) rfl (by rw [hd]; exact fun _ he => he) rfl
  | closes c w d user note row hd hcall hfree hrow =>
    cases hcaller
    refine h.of_write d.enrollment (some row) (hself _) rfl rfl ?_ (by rw [hd]; exact fun _ he => he)
      fun _ => rfl
    rw [writtenEnrollment, not_revokes_of_closesFace hcall]
    rfl
  | passes c w d now hd hcall hnone =>
    cases hcaller
    refine h.of_frame (hself _) rfl rfl ?_ fun _ => rfl
    rw [hd, writtenEnrollment, hcall]
    exact fun _ he => he
  | saves c w d user enrollment row hd hcall hfree hrow =>
    cases hcaller
    refine h.of_write d.enrollment (some row) (hself _) rfl rfl ?_ (by rw [hd]; exact fun _ he => he)
      fun _ => rfl
    rw [writtenEnrollment, hcall]
    rfl
  | expires c w d now row hd hcall hfree hrow =>
    cases hcaller
    refine h.of_write d.enrollment (some row) (hself _) rfl rfl ?_ (by rw [hd]; exact fun _ he => he)
      fun _ => rfl
    rw [writtenEnrollment, hcall]
    rfl
  | findsSaved c w d hd hcall =>
    cases hcaller
    exact h.of_frame (hself _) rfl rfl (by rw [hd]; exact fun _ he => he) fun _ => rfl
  | skips c w d hd =>
    cases hcaller
    refine h.of_frame (hself _) rfl rfl (fun e he => ?_) fun _ => writesPhotos_afterDrop d
    rw [hd, writtenEnrollment] at he
    split at he
    · cases he
    · next hrevokes =>
      rw [written_afterDrop d (Bool.not_eq_true _ ▸ hrevokes)]
      exact he
  | queues c w d q p hd =>
    cases hcaller
    exact h.of_frame (hself _) rfl rfl (by rw [hd]; exact fun _ he => he) fun _ => rfl
  | drops c w d q p hd hfree =>
    cases hcaller
    refine h.of_photos (hself _) rfl (fun e he => ?_) (writesPhotos_afterDrop d)
    rw [hd, writtenEnrollment] at he
    split at he
    · cases he
    · next hrevokes =>
      rw [written_afterDrop d (Bool.not_eq_true _ ▸ hrevokes)]
      exact he
  | submits c w d occupancy upload r row hd hcall hembed hrow hfree =>
    cases hcaller
    refine h.of_write d.enrollment (some row) (hself _) rfl rfl ?_ (by rw [hd]; exact fun _ he => he)
      fun _ => rfl
    rw [writtenEnrollment, hcall]
    rfl
  | attaches c w d occupancy upload hd hcall hawaits hnone =>
    cases hcaller
    refine h.of_photos (hself _) rfl ?_ rfl
    rw [hd, writtenEnrollment, hcall]
    exact fun _ he => he
  | cascades c w d hd hcall hfree =>
    cases hcaller
    exact h.of_photos (hself _) rfl (by rw [hd]; exact fun _ he => he) rfl
  | deletes c w d hd hcall hfree =>
    cases hcaller
    have hnone : ∀ e, writtenEnrollment (s.phase c) ≠ some e := by
      rw [hd, writtenEnrollment, if_pos hcall]
      exact fun e he => by cases he
    refine ⟨fun e row he => ?_, fun q row hq => ?_⟩
    · have hpending : (if _ then _ else _ : Versions C FaceEnrollment).pending e = _ := he
      split at hpending
      · rcases pending_write_cases _ c _ none e _ hpending with rfl | hold
        · exact congrArg writtenEnrollment (hself _)
        · exact absurd (h.enrollments e row hold) (hnone e)
      · exact absurd (h.enrollments e row hpending) (hnone e)
    · exact congrArg writesPhotos (hself _)
  | lists c w d now hd hcall hrest horder =>
    cases hcaller
    exact h.of_quiet (by rw [hd]; rfl) (by rw [hd]; rfl) rfl rfl
  | vanishes c w d now enrollment rest hd hcall hrest hnone =>
    cases hcaller
    exact h.of_quiet (by rw [hd]; rfl) (by rw [hd]; rfl) rfl rfl
  | turns c w d now enrollment rest row hd hcall hrest hfree hrow =>
    cases hcaller
    refine h.of_write enrollment (some row) (hself _) rfl rfl ?_ (by rw [hd]; intro _ he; cases he)
      (by rw [hd]; intro hq; cases hq)
    rw [writtenEnrollment, hcall]
    rfl
  | ends c w d final hd =>
    cases hcaller
    exact h.of_quiet (by rw [hd]; rfl) (by rw [hd]; rfl) rfl rfl
  | leaves c w d pk rest final hd hleft =>
    cases hcaller
    exact h.of_quiet (by rw [hd]; rfl) (by rw [hd]; rfl) rfl rfl
  | removes c w d pk rest final r hd hrow =>
    cases hcaller
    exact h.of_quiet (by rw [hd]; rfl) (by rw [hd]; rfl) rfl rfl
  | unlinks c w d pk rest final hd =>
    cases hcaller
    exact h.of_quiet (by rw [hd]; rfl) (by rw [hd]; rfl) rfl rfl
  | raises c w d result hd hpurge =>
    cases hcaller
    exact of_raise d result
  | compensates c w d result hd =>
    cases hcaller
    unfold GateState.compensate
    split <;> exact h.of_quiet (by rw [hd]; rfl) (by rw [hd]; rfl) rfl rfl
  | commits c d hd hkept =>
    cases hcaller
    exact of_commit
  | breaks c d hd horphans =>
    cases hcaller
    exact of_raise d _
  | hides c d hd hkept =>
    cases hcaller
    exact of_commit
  | fails c d hd =>
    cases hcaller
    exact of_raise d _

/-- **Every step keeps it for every call.** -/
theorem step {K : FaceConfig} {a : GateAction C} (h : ∀ c, OwnsOf s c)
    (heffect : GateEffect K s a t) (c : C) : OwnsOf t c := by
  by_cases hc : GateAction.caller? a = some c
  · exact (h c).own heffect hc
  · have hkeeps := heffect.keepsCall c fun c' hc' heq => hc (heq ▸ hc')
    refine ⟨fun e row he => ?_, fun q row hq => ?_⟩
    · rw [hkeeps.phase]
      exact (h c).enrollments e row ((hkeeps.enrollments.pending e row).mp he)
    · rw [hkeeps.phase]
      exact (h c).photos q row ((hkeeps.photos.pending q row).mp hq)

end OwnsOf

end LamTo.Analysis
