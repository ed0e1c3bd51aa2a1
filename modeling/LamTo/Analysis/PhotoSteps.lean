import LamTo.Model.GatePhotos

/-!
# What a step of the gate calls does

`GateEffect` lists what the statements of the gate calls do, one case for each: which rows it
reads, which table it writes, and how far the call then is. What the calls keep is proved by going
through the list.

* Two statements write an enrolment without having locked it before: the one that saves a
  submission, and the one that closes an enrolment.
* A call raises in its own statement (`raises`), at its commit (`breaks`), or because the database
  fails it (`fails`).

SOURCE: src/lamto/gate/enrollment.py:27-73, photos.py, review.py:13-71, retention.py:19-34,
src/lamto/web/views/gate.py:25-58
-/

set_option autoImplicit false

namespace LamTo.Analysis

open LamTo.Library LamTo.Library.Versions LamTo.Model

/-- The call of a draft is a revocation by the resident. -/
def GateCall.revokes : GateCall → Bool
  | .revoke _ => true
  | _ => false

/-- The call takes the photo under its lock before it decides: an approval, or a purge. -/
def GateCall.locksPhoto : GateCall → Bool
  | .approve _ _ | .purge _ => true
  | _ => false

/-- The call closes the enrolment as `_close_face` does. -/
def GateCall.closesFace : GateCall → Bool
  | .reject _ _ _ | .revokeFace _ _ => true
  | _ => false

/-- The call decides on an enrolment, for a manager. -/
def GateCall.decides : GateCall → Bool
  | .approve _ _ | .reject _ _ _ | .revokeFace _ _ => true
  | _ => false

/-- The draft of a call in its transaction. -/
def GatePhase.transacts : GatePhase → Option GateDraft
  | .stored d | .enrolled d | .reviewing d | .saved d | .found d _ | .queued d _ | .dropped d
  | .cleared d | .closing d => some d
  | .idle | .opening _ _ _ | .purging _ | .processing _ _ _ | .unlinking _ _ _ _ | .failing _ _
  | .finished _ _ => none

/-- The draft of a call between its transactions and after them. -/
def GatePhase.follows : GatePhase → Option GateDraft
  | .purging d | .processing d _ _ | .unlinking d _ _ _ => some d
  | .idle | .opening _ _ _ | .stored _ | .enrolled _ | .reviewing _ | .saved _ | .found _ _
  | .queued _ _ | .dropped _ | .cleared _ | .closing _ | .failing _ _ | .finished _ _ => none

/-- The call that takes a step. -/
def GateAction.caller? {C : Type} : GateAction C → Option C
  | .tick _ | .setManagers _ => none
  | .begin c _ _ | .next c _ | .commit c | .commitLost c | .fail c => some c

variable {C : Type} [DecidableEq C]

inductive GateEffect (K : FaceConfig) (s : GateState C) : GateAction C → GateState C → Prop where
  | ticks (elapsed : ℕ) : GateEffect K s (.tick elapsed) { s with now := s.now + elapsed }
  | appoints (manages : ℕ → ℕ → Bool) : GateEffect K s (.setManagers manages) { s with manages }
  -- The first statements
  | refuses (c : C) (call : GateCall) (w : GateAnswers) (result : GateResult)
      (hidle : s.phase c = .idle) :
      GateEffect K s (.begin c call w) (s.setPhase c (.finished call result))
  | stores (c : C) (occupancy : ℕ) (upload : FaceUpload) (w : GateAnswers) (version : Text)
      (hidle : s.phase c = .idle) (haccepts : K.accepts upload = true)
      (hfresh : s.written (pendingPhotoKey w.uuid) = none)
      (hput : storePendingPhoto K w = .ok version) :
      GateEffect K s (.begin c (.submit occupancy upload) w)
        ({ s with
          written := Function.update s.written (pendingPhotoKey w.uuid) (some upload.data)
          objects := Function.update s.objects (pendingPhotoKey w.uuid) true }.setPhase c
            (.stored { newDraft (.submit occupancy upload) s.now with
              key := pendingPhotoKey w.uuid, version }))
  | loses (c : C) (occupancy : ℕ) (upload : FaceUpload) (w : GateAnswers) (kept : Bool)
      (hidle : s.phase c = .idle) (haccepts : K.accepts upload = true)
      (hfresh : s.written (pendingPhotoKey w.uuid) = none)
      (hput : storePendingPhoto K w = .error kept) :
      GateEffect K s (.begin c (.submit occupancy upload) w)
        ({ s with
          written := Function.update s.written (pendingPhotoKey w.uuid) (some upload.data)
          objects := Function.update s.objects (pendingPhotoKey w.uuid) kept }.setPhase c
            (.finished (.submit occupancy upload) .storage))
  | revokes (c : C) (occupancy : ℕ) (w : GateAnswers) (enrollment : ℕ) (row : FaceEnrollment)
      (hidle : s.phase c = .idle) (hrow : s.enrollments.committed.get? enrollment = some row) :
      GateEffect K s (.begin c (.revoke occupancy) w)
        (s.setPhase c (.enrolled { newDraft (.revoke occupancy) s.now with enrollment, row }))
  | views (c : C) (user enrollment : ℕ) (w : GateAnswers) (q : ℕ) (p : PendingEnrollmentPhoto)
      (hidle : s.phase c = .idle) (hrow : s.photos.committed.get? q = some p)
      (henrollment : p.enrollment = enrollment) :
      GateEffect K s (.begin c (.view user enrollment) w)
        (s.setPhase c (.opening user enrollment p.storageKey))
  | approves (c : C) (user enrollment : ℕ) (w : GateAnswers) (row : FaceEnrollment)
      (hidle : s.phase c = .idle) (hrow : s.enrollments.committed.get? enrollment = some row)
      (hfree : s.enrollments.locked c enrollment = false) (hstatus : row.status = .pending)
      (hembedding : row.embedding ≠ none) :
      GateEffect K s (.begin c (.approve user enrollment) w)
        ({ s with enrollments := s.enrollments.write c enrollment (some row) }.setPhase c
          (.enrolled { newDraft (.approve user enrollment) s.now with enrollment, row }))
  | decides (c : C) (call : GateCall) (w : GateAnswers) (enrollment : ℕ) (row : FaceEnrollment)
      (hidle : s.phase c = .idle) (hcall : GateCall.closesFace call = true)
      (hrow : s.enrollments.committed.get? enrollment = some row) :
      GateEffect K s (.begin c call w)
        (s.setPhase c (.enrolled { newDraft call s.now with enrollment, row }))
  | purges (c : C) (now : ℕ) (w : GateAnswers) (hidle : s.phase c = .idle)
      (horder : w.order.Perm (s.expired now)) :
      GateEffect K s (.begin c (.purge now) w)
        (s.setPhase c (.purging { newDraft (.purge now) s.now with rest := w.order }))
  | processes (c : C) (w : GateAnswers) (hidle : s.phase c = .idle)
      (horder : w.order.Perm s.queue) :
      GateEffect K s (.begin c .process w)
        (s.setPhase c (.processing (newDraft .process s.now) w.order true))
  -- The enrolment
  | opens (c : C) (w : GateAnswers) (user enrollment : ℕ) (key : Text)
      (hd : s.phase c = .opening user enrollment key) :
      GateEffect K s (.next c w) (s.openPhoto c user enrollment key)
  | enrolls (c : C) (w : GateAnswers) (d : GateDraft) (enrollment : ℕ) (row : FaceEnrollment)
      (hd : s.phase c = .stored d) (hcall : d.call.submits = true)
      (hseen : s.enrollments.seen c enrollment = some row) :
      GateEffect K s (.next c w) (s.setPhase c (.enrolled { d with enrollment, row }))
  | inserts (c : C) (w : GateAnswers) (d : GateDraft) (occupancy : ℕ) (hd : s.phase c = .stored d)
      (hcall : d.call.submits = true) :
      GateEffect K s (.next c w)
        ({ s with
          enrollments := s.enrollments.insert c (newEnrollment occupancy s.now) }.setPhase c
          (.enrolled { d with
            enrollment := s.enrollments.committed.next, row := newEnrollment occupancy s.now }))
  | finds (c : C) (w : GateAnswers) (d : GateDraft) (hd : s.phase c = .enrolled d)
      (hcall : d.call.submits = true ∨ GateCall.revokes d.call = true) :
      GateEffect K s (.next c w) (s.setPhase c (.found d (s.findPhoto c d.enrollment)))
  | locks (c : C) (w : GateAnswers) (d : GateDraft) (q : ℕ) (p : PendingEnrollmentPhoto)
      (hd : s.phase c = .enrolled d) (hcall : GateCall.locksPhoto d.call = true)
      (hseen : s.photos.seen c q = some p) (henrollment : p.enrollment = d.enrollment)
      (hexpired : ∀ now, d.call = .purge now → p.expiresAt ≤ now)
      (hfree : s.photos.locked c q = false) :
      GateEffect K s (.next c w)
        ({ s with photos := s.photos.write c q (some p) }.setPhase c
          (.reviewing { d with photo := some (q, p) }))
  | closes (c : C) (w : GateAnswers) (d : GateDraft) (user : ℕ) (note : Text)
      (row : FaceEnrollment) (hd : s.phase c = .enrolled d)
      (hcall : GateCall.closesFace d.call = true)
      (hfree : s.enrollments.locked c d.enrollment = false)
      (hrow : (s.enrollments.seen c d.enrollment).map (FaceEnrollment.close user s.now note) =
        some row) :
      GateEffect K s (.next c w)
        ({ s with enrollments := s.enrollments.write c d.enrollment (some row) }.setPhase c
          (.saved { d with row }))
  | passes (c : C) (w : GateAnswers) (d : GateDraft) (now : ℕ) (hd : s.phase c = .enrolled d)
      (hcall : d.call = .purge now)
      (hnone : ∀ q p, s.photos.seen c q = some p → p.enrollment = d.enrollment →
        now < p.expiresAt) :
      GateEffect K s (.next c w) (s.setPhase c (.closing d))
  -- The decision
  | saves (c : C) (w : GateAnswers) (d : GateDraft) (user enrollment : ℕ)
      (row : FaceEnrollment) (hd : s.phase c = .reviewing d)
      (hcall : d.call = .approve user enrollment)
      (hfree : s.enrollments.locked c d.enrollment = false)
      (hrow : FaceEnrollment.approve user s.now d.row = row) :
      GateEffect K s (.next c w)
        ({ s with enrollments := s.enrollments.write c d.enrollment (some row) }.setPhase c
          (.saved { d with row }))
  | expires (c : C) (w : GateAnswers) (d : GateDraft) (now : ℕ) (row : FaceEnrollment)
      (hd : s.phase c = .reviewing d) (hcall : d.call = .purge now)
      (hfree : s.enrollments.locked c d.enrollment = false)
      (hrow : FaceEnrollment.expire d.row = row) :
      GateEffect K s (.next c w)
        ({ s with enrollments := s.enrollments.write c d.enrollment (some row) }.setPhase c
          (.found { d with row } d.photo))
  | findsSaved (c : C) (w : GateAnswers) (d : GateDraft) (hd : s.phase c = .saved d)
      (hcall : GateCall.decides d.call = true) :
      GateEffect K s (.next c w) (s.setPhase c (.found d (s.findPhoto c d.enrollment)))
  -- The photo
  | skips (c : C) (w : GateAnswers) (d : GateDraft) (hd : s.phase c = .found d none) :
      GateEffect K s (.next c w) (s.setPhase c (GateState.afterDrop d))
  | queues (c : C) (w : GateAnswers) (d : GateDraft) (q : ℕ) (p : PendingEnrollmentPhoto)
      (hd : s.phase c = .found d (some (q, p))) :
      GateEffect K s (.next c w)
        ({ s with
          deletions := s.deletions.insert c ⟨p.storageKey, p.providerVersionId⟩ }.setPhase c
          (.queued { d with deletion := some s.deletions.committed.next } (q, p)))
  | drops (c : C) (w : GateAnswers) (d : GateDraft) (q : ℕ) (p : PendingEnrollmentPhoto)
      (hd : s.phase c = .queued d (q, p)) (hfree : s.photos.locked c q = false) :
      GateEffect K s (.next c w)
        ({ s with
          photos := if (s.photos.seen c q).isSome then s.photos.write c q none
            else s.photos }.setPhase c (GateState.afterDrop d))
  -- The end of a submission and of a revocation
  | submits (c : C) (w : GateAnswers) (d : GateDraft) (occupancy : ℕ) (upload : FaceUpload)
      (r : EmbeddingResult) (row : FaceEnrollment) (hd : s.phase c = .dropped d)
      (hcall : d.call = .submit occupancy upload) (hembed : K.embed upload.data = some r)
      (hrow : FaceEnrollment.submit r (K.sealEmbedding w.nonce r.vector) d.time d.row = row)
      (hfree : s.enrollments.locked c d.enrollment = false) :
      GateEffect K s (.next c w)
        ({ s with enrollments := s.enrollments.write c d.enrollment (some row) }.setPhase c
          (.saved { d with row }))
  | attaches (c : C) (w : GateAnswers) (d : GateDraft) (occupancy : ℕ) (upload : FaceUpload)
      (hd : s.phase c = .saved d) (hcall : d.call = .submit occupancy upload)
      (hawaits : s.photos.awaits c (fun p => p.enrollment = d.enrollment ||
        p.storageKey = d.key) = false)
      (hnone : (s.photos.view c).any (fun p => p.enrollment = d.enrollment ||
        p.storageKey = d.key) = false) :
      GateEffect K s (.next c w)
        ({ s with photos := s.photos.insert c (newPhoto K d upload) }.setPhase c
          (.closing d))
  | cascades (c : C) (w : GateAnswers) (d : GateDraft) (hd : s.phase c = .dropped d)
      (hcall : GateCall.revokes d.call = true)
      (hfree : s.photos.lockedWhere c (fun p => p.enrollment = d.enrollment) = false) :
      GateEffect K s (.next c w)
        ({ s with
          photos := s.photos.updateWhere c (fun p => p.enrollment = d.enrollment)
            fun _ => none }.setPhase c (.cleared d))
  | deletes (c : C) (w : GateAnswers) (d : GateDraft) (hd : s.phase c = .cleared d)
      (hcall : GateCall.revokes d.call = true)
      (hfree : s.enrollments.locked c d.enrollment = false) :
      GateEffect K s (.next c w)
        ({ s with
          enrollments := if (s.enrollments.seen c d.enrollment).isSome then
            s.enrollments.write c d.enrollment none else s.enrollments }.setPhase c (.closing d))
  -- The purge and the queue
  | lists (c : C) (w : GateAnswers) (d : GateDraft) (now : ℕ) (hd : s.phase c = .purging d)
      (hcall : d.call = .purge now) (hrest : d.rest = []) (horder : w.order.Perm s.queue) :
      GateEffect K s (.next c w) (s.setPhase c (.processing d w.order true))
  | vanishes (c : C) (w : GateAnswers) (d : GateDraft) (now enrollment : ℕ) (rest : List ℕ)
      (hd : s.phase c = .purging d) (hcall : d.call = .purge now)
      (hrest : d.rest = enrollment :: rest)
      (hnone : s.enrollments.committed.get? enrollment = none) :
      GateEffect K s (.next c w) (s.setPhase c (.finished d.call .doesNotExist))
  | turns (c : C) (w : GateAnswers) (d : GateDraft) (now enrollment : ℕ) (rest : List ℕ)
      (row : FaceEnrollment) (hd : s.phase c = .purging d) (hcall : d.call = .purge now)
      (hrest : d.rest = enrollment :: rest)
      (hfree : s.enrollments.locked c enrollment = false)
      (hrow : s.enrollments.committed.get? enrollment = some row) :
      GateEffect K s (.next c w)
        ({ s with enrollments := s.enrollments.write c enrollment (some row) }.setPhase c
          (.enrolled { d with enrollment, row, rest }))
  | ends (c : C) (w : GateAnswers) (d : GateDraft) (final : Bool)
      (hd : s.phase c = .processing d [] final) :
      GateEffect K s (.next c w)
        (s.setPhase c (if final then .finished d.call .done else GateState.afterCallbacks d))
  | leaves (c : C) (w : GateAnswers) (d : GateDraft) (pk : ℕ) (rest : List ℕ) (final : Bool)
      (hd : s.phase c = .processing d (pk :: rest) final)
      (hleft : ∀ r, s.deletions.committed.get? pk = some r →
        deletesPendingPhoto K r.providerVersionId w = false) :
      GateEffect K s (.next c w) (s.setPhase c (.processing d rest final))
  | removes (c : C) (w : GateAnswers) (d : GateDraft) (pk : ℕ) (rest : List ℕ) (final : Bool)
      (r : PhotoDeletion) (hd : s.phase c = .processing d (pk :: rest) final)
      (hrow : s.deletions.committed.get? pk = some r) :
      GateEffect K s (.next c w)
        ({ s with objects := Function.update s.objects r.storageKey false }.setPhase c
          (.unlinking d pk rest final))
  | unlinks (c : C) (w : GateAnswers) (d : GateDraft) (pk : ℕ) (rest : List ℕ) (final : Bool)
      (hd : s.phase c = .unlinking d pk rest final) :
      GateEffect K s (.next c w) ((s.unlink pk).setPhase c (.processing d rest final))
  -- Errors and commits
  | raises (c : C) (w : GateAnswers) (d : GateDraft) (result : GateResult)
      (hd : GatePhase.transacts (s.phase c) = some d)
      (hpurge : ∀ now, d.call = .purge now → ∃ photo, s.phase c = .found d (some photo) ∧
        (s.deletions.view c).any (fun r => r.storageKey = photo.2.storageKey) = true) :
      GateEffect K s (.next c w) (s.raise c d result)
  | compensates (c : C) (w : GateAnswers) (d : GateDraft) (result : GateResult)
      (hd : s.phase c = .failing d result) :
      GateEffect K s (.next c w) (s.compensate K c d result w)
  | commits (c : C) (d : GateDraft) (hd : s.phase c = .closing d)
      (hkept : s.orphans c d = false) :
      GateEffect K s (.commit c) ((s.commitTables c).setPhase c (GateState.afterCommit d))
  | breaks (c : C) (d : GateDraft) (hd : s.phase c = .closing d) (horphans : s.orphans c d = true) :
      GateEffect K s (.commit c) (s.raise c d .integrity)
  | hides (c : C) (d : GateDraft) (hd : s.phase c = .closing d) (hkept : s.orphans c d = false) :
      GateEffect K s (.commitLost c)
        ((s.commitTables c).setPhase c (GateState.afterError d .database))
  | fails (c : C) (d : GateDraft)
      (hd : GatePhase.transacts (s.phase c) = some d ∨ GatePhase.follows (s.phase c) = some d) :
      GateEffect K s (.fail c) (s.raise c d .database)

/-! ## The functions of the model -/

namespace GateEffect

variable {K : FaceConfig} {s t : GateState C} {c : C} {d : GateDraft} {w : GateAnswers}

theorem of_beginSubmit (occupancy : ℕ) (upload : FaceUpload) (hidle : s.phase c = .idle)
    (h : s.beginSubmit K c occupancy upload w = some t) :
    GateEffect K s (.begin c (.submit occupancy upload) w) t := by
  simp only [GateState.beginSubmit] at h
  split at h
  · cases h
    exact .refuses c _ w _ hidle
  · next haccepts =>
    have haccepts : K.accepts upload = true := by simpa using haccepts
    split at h
    · cases h
    · next hfresh =>
      rw [Option.not_isSome_iff_eq_none] at hfresh
      split at h
      · next version hput =>
        cases h
        exact .stores c occupancy upload w version hidle haccepts hfresh hput
      · next kept hput =>
        cases h
        exact .loses c occupancy upload w kept hidle haccepts hfresh hput

theorem of_beginApprove (user enrollment : ℕ) (hidle : s.phase c = .idle)
    (h : s.beginApprove c user enrollment = some t) :
    GateEffect K s (.begin c (.approve user enrollment) w) t := by
  unfold GateState.beginApprove at h
  split at h
  · cases h
    exact .refuses c _ w _ hidle
  · next row hrow =>
    split at h
    · cases h
      exact .refuses c _ w _ hidle
    · split at h
      · cases h
      · next hfree =>
        split at h
        · cases h
          exact .refuses c _ w _ hidle
        · next hchecks =>
          cases h
          have hchecks : row.status = .pending ∧ row.embedding ≠ none := by simpa using hchecks
          exact .approves c user enrollment w row hidle hrow (Bool.not_eq_true _ ▸ hfree) hchecks.1
            hchecks.2

theorem of_begin (call : GateCall) (h : s.begin K c call w = some t) :
    GateEffect K s (.begin c call w) t := by
  unfold GateState.begin at h
  split at h
  · next hidle =>
    split at h
    · exact of_beginSubmit _ _ hidle h
    · cases h
      unfold GateState.beginRevoke
      split
      · exact .refuses c _ w _ hidle
      · next hrow => exact .revokes c _ w _ _ hidle (Table.first?_eq_some _ _ _ _ hrow).1
    · cases h
      unfold GateState.beginView
      split
      · exact .refuses c _ w _ hidle
      · next q p hrow =>
        split
        · obtain ⟨hrow, henrollment⟩ := Table.first?_eq_some _ _ _ _ hrow
          exact .views c _ _ w q p hidle hrow (of_decide_eq_true henrollment)
        · exact .refuses c _ w _ hidle
    · exact of_beginApprove _ _ hidle h
    · cases h
      unfold GateState.beginReject
      split
      · exact .refuses c _ w _ hidle
      · next hrow =>
        split
        · exact .refuses c _ w _ hidle
        · split
          · exact .refuses c _ w _ hidle
          · exact .decides c _ w _ _ hidle rfl hrow
    · cases h
      unfold GateState.beginRevokeFace
      split
      · exact .refuses c _ w _ hidle
      · next hrow =>
        split
        · exact .refuses c _ w _ hidle
        · exact .decides c _ w _ _ hidle rfl hrow
    · split at h
      · next horder =>
        cases h
        exact .purges c _ w hidle horder
      · cases h
    · split at h
      · next horder =>
        cases h
        exact .processes c w hidle horder
      · cases h
  · cases h

theorem of_enroll (occupancy : ℕ) (upload : FaceUpload) (hd : s.phase c = .stored d)
    (hcall : d.call = .submit occupancy upload) (h : s.enroll c d occupancy = some t) :
    GateEffect K s (.next c w) t := by
  have hsubmits : d.call.submits = true := by
    rw [hcall]
    rfl
  unfold GateState.enroll at h
  split at h
  · next hrow =>
    cases h
    have hseen := (Table.first?_eq_some _ _ _ _ hrow).1
    rw [get?_view] at hseen
    exact .enrolls c w d _ _ hd hsubmits hseen
  · split at h
    · cases h
    · cases h
      exact .inserts c w d occupancy hd hsubmits

theorem of_lockPhoto (q : ℕ) (p : PendingEnrollmentPhoto) (hd : s.phase c = .enrolled d)
    (hcall : GateCall.locksPhoto d.call = true) (hseen : s.photos.seen c q = some p)
    (henrollment : p.enrollment = d.enrollment)
    (hexpired : ∀ now, d.call = .purge now → p.expiresAt ≤ now)
    (h : s.lockPhoto c d (q, p) = some t) : GateEffect K s (.next c w) t := by
  unfold GateState.lockPhoto at h
  split at h
  · cases h
  · next hfree =>
    cases h
    exact .locks c w d q p hd hcall hseen henrollment hexpired (Bool.not_eq_true _ ▸ hfree)

theorem of_closeEnrollment (user : ℕ) (note : Text) (hd : s.phase c = .enrolled d)
    (hcall : GateCall.closesFace d.call = true)
    (h : s.closeEnrollment c d user note = some t) : GateEffect K s (.next c w) t := by
  have hraise : ∀ result, GateEffect K s (.next c w) (s.raise c d result) := by
    intro result
    refine .raises c w d result (by rw [hd]; rfl) fun now hpurge => ?_
    rw [hpurge] at hcall
    cases hcall
  unfold GateState.closeEnrollment at h
  split at h
  · cases h
  · next hfree =>
    split at h
    · cases h
      exact hraise _
    · next row hseen =>
      split at h
      · cases h
        exact hraise _
      · cases h
        exact .closes c w d user note _ hd hcall (Bool.not_eq_true _ ▸ hfree)
          (by rw [hseen, Option.map_some])

/-- A photo that a call finds is one that it sees. -/
theorem seen_of_first (q : ℕ) (p : PendingEnrollmentPhoto) (f : PendingEnrollmentPhoto → Bool)
    (h : (s.photos.view c).first? f = some (q, p)) : s.photos.seen c q = some p ∧ f p = true := by
  obtain ⟨hrow, hf⟩ := Table.first?_eq_some _ _ _ _ h
  rw [get?_view] at hrow
  exact ⟨hrow, hf⟩

theorem seen_of_findPhoto (enrollment q : ℕ) (p : PendingEnrollmentPhoto)
    (h : s.findPhoto c enrollment = some (q, p)) :
    s.photos.seen c q = some p ∧ p.enrollment = enrollment := by
  obtain ⟨hseen, henrollment⟩ := seen_of_first q p _ h
  exact ⟨hseen, of_decide_eq_true henrollment⟩

theorem of_afterEnrolled (hd : s.phase c = .enrolled d) (h : s.afterEnrolled K c d = some t) :
    GateEffect K s (.next c w) t := by
  unfold GateState.afterEnrolled at h
  split at h
  · next hcall =>
    cases h
    exact .finds c w d hd (.inl (by rw [hcall]; rfl))
  · next hcall =>
    cases h
    exact .finds c w d hd (.inr (by rw [hcall]; rfl))
  · next user enrollment hcall =>
    split at h
    · cases h
      refine .raises c w d _ (by rw [hd]; rfl) fun now hpurge => ?_
      rw [hcall] at hpurge
      cases hpurge
    · next photo hphoto =>
      obtain ⟨q, p⟩ := photo
      obtain ⟨hseen, henrollment⟩ := seen_of_findPhoto d.enrollment q p hphoto
      refine of_lockPhoto q p hd (by rw [hcall]; rfl) hseen henrollment (fun now hpurge => ?_) h
      rw [hcall] at hpurge
      cases hpurge
  · next hcall => exact of_closeEnrollment _ _ hd (by rw [hcall]; rfl) h
  · next hcall => exact of_closeEnrollment _ _ hd (by rw [hcall]; rfl) h
  · next now hcall =>
    split at h
    · next hnone =>
      cases h
      refine .passes c w d now hd hcall fun q p hseen henrollment => ?_
      have hno := (Table.first?_eq_none _ _).mp hnone q p (by rw [get?_view]; exact hseen)
      simpa [henrollment] using hno
    · next photo hphoto =>
      obtain ⟨q, p⟩ := photo
      obtain ⟨hseen, hboth⟩ := seen_of_first q p _ hphoto
      rw [Bool.and_eq_true, decide_eq_true_eq, decide_eq_true_eq] at hboth
      refine of_lockPhoto q p hd (by rw [hcall]; rfl) hseen hboth.1 (fun now' hpurge => ?_) h
      rw [hcall] at hpurge
      cases hpurge
      exact hboth.2
  · cases h
  · cases h

theorem of_saveDecision (hd : s.phase c = .reviewing d) (h : s.saveDecision c d = some t) :
    GateEffect K s (.next c w) t := by
  simp only [GateState.saveDecision] at h
  split at h
  · cases h
  · next hfree =>
    have hfree := Bool.not_eq_true _ ▸ hfree
    split at h
    · next user enrollment hcall =>
      cases h
      exact .saves c w d user enrollment _ hd hcall hfree rfl
    · next now hcall =>
      cases h
      exact .expires c w d now _ hd hcall hfree rfl
    · cases h

theorem of_queueDeletion (photo : ℕ × PendingEnrollmentPhoto)
    (hd : s.phase c = .found d (some photo)) (h : s.queueDeletion c d photo = some t) :
    GateEffect K s (.next c w) t := by
  obtain ⟨q, p⟩ := photo
  simp only [GateState.queueDeletion] at h
  split at h
  · cases h
  · split at h
    · next hany =>
      cases h
      exact .raises c w d _ (by rw [hd]; rfl) fun _ _ => ⟨(q, p), hd, hany⟩
    · cases h
      exact .queues c w d q p hd

theorem of_dropPhoto (q : ℕ) (p : PendingEnrollmentPhoto) (hd : s.phase c = .queued d (q, p))
    (h : s.dropPhoto c d q = some t) : GateEffect K s (.next c w) t := by
  simp only [GateState.dropPhoto] at h
  split at h
  · cases h
  · next hfree =>
    have hdrops : GateEffect K s _ _ := .drops c w d q p hd (Bool.not_eq_true _ ▸ hfree)
    cases h
    by_cases hseen : (s.photos.seen c q).isSome = true
    · rw [if_pos hseen] at hdrops ⊢
      exact hdrops
    · rw [if_neg hseen] at hdrops ⊢
      exact hdrops

theorem of_saveSubmission (occupancy : ℕ) (upload : FaceUpload) (hd : s.phase c = .dropped d)
    (hcall : d.call = .submit occupancy upload) (h : s.saveSubmission K c d upload w = some t) :
    GateEffect K s (.next c w) t := by
  simp only [GateState.saveSubmission] at h
  split at h
  · cases h
  · next r hembed =>
    split at h
    · cases h
    · next hfree =>
      have hsaves : GateEffect K s _ _ := .submits c w d occupancy upload r _ hd hcall hembed rfl
        (Bool.not_eq_true _ ▸ hfree)
      split at h
      · cases h
        exact hsaves
      · split at h
        · cases h
        · split at h
          · cases h
            refine .raises c w d _ (by rw [hd]; rfl) fun now hpurge => ?_
            rw [hcall] at hpurge
            cases hpurge
          · cases h
            exact hsaves

theorem of_insertPhoto (occupancy : ℕ) (upload : FaceUpload) (hd : s.phase c = .saved d)
    (hcall : d.call = .submit occupancy upload) (h : s.insertPhoto K c d upload = some t) :
    GateEffect K s (.next c w) t := by
  simp only [GateState.insertPhoto] at h
  split at h
  · cases h
  · next hawaits =>
    split at h
    · cases h
      refine .raises c w d _ (by rw [hd]; rfl) fun now hpurge => ?_
      rw [hcall] at hpurge
      cases hpurge
    · next hnone =>
      cases h
      exact .attaches c w d occupancy upload hd hcall (Bool.not_eq_true _ ▸ hawaits)
        (Bool.not_eq_true _ ▸ hnone)

theorem of_afterDropped (hd : s.phase c = .dropped d) (h : s.afterDropped K c d w = some t) :
    GateEffect K s (.next c w) t := by
  simp only [GateState.afterDropped] at h
  split at h
  · next occupancy upload hcall => exact of_saveSubmission occupancy upload hd hcall h
  · next hcall =>
    split at h
    · cases h
    · next hfree =>
      cases h
      exact .cascades c w d hd (by rw [hcall]; rfl) (Bool.not_eq_true _ ▸ hfree)
  · cases h

theorem of_afterSaved (hd : s.phase c = .saved d) (h : s.afterSaved K c d = some t) :
    GateEffect K s (.next c w) t := by
  unfold GateState.afterSaved at h
  split at h
  · next occupancy upload hcall => exact of_insertPhoto occupancy upload hd hcall h
  · next hcall =>
    cases h
    exact .findsSaved c w d hd (by rw [hcall]; rfl)
  · next hcall =>
    cases h
    exact .findsSaved c w d hd (by rw [hcall]; rfl)
  · next hcall =>
    cases h
    exact .findsSaved c w d hd (by rw [hcall]; rfl)
  · cases h

theorem of_deleteEnrollment (hd : s.phase c = .cleared d)
    (hcall : GateCall.revokes d.call = true) (h : s.deleteEnrollment c d = some t) :
    GateEffect K s (.next c w) t := by
  simp only [GateState.deleteEnrollment] at h
  split at h
  · cases h
  · next hfree =>
    have hdeletes : GateEffect K s _ _ := .deletes c w d hd hcall (Bool.not_eq_true _ ▸ hfree)
    cases h
    by_cases hseen : (s.enrollments.seen c d.enrollment).isSome = true
    · rw [if_pos hseen] at hdeletes ⊢
      exact hdeletes
    · rw [if_neg hseen] at hdeletes ⊢
      exact hdeletes

theorem of_nextExpired (now : ℕ) (hd : s.phase c = .purging d) (hcall : d.call = .purge now)
    (h : s.nextExpired c d w = some t) :
    GateEffect K s (.next c w) t := by
  unfold GateState.nextExpired at h
  split at h
  · next hrest =>
    split at h
    · next horder =>
      cases h
      exact .lists c w d now hd hcall hrest horder
    · cases h
  · next enrollment rest hrest =>
    split at h
    · cases h
    · next hfree =>
      split at h
      · next hnone =>
        cases h
        exact .vanishes c w d now enrollment rest hd hcall hrest hnone
      · next row hrow =>
        cases h
        exact .turns c w d now enrollment rest row hd hcall hrest (Bool.not_eq_true _ ▸ hfree) hrow

theorem of_processNext (deletions : List ℕ) (final : Bool)
    (hd : s.phase c = .processing d deletions final) :
    GateEffect K s (.next c w) (s.processNext K c d deletions final w) := by
  unfold GateState.processNext
  split
  · exact .ends c w d final hd
  · next pk rest =>
    split
    · next hnone =>
      refine .leaves c w d pk rest final hd fun r hr => ?_
      rw [hnone] at hr
      cases hr
    · next r hr =>
      split
      · exact .removes c w d pk rest final r hd hr
      · next hrefused =>
        refine .leaves c w d pk rest final hd fun r' hr' => ?_
        rw [hr] at hr'
        cases hr'
        exact Bool.not_eq_true _ ▸ hrefused

theorem of_next (h : s.next K c w = some t) : GateEffect K s (.next c w) t := by
  unfold GateState.next at h
  split at h
  · next user enrollment key hd =>
    cases h
    exact .opens c w user enrollment key hd
  · next d hd =>
    split at h
    · next occupancy upload hcall => exact of_enroll occupancy upload hd hcall h
    · cases h
  · next d hd => exact of_afterEnrolled hd h
  · next d hd => exact of_saveDecision hd h
  · next d hd => exact of_afterSaved hd h
  · next d hd =>
    cases h
    exact .skips c w d hd
  · next d photo hd => exact of_queueDeletion photo hd h
  · next d photo hd => exact of_dropPhoto photo.1 photo.2 hd h
  · next d hd => exact of_afterDropped hd h
  · next d hd =>
    split at h
    · next hcall => exact of_deleteEnrollment hd (by rw [hcall]; rfl) h
    · cases h
  · next d hd =>
    split at h
    · next now hcall => exact of_nextExpired now hd hcall h
    · cases h
  · next d deletions final hd =>
    cases h
    exact of_processNext deletions final hd
  · next d pk rest final hd =>
    cases h
    exact .unlinks c w d pk rest final hd
  · next d result hd =>
    cases h
    exact .compensates c w d result hd
  · cases h
  · cases h
  · cases h

theorem of_fail (h : s.fail c = some t) : GateEffect K s (.fail c) t := by
  unfold GateState.fail at h
  split at h <;> cases h
  all_goals
    next hd =>
      refine .fails c _ ?_
      rw [hd]
      first
      | exact .inl rfl
      | exact .inr rfl

/-- **Every step is one of those listed.** -/
theorem of_step (a : GateAction C) (h : s.step K a = some t) : GateEffect K s a t := by
  cases a with
  | tick elapsed =>
    cases h
    exact .ticks elapsed
  | setManagers manages =>
    cases h
    exact .appoints manages
  | begin c call w => exact of_begin call h
  | next c w => exact of_next h
  | commit c =>
    change s.commit c = some t at h
    unfold GateState.commit at h
    split at h
    · next d hd =>
      split at h
      · next horphans =>
        cases h
        exact .breaks c d hd horphans
      · next hkept =>
        cases h
        exact .commits c d hd (Bool.not_eq_true _ ▸ hkept)
    · cases h
  | commitLost c =>
    change s.commitLost c = some t at h
    unfold GateState.commitLost at h
    split at h
    · next d hd =>
      split at h
      · cases h
      · next hkept =>
        cases h
        exact .hides c d hd (Bool.not_eq_true _ ▸ hkept)
    · cases h
  | fail c => exact of_fail h

/-! ## What a call keeps while another takes a step -/

/-- What a call has written and how far it is are as they were. -/
structure KeepsCall (s t : GateState C) (d : C) : Prop where
  phase : t.phase d = s.phase d
  enrollments : KeepsOwn d s.enrollments t.enrollments
  photos : KeepsOwn d s.photos t.photos

theorem keepsCall_update {e : C} {phase : GatePhase} (hphase : t.phase = Function.update s.phase c phase)
    (he : e ≠ c) (henrollments : KeepsOwn e s.enrollments t.enrollments)
    (hphotos : KeepsOwn e s.photos t.photos) : KeepsCall s t e where
  phase := by rw [hphase, Function.update_of_ne he]
  enrollments := henrollments
  photos := hphotos

theorem keepsCall_raise {e : C} (he : e ≠ c) (d : GateDraft) (result : GateResult) :
    KeepsCall s (s.raise c d result) e :=
  keepsCall_update rfl he (keepsOwn_rollback he) (keepsOwn_rollback he)

/-- **A step of one call leaves the others.** -/
theorem keepsCall {a : GateAction C} (h : GateEffect K s a t) (e : C)
    (he : ∀ c, GateAction.caller? a = some c → e ≠ c) : KeepsCall s t e := by
  have hself : KeepsOwn e s.enrollments s.enrollments := keepsOwn_self
  have hphoto : KeepsOwn e s.photos s.photos := keepsOwn_self
  cases h with
  | ticks elapsed => exact ⟨rfl, hself, hphoto⟩
  | appoints manages => exact ⟨rfl, hself, hphoto⟩
  | approves c user enrollment w row hidle hrow hfree hstatus hembedding =>
    exact keepsCall_update rfl (he c rfl) (keepsOwn_write (he c rfl) _ _ hfree) hphoto
  | opens c w user enrollment key hd =>
    unfold GateState.openPhoto
    split <;> exact keepsCall_update rfl (he c rfl) hself hphoto
  | inserts c w d occupancy hd hcall =>
    exact keepsCall_update rfl (he c rfl) (keepsOwn_insert (he c rfl) _) hphoto
  | locks c w d q p hd hcall hseen henrollment hexpired hfree =>
    exact keepsCall_update rfl (he c rfl) hself (keepsOwn_write (he c rfl) _ _ hfree)
  | closes c w d user note row hd hcall hfree hrow =>
    exact keepsCall_update rfl (he c rfl) (keepsOwn_write (he c rfl) _ _ hfree) hphoto
  | saves c w d user enrollment row hd hcall hfree hrow =>
    exact keepsCall_update rfl (he c rfl) (keepsOwn_write (he c rfl) _ _ hfree) hphoto
  | expires c w d now row hd hcall hfree hrow =>
    exact keepsCall_update rfl (he c rfl) (keepsOwn_write (he c rfl) _ _ hfree) hphoto
  | drops c w d q p hd hfree =>
    refine keepsCall_update rfl (he c rfl) hself ?_
    show KeepsOwn e s.photos (if _ then _ else _)
    split
    · exact keepsOwn_write (he c rfl) _ _ hfree
    · exact hphoto
  | submits c w d occupancy upload r row hd hcall hembed hrow hfree =>
    exact keepsCall_update rfl (he c rfl) (keepsOwn_write (he c rfl) _ _ hfree) hphoto
  | attaches c w d occupancy upload hd hcall hawaits hnone =>
    exact keepsCall_update rfl (he c rfl) hself (keepsOwn_insert (he c rfl) _)
  | cascades c w d hd hcall hfree =>
    exact keepsCall_update rfl (he c rfl) hself (keepsOwn_updateWhere (he c rfl) _ _ hfree)
  | deletes c w d hd hcall hfree =>
    refine keepsCall_update rfl (he c rfl) ?_ hphoto
    show KeepsOwn e s.enrollments (if _ then _ else _)
    split
    · exact keepsOwn_write (he c rfl) _ _ hfree
    · exact hself
  | turns c w d now enrollment rest row hd hcall hrest hfree hrow =>
    exact keepsCall_update rfl (he c rfl) (keepsOwn_write (he c rfl) _ _ hfree) hphoto
  | compensates c w d result hd =>
    unfold GateState.compensate
    split <;> exact keepsCall_update rfl (he c rfl) hself hphoto
  | commits c d hd hkept =>
    exact keepsCall_update rfl (he c rfl) (keepsOwn_commit (he c rfl))
      (keepsOwn_commit (he c rfl))
  | hides c d hd hkept =>
    exact keepsCall_update rfl (he c rfl) (keepsOwn_commit (he c rfl))
      (keepsOwn_commit (he c rfl))
  | raises c w d result hd hpurge => exact keepsCall_raise (he c rfl) d result
  | breaks c d hd horphans => exact keepsCall_raise (he c rfl) d _
  | fails c d hd => exact keepsCall_raise (he c rfl) d _
  | refuses c | stores c | loses c | revokes c | views c | decides c | purges c | processes c
  | enrolls c | finds c | passes c | findsSaved c | skips c | queues c | lists c | vanishes c
  | ends c | leaves c | removes c | unlinks c =>
    exact keepsCall_update rfl (he c rfl) hself hphoto

end GateEffect

end LamTo.Analysis
