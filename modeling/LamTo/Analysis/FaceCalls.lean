import LamTo.Analysis.FaceTables

/-!
# What a gate call holds of the enrolment and the photo

`CallTaken` says it statement by statement. An approval and a purge lock the enrolment, then its
photo, and hold both until they commit. A rejection and a revocation by the management hold the
enrolment they have closed, and then no photo of it comes or goes but the one they found. A
submission holds the enrolment from the statement that saves it, and only then inserts the photo.

The row that a call saves comes from the committed one or from the upload (`RowOrigin`).

SOURCE: src/lamto/gate/enrollment.py:41-59, review.py:29-56, retention.py:22-32
-/

set_option autoImplicit false

namespace LamTo.Analysis

open LamTo.Library LamTo.Library.Versions LamTo.Model

variable {C : Type}

/-- The photo of a decision, under its lock, or deleted. -/
def PhotoLocked (s : GateState C) (c : C) (d : GateDraft) (deleted : Bool) : Prop :=
  ∃ q p, d.photo = some (q, p) ∧
    s.photos.pending q = some ⟨c, if deleted then none else some p⟩ ∧
    s.photos.committed.get? q = some p ∧ p.enrollment = d.enrollment ∧
    ∀ now, d.call = .purge now → p.expiresAt ≤ now

/-- The enrolment of a decision, under its lock. -/
structure RowLocked (s : GateState C) (c : C) (d : GateDraft) : Prop where
  pending : s.enrollments.pending d.enrollment = some ⟨c, some d.row⟩
  committed : s.enrollments.committed.get? d.enrollment = some d.row
  target : ∀ user enrollment, d.call = .approve user enrollment → d.enrollment = enrollment

/-- Where the row that a call has saved comes from. -/
def RowOrigin (K : FaceConfig) (s : GateState C) (d : GateDraft) : Prop :=
  match d.call with
  | .submit _ upload => ∃ r nonce e, K.embed upload.data = some r ∧
      d.row = FaceEnrollment.submit r (K.sealEmbedding nonce r.vector) d.time e
  | .approve user enrollment => d.enrollment = enrollment ∧ ∃ reviewedAt row,
      s.enrollments.committed.get? d.enrollment = some row ∧
        d.row = FaceEnrollment.approve user reviewedAt row
  | .purge _ => ∃ row, s.enrollments.committed.get? d.enrollment = some row ∧
      d.row = if d.photo.isNone then row else FaceEnrollment.expire row
  | _ => True

structure RowSaved (K : FaceConfig) (s : GateState C) (c : C) (d : GateDraft) : Prop where
  pending : s.enrollments.pending d.enrollment = some ⟨c, some d.row⟩
  origin : RowOrigin K s d

/-- The picture of a submission is what was stored under its key. -/
def Uploaded (s : GateState C) (d : GateDraft) : Prop :=
  ∀ occupancy upload, d.call = .submit occupancy upload → s.written d.key = some upload.data

/-- A submission writes an enrolment whose key is drawn. -/
def Drawn (s : GateState C) (d : GateDraft) : Prop :=
  d.call.submits = true → 0 < d.enrollment ∧ d.enrollment < s.enrollments.committed.next

variable [DecidableEq C]

/-- The call sees no photo of the enrolment but this one. -/
def SeenOnly (s : GateState C) (c : C) (enrollment : ℕ) (photo : Option ℕ) : Prop :=
  ∀ q p, s.photos.seen c q = some p → p.enrollment = enrollment → photo = some q

/-- What a decision holds of the photo that it drops. -/
structure PhotoFound (K : FaceConfig) (s : GateState C) (c : C) (d : GateDraft)
    (photo : Option (ℕ × PendingEnrollmentPhoto)) : Prop where
  kind : d.call.submits = true ∨ GateCall.revokes d.call = true ∨
    GateCall.closesFace d.call = true ∨ GateCall.locksPhoto d.call = true
  closes : GateCall.closesFace d.call = true →
    RowSaved K s c d ∧ SeenOnly s c d.enrollment (photo.map Prod.fst)
  locks : GateCall.locksPhoto d.call = true →
    RowSaved K s c d ∧ photo = d.photo ∧ PhotoLocked s c d false

/-- What a call holds when it is about to commit. -/
structure ClosingTaken (K : FaceConfig) (s : GateState C) (c : C) (d : GateDraft) : Prop where
  kind : d.call.submits = true ∨ GateCall.revokes d.call = true ∨
    GateCall.closesFace d.call = true ∨ GateCall.locksPhoto d.call = true
  revokes : GateCall.revokes d.call = true → ∀ row,
    s.enrollments.pending d.enrollment = some ⟨c, row⟩ → row = none
  row : GateCall.revokes d.call = false → RowSaved K s c d
  closes : GateCall.closesFace d.call = true → SeenOnly s c d.enrollment none
  locks : GateCall.locksPhoto d.call = true →
    PhotoLocked s c d true ∨ d.photo = none ∧ ∃ now, d.call = .purge now
  inserted : ∀ occupancy upload, d.call = .submit occupancy upload → ∀ q p,
    s.photos.pending q = some ⟨c, some p⟩ → s.photos.committed.get? q = none →
      p = newPhoto K d upload

def CallTaken (K : FaceConfig) (s : GateState C) (c : C) : GatePhase → Prop
  | .stored d => Uploaded s d
  | .dropped d => Uploaded s d ∧ Drawn s d
  | .enrolled d => Uploaded s d ∧ Drawn s d ∧
    (GateCall.locksPhoto d.call = true → d.photo = none ∧ RowLocked s c d)
  | .reviewing d => GateCall.locksPhoto d.call = true ∧ RowLocked s c d ∧ PhotoLocked s c d false
  | .saved d => Uploaded s d ∧ RowSaved K s c d ∧
      (GateCall.locksPhoto d.call = true → PhotoLocked s c d false)
  | .found d photo => Uploaded s d ∧ Drawn s d ∧ PhotoFound K s c d photo
  | .queued d photo => Uploaded s d ∧ Drawn s d ∧ PhotoFound K s c d (some photo)
  | .closing d => Uploaded s d ∧ ClosingTaken K s c d
  | .purging d => d.photo = none
  | .idle | .opening _ _ _ | .cleared _ | .processing _ _ _ | .unlinking _ _ _ _ | .failing _ _
  | .finished _ _ => True

/-! ## Steps of the others -/

section Keeping

variable {K : FaceConfig} {s t : GateState C} {c : C} {d : GateDraft}

omit [DecidableEq C] in
theorem PhotoLocked.keep {deleted : Bool} (h : PhotoLocked s c d deleted)
    (hkeeps : KeepsOwn c s.photos t.photos) : PhotoLocked t c d deleted := by
  obtain ⟨q, p, hphoto, hpending, hcommitted, hrest⟩ := h
  exact ⟨q, p, hphoto, (hkeeps.pending q _).mpr hpending,
    (hkeeps.committed q _ hpending).trans hcommitted, hrest⟩

omit [DecidableEq C] in
theorem RowLocked.keep (h : RowLocked s c d) (hkeeps : KeepsOwn c s.enrollments t.enrollments) :
    RowLocked t c d :=
  ⟨(hkeeps.pending _ _).mpr h.pending, (hkeeps.committed _ _ h.pending).trans h.committed, h.target⟩

omit [DecidableEq C] in
theorem RowOrigin.congr (h : RowOrigin K s d)
    (hrow : t.enrollments.committed.get? d.enrollment = s.enrollments.committed.get? d.enrollment) :
    RowOrigin K t d := by
  unfold RowOrigin at *
  rw [hrow]
  exact h

omit [DecidableEq C] in
theorem RowSaved.keep (h : RowSaved K s c d) (hkeeps : KeepsOwn c s.enrollments t.enrollments) :
    RowSaved K t c d :=
  ⟨(hkeeps.pending _ _).mpr h.pending, h.origin.congr (hkeeps.committed _ _ h.pending)⟩

omit [DecidableEq C] in
theorem Uploaded.keep (h : Uploaded s d)
    (hwritten : ∀ key data, s.written key = some data → t.written key = some data) :
    Uploaded t d :=
  fun occupancy upload hcall => hwritten _ _ (h occupancy upload hcall)

omit [DecidableEq C] in
theorem Drawn.keep (h : Drawn s d)
    (hnext : s.enrollments.committed.next ≤ t.enrollments.committed.next) : Drawn t d :=
  fun hcall => ⟨(h hcall).1, (h hcall).2.trans_le hnext⟩

/-- **What a call holds it keeps** while another takes a step that shows it no new photo of an
enrolment it holds. -/
theorem CallTaken.keep {ph : GatePhase} (h : CallTaken K s c ph)
    (henrollments : KeepsOwn c s.enrollments t.enrollments)
    (hphotos : KeepsOwn c s.photos t.photos)
    (hwritten : ∀ key data, s.written key = some data → t.written key = some data)
    (hseen : ∀ e row, s.enrollments.pending e = some ⟨c, row⟩ → ∀ q p,
      t.photos.seen c q = some p → p.enrollment = e → s.photos.seen c q = some p) :
    CallTaken K t c ph := by
  have honly : ∀ {d : GateDraft} {photo : Option ℕ}, RowSaved K s c d →
      SeenOnly s c d.enrollment photo → SeenOnly t c d.enrollment photo :=
    fun hrow h q p hq hp => h q p (hseen _ _ hrow.pending q p hq hp) hp
  have hfound : ∀ {d : GateDraft} {photo : Option (ℕ × PendingEnrollmentPhoto)},
      PhotoFound K s c d photo → PhotoFound K t c d photo := fun h =>
    ⟨h.kind, fun hcall => ⟨(h.closes hcall).1.keep henrollments,
        honly (h.closes hcall).1 (h.closes hcall).2⟩,
      fun hcall => ⟨(h.locks hcall).1.keep henrollments, (h.locks hcall).2.1,
        (h.locks hcall).2.2.keep hphotos⟩⟩
  cases ph with
  | stored d => exact Uploaded.keep h hwritten
  | dropped d => exact ⟨h.1.keep hwritten, h.2.keep henrollments.next⟩
  | enrolled d =>
    exact ⟨h.1.keep hwritten, h.2.1.keep henrollments.next,
      fun hcall => (h.2.2 hcall).imp_right (·.keep henrollments)⟩
  | reviewing d => exact ⟨h.1, h.2.1.keep henrollments, h.2.2.keep hphotos⟩
  | saved d =>
    exact ⟨h.1.keep hwritten, h.2.1.keep henrollments, fun hcall => (h.2.2 hcall).keep hphotos⟩
  | found d photo | queued d photo =>
    exact ⟨h.1.keep hwritten, h.2.1.keep henrollments.next, hfound h.2.2⟩
  | closing d =>
    refine ⟨h.1.keep hwritten, h.2.kind,
      fun hcall row hrow => h.2.revokes hcall row ((henrollments.pending _ row).mp hrow),
      fun hcall => (h.2.row hcall).keep henrollments, fun hcall => ?_,
      fun hcall => (h.2.locks hcall).imp_left (·.keep hphotos), fun o u hcall q p hq hnone => ?_⟩
    · exact honly (h.2.row (not_revokes_of_closesFace hcall)) (h.2.closes hcall)
    · have hpending := (hphotos.pending q _).mp hq
      exact h.2.inserted o u hcall q p hpending ((hphotos.committed q _ hpending).symm.trans hnone)
  | purging d => exact h
  | idle | opening | cleared | processing | unlinking | failing | finished => trivial

end Keeping

/-! ## Kinds of calls -/

theorem closesFace_of_submits {call : GateCall} (h : call.submits = true) :
    GateCall.closesFace call = false := by
  cases call <;> first | rfl | cases h

theorem locksPhoto_of_submits {call : GateCall} (h : call.submits = true) :
    GateCall.locksPhoto call = false := by
  cases call <;> first | rfl | cases h

theorem closesFace_of_revokes {call : GateCall} (h : GateCall.revokes call = true) :
    GateCall.closesFace call = false := by
  cases call <;> first | rfl | cases h

theorem locksPhoto_of_revokes {call : GateCall} (h : GateCall.revokes call = true) :
    GateCall.locksPhoto call = false := by
  cases call <;> first | rfl | cases h

theorem locksPhoto_of_closesFace {call : GateCall} (h : GateCall.closesFace call = true) :
    GateCall.locksPhoto call = false := by
  cases call <;> first | rfl | cases h

theorem closesFace_of_locksPhoto {call : GateCall} (h : GateCall.locksPhoto call = true) :
    GateCall.closesFace call = false := by
  cases call <;> first | rfl | cases h

theorem submits_of_locksPhoto {call : GateCall} (h : GateCall.locksPhoto call = true) :
    call.submits = false := by
  cases call <;> first | rfl | cases h

/-! ## Steps of the call -/

section Own

variable {K : FaceConfig} {s t : GateState C} {c : C}

theorem callTaken_afterError (d : GateDraft) (result : GateResult) :
    CallTaken K t c (GateState.afterError d result) := by
  unfold GateState.afterError
  split <;> trivial

theorem callTaken_afterCallbacks (d : GateDraft) :
    CallTaken K t c (GateState.afterCallbacks d) := by
  unfold GateState.afterCallbacks
  split
  · rfl
  · trivial

theorem callTaken_afterCommit (d : GateDraft) : CallTaken K t c (GateState.afterCommit d) := by
  unfold GateState.afterCommit
  split
  · trivial
  · exact callTaken_afterCallbacks d

theorem callTaken_afterDrop (d : GateDraft) (hupload : Uploaded t d) (hdrawn : Drawn t d)
    (h : d.call.submits = false → GateCall.revokes d.call = false → ClosingTaken K t c d) :
    CallTaken K t c (GateState.afterDrop d) := by
  unfold GateState.afterDrop
  split
  · exact ⟨hupload, hdrawn⟩
  · exact ⟨hupload, hdrawn⟩
  · next hsubmit hrevoke =>
    refine ⟨hupload, h ?_ ?_⟩
    · cases hcall : d.call with
      | submit occupancy upload => exact absurd hcall (hsubmit occupancy upload)
      | revoke _ | view _ _ | approve _ _ | reject _ _ _ | revokeFace _ _ | purge _ | process => rfl
    · cases hcall : d.call with
      | revoke occupancy => exact absurd hcall (hrevoke occupancy)
      | submit _ _ | view _ _ | approve _ _ | reject _ _ _ | revokeFace _ _ | purge _ | process =>
        rfl

omit [DecidableEq C] in
/-- A call that submits nothing has uploaded nothing. -/
theorem uploaded_of_not_submits {d : GateDraft} (h : d.call.submits = false) : Uploaded s d := by
  intro occupancy upload hcall
  rw [hcall] at h
  cases h

omit [DecidableEq C] in
omit [DecidableEq C] in
theorem drawn_of_not_submits {d : GateDraft} (h : d.call.submits = false) : Drawn s d := by
  intro hsubmits
  rw [h] at hsubmits
  cases hsubmits

omit [DecidableEq C] in
/-- The enrolment of a decision that begins is the committed one. -/
theorem rowLocked_of_write (d : GateDraft) (enrollment : ℕ) (row : FaceEnrollment)
    (hrow : s.enrollments.committed.get? enrollment = some row)
    (henrollments : t.enrollments = s.enrollments.write c enrollment (some row))
    (hd : d.enrollment = enrollment) (hdrow : d.row = row)
    (htarget : ∀ user e, d.call = .approve user e → enrollment = e) : RowLocked t c d := by
  have hbounds : 0 < enrollment ∧ enrollment < s.enrollments.committed.next :=
    ⟨Table.pos_of_get? _ _ _ hrow, Table.lt_next_of_get? _ _ _ hrow⟩
  refine ⟨?_, ?_, by rw [hd]; exact htarget⟩
  · rw [henrollments, hd, hdrow, pending_write _ _ _ _ hbounds, if_pos rfl]
  · rw [henrollments, committed_write, hd, hdrow, hrow]

omit [DecidableEq C] in
theorem rowOrigin_of_closesFace (d : GateDraft) (h : GateCall.closesFace d.call = true) :
    RowOrigin K s d := by
  unfold RowOrigin
  cases hcall : d.call with
  | reject _ _ _ | revokeFace _ _ => trivial
  | submit _ _ | revoke _ | view _ _ | approve _ _ | purge _ | process =>
    rw [hcall] at h
    cases h

theorem kind_of_decides {call : GateCall} (h : GateCall.decides call = true) :
    GateCall.closesFace call = true ∨ GateCall.locksPhoto call = true := by
  cases call with
  | approve _ _ => exact .inr rfl
  | reject _ _ _ | revokeFace _ _ => exact .inl rfl
  | submit _ _ | revoke _ | view _ _ | purge _ | process => cases h

theorem PhotoFound.closes_of_not {d : GateDraft} {photo : Option (ℕ × PendingEnrollmentPhoto)}
    (h : PhotoFound K s c d photo) (hsubmits : d.call.submits = false)
    (hrevokes : GateCall.revokes d.call = false) (hlocks : ¬ GateCall.locksPhoto d.call = true) :
    GateCall.closesFace d.call = true := by
  rcases h.kind with hkind | hkind | hkind | hkind
  · rw [hsubmits] at hkind
    cases hkind
  · rw [hrevokes] at hkind
    cases hkind
  · exact hkind
  · exact absurd hkind hlocks

/-- The first photo of an enrolment is the only one. -/
theorem seenOnly_findPhoto (hone : OnePhoto s) (enrollment : ℕ) :
    SeenOnly s c enrollment ((s.findPhoto c enrollment).map Prod.fst) := by
  intro q p hq hp
  cases hfind : s.findPhoto c enrollment with
  | none =>
    have hnone := (Table.first?_eq_none _ _).mp hfind q p (by rw [get?_view]; exact hq)
    rw [decide_eq_false_iff_not] at hnone
    exact absurd hp hnone
  | some photo =>
    obtain ⟨hseen, hphoto⟩ := GateEffect.seen_of_findPhoto enrollment photo.1 photo.2 hfind
    exact congrArg some (hone.seen sameEnrollment_symm photo.1 q photo.2 p hseen hq
      (hphoto.trans hp.symm))

theorem findPhoto_of_locked {d : GateDraft} (hone : OnePhoto s) (h : PhotoLocked s c d false) :
    s.findPhoto c d.enrollment = d.photo := by
  obtain ⟨q, p, hphoto, hpending, -, hp, -⟩ := h
  have hseen : s.photos.seen c q = some p := s.photos.seen_own c q _ hpending
  have hfst := seenOnly_findPhoto hone d.enrollment q p hseen hp
  obtain ⟨⟨q', p'⟩, hfind, rfl⟩ := Option.map_eq_some_iff.mp hfst
  have hseen' := (GateEffect.seen_of_findPhoto _ _ _ hfind).1
  rw [hseen] at hseen'
  cases hseen'
  rw [hfind, hphoto]

/-- What a call sees after it has deleted a row. -/
theorem seen_of_dropped {α : Type} (v : Versions C α) (q : ℕ) (hfree : v.locked c q = false)
    (q' : ℕ) (a : α)
    (h : (if (v.seen c q).isSome then v.write c q none else v).seen c q' = some a) :
    v.seen c q' = some a ∧ q' ≠ q := by
  split at h
  · next hseen =>
    obtain ⟨b, hb⟩ := Option.isSome_iff_exists.mp hseen
    rw [v.seen_write c q none (v.seen_bounded c q b hb) hfree] at h
    split at h
    · cases h
    · next hne => exact ⟨h, fun heq => hne ⟨rfl, heq⟩⟩
  · next hseen =>
    refine ⟨h, ?_⟩
    rintro rfl
    rw [h] at hseen
    exact hseen rfl

/-- **A step of the call**: it holds what its statement says. -/
theorem CallTaken.own {a : GateAction C} (hkeys : KeysInv false s) (howns : OwnsOf s c)
    (hone : OnePhoto s) (h : CallTaken K s c (s.phase c)) (heffect : GateEffect K s a t)
    (hcaller : GateAction.caller? a = some c) : CallTaken K t c (t.phase c) := by
  have hset : ∀ (u : GateState C) (ph : GatePhase), CallTaken K (u.setPhase c ph) c ph →
      CallTaken K (u.setPhase c ph) c ((u.setPhase c ph).phase c) := fun u ph htaken => by
    rw [GateState.phase_setPhase, Function.update_self]
    exact htaken
  cases heffect with
  | ticks elapsed => cases hcaller
  | appoints manages => cases hcaller
  | refuses c call w result hidle =>
    cases hcaller
    exact hset _ _ trivial
  | stores c occupancy upload w version hidle haccepts hfresh hput =>
    cases hcaller
    refine hset _ _ fun o u hcall => ?_
    cases hcall
    exact Function.update_self ..
  | loses c occupancy upload w kept hidle haccepts hfresh hput =>
    cases hcaller
    exact hset _ _ trivial
  | revokes c occupancy w enrollment row hidle hrow =>
    cases hcaller
    exact hset _ _ ⟨uploaded_of_not_submits rfl, drawn_of_not_submits rfl,
      fun hlocks => by cases hlocks⟩
  | views c user enrollment w q p hidle hrow henrollment =>
    cases hcaller
    exact hset _ _ trivial
  | approves c user enrollment w row hidle hrow hfree hstatus hembedding =>
    cases hcaller
    refine hset _ _ ⟨uploaded_of_not_submits rfl, drawn_of_not_submits rfl, fun _ => ⟨rfl, ?_⟩⟩
    exact rowLocked_of_write _ enrollment row hrow rfl rfl rfl fun user e hcall => by
      cases hcall
      rfl
  | decides c call w enrollment row hidle hcall hrow =>
    cases hcaller
    refine hset _ _ ⟨uploaded_of_not_submits (submits_of_closesFace hcall),
      drawn_of_not_submits (submits_of_closesFace hcall), fun hlocks => ?_⟩
    have hnot : GateCall.locksPhoto call = true := hlocks
    rw [locksPhoto_of_closesFace hcall] at hnot
    cases hnot
  | purges c now w hidle horder =>
    cases hcaller
    exact hset _ _ rfl
  | processes c w hidle horder =>
    cases hcaller
    exact hset _ _ trivial
  | opens c w user enrollment key hd =>
    cases hcaller
    unfold GateState.openPhoto
    split <;> exact hset _ _ trivial
  | enrolls c w d enrollment row hd hcall hseen =>
    cases hcaller
    rw [hd] at h
    refine hset _ _ ⟨h, fun _ => s.enrollments.seen_bounded c enrollment row hseen, fun hlocks => ?_⟩
    rw [locksPhoto_of_submits hcall] at hlocks
    cases hlocks
  | inserts c w d occupancy hd hcall =>
    cases hcaller
    rw [hd] at h
    refine hset _ _ ⟨h, fun _ => ⟨s.enrollments.committed.next_pos, Nat.lt_succ_self _⟩,
      fun hlocks => ?_⟩
    rw [locksPhoto_of_submits hcall] at hlocks
    cases hlocks
  | finds c w d hd hcall =>
    cases hcaller
    rw [hd] at h
    refine hset _ _ ⟨h.1, h.2.1, hcall.imp_right .inl, fun hcloses => ?_, fun hlocks => ?_⟩
    · rw [hcall.elim closesFace_of_submits closesFace_of_revokes] at hcloses
      cases hcloses
    · rw [hcall.elim locksPhoto_of_submits locksPhoto_of_revokes] at hlocks
      cases hlocks
  | locks c w d q p hd hcall hseen henrollment hexpired hfree =>
    cases hcaller
    have hcommitted : s.photos.committed.get? q = some p := by
      rcases s.photos.seen_cases c q with ⟨row, hrow, -⟩ | ⟨-, hsame⟩
      · have hwrites := howns.photos q row hrow
        rw [hd] at hwrites
        cases hwrites
      · exact hsame.symm.trans hseen
    rw [hd] at h
    obtain ⟨-, hlocked⟩ := h.2.2 hcall
    refine hset _ _ ⟨hcall, ⟨hlocked.pending, hlocked.committed, hlocked.target⟩, q, p, rfl, ?_, ?_,
      henrollment, hexpired⟩
    · exact (pending_write _ _ _ _ (s.photos.seen_bounded c q p hseen) q).trans (if_pos rfl)
    · exact (get?_write_committed _ _ _ _ q).trans hcommitted
  | closes c w d user note row hd hcall hfree hrow =>
    cases hcaller
    rw [hd] at h
    obtain ⟨old, hold, -⟩ := Option.map_eq_some_iff.mp hrow
    refine hset _ _ ⟨h.1, ⟨?_, ?_⟩, fun hlocks => ?_⟩
    · exact (pending_write _ _ _ _ (s.enrollments.seen_bounded c _ old hold) _).trans (if_pos rfl)
    · exact rowOrigin_of_closesFace _ hcall
    · rw [locksPhoto_of_closesFace hcall] at hlocks
      cases hlocks
  | passes c w d now hd hcall hnone =>
    cases hcaller
    rw [hd] at h
    have hlocks : GateCall.locksPhoto d.call = true := by
      rw [hcall]
      rfl
    obtain ⟨hphoto, hlocked⟩ := h.2.2 hlocks
    refine hset _ _ ⟨h.1, .inr (.inr (.inr hlocks)), fun hrevokes => ?_,
      fun _ => ⟨hlocked.pending, ?_⟩, fun hcloses => ?_, fun _ => .inr ⟨hphoto, now, hcall⟩,
      fun o u hsubmit => ?_⟩
    · rw [not_revokes_of_locksPhoto hlocks] at hrevokes
      cases hrevokes
    · unfold RowOrigin
      rw [hcall, hphoto]
      exact ⟨d.row, hlocked.committed, rfl⟩
    · rw [closesFace_of_locksPhoto hlocks] at hcloses
      cases hcloses
    · rw [hcall] at hsubmit
      cases hsubmit
  | saves c w d user enrollment row hd hcall hfree hrow =>
    cases hcaller
    rw [hd] at h
    obtain ⟨hlocks, hlocked, q, p, hphoto⟩ := h
    have hbounds := s.enrollments.drawn _ _ hlocked.pending
    refine hset _ _ ⟨uploaded_of_not_submits (submits_of_locksPhoto hlocks), ⟨?_, ?_⟩,
      fun _ => ⟨q, p, hphoto⟩⟩
    · exact (pending_write _ _ _ _ hbounds _).trans (if_pos rfl)
    · unfold RowOrigin
      dsimp only
      rw [hcall]
      exact ⟨hlocked.target user enrollment hcall, s.now, d.row,
        (get?_write_committed _ _ _ _ _).trans hlocked.committed, hrow.symm⟩
  | expires c w d now row hd hcall hfree hrow =>
    cases hcaller
    rw [hd] at h
    obtain ⟨hlocks, hlocked, q, p, hphoto, hphoto'⟩ := h
    have hbounds := s.enrollments.drawn _ _ hlocked.pending
    refine hset _ _ ⟨uploaded_of_not_submits (submits_of_locksPhoto hlocks),
      drawn_of_not_submits (submits_of_locksPhoto hlocks), .inr (.inr (.inr hlocks)),
      fun hcloses => ?_, fun _ => ⟨⟨?_, ?_⟩, rfl, q, p, hphoto, hphoto'⟩⟩
    · have hnot : GateCall.closesFace d.call = true := hcloses
      rw [closesFace_of_locksPhoto hlocks] at hnot
      cases hnot
    · exact (pending_write _ _ _ _ hbounds _).trans (if_pos rfl)
    · unfold RowOrigin
      dsimp only
      rw [hcall, hphoto]
      exact ⟨d.row, (get?_write_committed _ _ _ _ _).trans hlocked.committed, hrow.symm⟩
  | findsSaved c w d hd hcall =>
    cases hcaller
    rw [hd] at h
    obtain ⟨hupload, hrow, hphoto⟩ := h
    have hkind := kind_of_decides hcall
    refine hset _ _ ⟨hupload, drawn_of_not_submits ?_, .inr (.inr hkind),
      fun _ => ⟨⟨hrow.pending, hrow.origin⟩, seenOnly_findPhoto hone d.enrollment⟩,
      fun hlocks => ⟨⟨hrow.pending, hrow.origin⟩, findPhoto_of_locked hone (hphoto hlocks),
        hphoto hlocks⟩⟩
    exact hkind.elim submits_of_closesFace submits_of_locksPhoto
  | skips c w d hd =>
    cases hcaller
    rw [hd] at h
    obtain ⟨hupload, hdrawn, hfound⟩ := h
    refine hset _ _ (callTaken_afterDrop d hupload hdrawn fun hsubmits hrevokes => ?_)
    have hlocked : ¬ GateCall.locksPhoto d.call = true := fun hlocks => by
      obtain ⟨-, hphoto, q, p, hsome, -⟩ := hfound.locks hlocks
      rw [hsome] at hphoto
      cases hphoto
    refine ⟨hfound.kind, fun hrevoke => ?_, fun _ => ?_, fun hcloses => (hfound.closes hcloses).2,
      fun hlocks => absurd hlocks hlocked, fun o u hcall => ?_⟩
    · rw [hrevokes] at hrevoke
      cases hrevoke
    · have hrow := (hfound.closes (hfound.closes_of_not hsubmits hrevokes hlocked)).1
      exact ⟨hrow.pending, hrow.origin⟩
    · rw [hcall] at hsubmits
      cases hsubmits
  | queues c w d q p hd =>
    cases hcaller
    rw [hd] at h
    obtain ⟨hupload, hdrawn, hfound⟩ := h
    refine hset _ _ ⟨hupload, hdrawn, hfound.kind, fun hcloses => ?_, fun hlocks => ?_⟩
    · obtain ⟨hrow, honly⟩ := hfound.closes hcloses
      exact ⟨⟨hrow.pending, hrow.origin⟩, honly⟩
    · obtain ⟨hrow, hphoto, hlocked⟩ := hfound.locks hlocks
      exact ⟨⟨hrow.pending, hrow.origin⟩, hphoto, hlocked⟩
  | drops c w d q p hd hfree =>
    cases hcaller
    rw [hd] at h
    obtain ⟨hupload, hdrawn, hfound⟩ := h
    refine hset _ _ (callTaken_afterDrop d hupload hdrawn fun hsubmits hrevokes => ?_)
    refine ⟨hfound.kind, fun hrevoke => ?_, fun _ => ?_, fun hcloses q' p' hq' hp' => ?_,
      fun hlocks => .inl ?_, fun o u hcall => ?_⟩
    · rw [hrevokes] at hrevoke
      cases hrevoke
    · by_cases hlocks : GateCall.locksPhoto d.call = true
      · obtain ⟨hrow, -⟩ := hfound.locks hlocks
        exact ⟨hrow.pending, hrow.origin⟩
      · obtain ⟨hrow, -⟩ := hfound.closes (hfound.closes_of_not hsubmits hrevokes hlocks)
        exact ⟨hrow.pending, hrow.origin⟩
    · obtain ⟨hseen, hne⟩ := seen_of_dropped s.photos q hfree q' p' hq'
      exact absurd (Option.some.inj ((hfound.closes hcloses).2 q' p' hseen hp')).symm hne
    · obtain ⟨-, hphoto, q₀, p₀, hsome, hpending, hcommitted, hrest⟩ := hfound.locks hlocks
      rw [hsome] at hphoto
      cases hphoto
      have hseen : (s.photos.seen c q).isSome = true := by
        rw [s.photos.seen_own c q _ hpending]
        rfl
      refine ⟨q, p, hsome, ?_, ?_, hrest⟩
      · show (if _ then _ else _ : Versions C PendingEnrollmentPhoto).pending q = _
        rw [if_pos hseen, pending_write _ _ _ _ (s.photos.drawn q _ hpending), if_pos rfl]
        rfl
      · show (if _ then _ else _ : Versions C PendingEnrollmentPhoto).committed.get? q = _
        rw [if_pos hseen, committed_write, hcommitted]
    · rw [hcall] at hsubmits
      cases hsubmits
  | submits c w d occupancy upload r row hd hcall hembed hrow hfree =>
    cases hcaller
    rw [hd] at h
    have hsubmits : d.call.submits = true := by
      rw [hcall]
      rfl
    refine hset _ _ ⟨h.1, ⟨?_, ?_⟩, fun hlocks => ?_⟩
    · exact (pending_write _ _ _ _ (h.2 hsubmits) _).trans (if_pos rfl)
    · unfold RowOrigin
      dsimp only
      rw [hcall]
      exact ⟨r, w.nonce, d.row, hembed, hrow.symm⟩
    · rw [locksPhoto_of_submits hsubmits] at hlocks
      cases hlocks
  | attaches c w d occupancy upload hd hcall hawaits hnone =>
    cases hcaller
    have hsubmits : d.call.submits = true := by
      rw [hcall]
      rfl
    have hold : ∀ q p, s.photos.pending q = some ⟨c, some p⟩ → s.photos.committed.get? q ≠ none :=
      fun q p hq hnot => by
        obtain ⟨d', hd', -⟩ := hkeys.inserted q c p hq hnot
        rw [hd] at hd'
        cases hd'
    rw [hd] at h
    refine hset _ _ ⟨h.1, .inl hsubmits, fun hrevokes => ?_,
      fun _ => ⟨h.2.1.pending, h.2.1.origin⟩, fun hcloses => ?_, fun hlocks => ?_,
      fun o u hcall' q p hq hnot => ?_⟩
    · rw [not_revokes_of_submits hsubmits] at hrevokes
      cases hrevokes
    · rw [closesFace_of_submits hsubmits] at hcloses
      cases hcloses
    · rw [locksPhoto_of_submits hsubmits] at hlocks
      cases hlocks
    · rw [GateState.setPhase, pending_insert] at hq
      rw [hcall] at hcall'
      cases hcall'
      split at hq
      · cases hq
        rfl
      · exact absurd hnot (hold q p hq)
  | cascades c w d hd hcall hfree =>
    cases hcaller
    exact hset _ _ trivial
  | deletes c w d hd hcall hfree =>
    cases hcaller
    refine hset _ _ ⟨uploaded_of_not_submits (submits_of_revokes hcall), .inr (.inl hcall),
      fun _ row hrow => ?_, fun hrevokes => ?_, fun hcloses => ?_, fun hlocks => ?_,
      fun o u hsubmit => ?_⟩
    · change (if _ then _ else _ : Versions C FaceEnrollment).pending d.enrollment = _ at hrow
      split at hrow
      · next hseen =>
        obtain ⟨old, hold⟩ := Option.isSome_iff_exists.mp hseen
        rw [pending_write _ _ _ _ (s.enrollments.seen_bounded c _ old hold), if_pos rfl] at hrow
        cases hrow
        rfl
      · have hwritten := howns.enrollments _ row hrow
        rw [hd, writtenEnrollment, if_pos hcall] at hwritten
        cases hwritten
    · rw [hcall] at hrevokes
      cases hrevokes
    · rw [closesFace_of_revokes hcall] at hcloses
      cases hcloses
    · rw [locksPhoto_of_revokes hcall] at hlocks
      cases hlocks
    · rw [hsubmit] at hcall
      cases hcall
  | lists c w d now hd hcall hrest horder =>
    cases hcaller
    exact hset _ _ trivial
  | vanishes c w d now enrollment rest hd hcall hrest hnone =>
    cases hcaller
    exact hset _ _ trivial
  | turns c w d now enrollment rest row hd hcall hrest hfree hrow =>
    cases hcaller
    rw [hd] at h
    have hsubmits : d.call.submits = false := by
      rw [hcall]
      rfl
    refine hset _ _ ⟨uploaded_of_not_submits hsubmits, drawn_of_not_submits hsubmits,
      fun _ => ⟨h, ?_⟩⟩
    exact rowLocked_of_write _ enrollment row hrow rfl rfl rfl fun user e happrove => by
      have hnot : d.call = .approve user e := happrove
      rw [hcall] at hnot
      cases hnot
  | ends c w d final hd =>
    cases hcaller
    cases final with
    | true => exact hset _ _ trivial
    | false => exact hset _ _ (callTaken_afterCallbacks d)
  | leaves c w d pk rest final hd hleft =>
    cases hcaller
    exact hset _ _ trivial
  | removes c w d pk rest final r hd hrow =>
    cases hcaller
    exact hset _ _ trivial
  | unlinks c w d pk rest final hd =>
    cases hcaller
    exact hset _ _ trivial
  | raises c w d result hd hpurge =>
    cases hcaller
    exact hset _ _ (callTaken_afterError d result)
  | compensates c w d result hd =>
    cases hcaller
    unfold GateState.compensate
    split <;> exact hset _ _ trivial
  | commits c d hd hkept =>
    cases hcaller
    exact hset _ _ (callTaken_afterCommit d)
  | breaks c d hd horphans =>
    cases hcaller
    exact hset _ _ (callTaken_afterError d _)
  | hides c d hd hkept =>
    cases hcaller
    exact hset _ _ (callTaken_afterError d _)
  | fails c d hd =>
    cases hcaller
    exact hset _ _ (callTaken_afterError d _)

end Own

end LamTo.Analysis
