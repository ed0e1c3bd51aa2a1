import LamTo.Analysis.FaceCalls
import LamTo.Analysis.PhotoOrphans

/-!
# The face behind a photo

Every photo that waits for a decision belongs to an enrolment that is pending, was submitted with it,
and has the embedding of its picture (`Tied`). Only a commit can part the two, and what a call holds
when it commits says that none does: a submission brings both, a decision takes the photo away, and
a revocation that would leave a photo behind is refused.

SOURCE: src/lamto/gate/enrollment.py:41-73, review.py:23-71, retention.py:19-34
-/

set_option autoImplicit false

namespace LamTo.Analysis

open LamTo.Library LamTo.Library.Versions LamTo.Model

variable {C : Type}

/-- The embedding is that of the picture that was stored under a key. -/
def ComputedFrom (K : FaceConfig) (s : GateState C) (key : Text)
    (embedding : Option (List UInt8)) : Prop :=
  ∃ data r nonce, s.written key = some data ∧ K.embed data = some r ∧
    embedding = some (K.sealEmbedding nonce r.vector)

/-- The enrolment and its photo are of one submission that nobody has decided on. -/
structure Tied (K : FaceConfig) (s : GateState C) (row : FaceEnrollment)
    (p : PendingEnrollmentPhoto) : Prop where
  pending : row.status = .pending
  submitted : row.submittedAt + K.photoTtl = p.expiresAt
  computed : ComputedFrom K s p.storageKey row.embedding

variable [DecidableEq C] {K : FaceConfig} {s t : GateState C} {c : C}

/-- A step commits nothing to the enrolments and the photos, or commits a call. -/
theorem GateEffect.committed_cases {a : GateAction C} (h : GateEffect K s a t) :
    ((∀ q, t.photos.committed.get? q = s.photos.committed.get? q) ∧
        ∀ e, t.enrollments.committed.get? e = s.enrollments.committed.get? e) ∨
      ∃ c d ph, GateAction.caller? a = some c ∧ s.phase c = .closing d ∧
        s.orphans c d = false ∧ t = (s.commitTables c).setPhase c ph := by
  have hself : (∀ q, s.photos.committed.get? q = s.photos.committed.get? q) ∧
      ∀ e, s.enrollments.committed.get? e = s.enrollments.committed.get? e :=
    ⟨fun _ => rfl, fun _ => rfl⟩
  cases h with
  | approves | closes | saves | expires | submits | turns =>
    exact .inl ⟨fun _ => rfl, get?_write_committed _ _ _ _⟩
  | opens c w user enrollment key hd =>
    unfold GateState.openPhoto
    split <;> exact .inl hself
  | inserts => exact .inl ⟨fun _ => rfl, get?_insert_committed _ _ _⟩
  | locks => exact .inl ⟨get?_write_committed _ _ _ _, fun _ => rfl⟩
  | drops c w d q p hd hfree =>
    refine .inl ⟨fun q' => ?_, fun _ => rfl⟩
    show (if _ then _ else _ : Versions C PendingEnrollmentPhoto).committed.get? q' = _
    split
    · exact get?_write_committed _ _ _ _ q'
    · rfl
  | attaches => exact .inl ⟨get?_insert_committed _ _ _, fun _ => rfl⟩
  | deletes c w d hd hcall hfree =>
    refine .inl ⟨fun _ => rfl, fun e => ?_⟩
    show (if _ then _ else _ : Versions C FaceEnrollment).committed.get? e = _
    split
    · exact get?_write_committed _ _ _ _ e
    · rfl
  | compensates c w d result hd =>
    unfold GateState.compensate
    split <;> exact .inl hself
  | commits c d hd hkept => exact .inr ⟨c, d, _, rfl, hd, hkept, rfl⟩
  | hides c d hd hkept => exact .inr ⟨c, d, _, rfl, hd, hkept, rfl⟩
  | ticks | appoints | refuses | stores | loses | revokes | views | decides | purges | processes
  | enrolls | finds | passes | findsSaved | skips | queues | cascades | lists | vanishes | ends
  | leaves | removes | unlinks | raises | breaks | fails => exact .inl hself

/-- What was stored under a key stays known. -/
theorem GateEffect.written_kept {a : GateAction C} (h : GateEffect K s a t) (key : Text)
    (data : List UInt8) (hkey : s.written key = some data) : t.written key = some data := by
  have hne : ∀ {uuid : Text}, s.written (pendingPhotoKey uuid) = none →
      key ≠ pendingPhotoKey uuid := by
    rintro uuid hfresh rfl
    rw [hfresh] at hkey
    cases hkey
  cases h with
  | stores c occupancy upload w version hidle haccepts hfresh hput =>
    exact (Function.update_of_ne (hne hfresh) _ s.written).trans hkey
  | loses c occupancy upload w kept hidle haccepts hfresh hput =>
    exact (Function.update_of_ne (hne hfresh) _ s.written).trans hkey
  | opens c w user enrollment key hd =>
    unfold GateState.openPhoto
    split <;> exact hkey
  | compensates c w d result hd =>
    unfold GateState.compensate
    split <;> exact hkey
  | _ => exact hkey

omit [DecidableEq C] in
theorem Tied.keep {row : FaceEnrollment} {p : PendingEnrollmentPhoto} (h : Tied K s row p)
    (hwritten : ∀ key data, s.written key = some data → t.written key = some data) :
    Tied K t row p := by
  obtain ⟨data, r, nonce, hdata, hrest⟩ := h.computed
  exact ⟨h.pending, h.submitted, data, r, nonce, hwritten _ _ hdata, hrest⟩

/-- What holds of the enrolments and the photos in every run. -/
structure FacesInv (K : FaceConfig) (s : GateState C) : Prop where
  keys : KeysInv false s
  owns : ∀ c, OwnsOf s c
  one : OnePhoto s
  calls : ∀ c, CallTaken K s c (s.phase c)
  tied : ∀ q p, s.photos.committed.get? q = some p →
    ∃ row, s.enrollments.committed.get? p.enrollment = some row ∧ Tied K s row p

namespace FacesInv

/-- A photo that comes into being is that of a submission that holds its enrolment. -/
theorem new_of_commit (h : FacesInv K s) (c : C) (d : GateDraft) (hd : s.phase c = .closing d)
    (q : ℕ) (p : PendingEnrollmentPhoto) (hseen : s.photos.seen c q = some p) :
    s.photos.committed.get? q = some p ∨
      ∃ occupancy upload, d.call = .submit occupancy upload ∧ p = newPhoto K d upload := by
  rcases s.photos.seen_cases c q with ⟨row, hrow, hsame⟩ | ⟨-, hsame⟩
  · rw [hsame] at hseen
    subst hseen
    cases hq : s.photos.committed.get? q with
    | some p' => exact .inl (by rw [h.keys.locks q c p p' hrow hq])
    | none =>
      obtain ⟨d', hd', hsubmits, -⟩ := h.keys.inserted q c p hrow hq
      rw [hd] at hd'
      cases hd'
      have htaken := h.calls c
      rw [hd] at htaken
      cases hcall : d.call with
      | submit occupancy upload =>
        exact .inr ⟨occupancy, upload, rfl, htaken.2.inserted occupancy upload hcall q p hrow hq⟩
      | revoke | view | approve | reject | revokeFace | purge | process =>
        rw [hcall] at hsubmits
        cases hsubmits
  · exact .inl (hsame.symm.trans hseen)

/-- **No photo of an enrolment appears to the call that holds it.** -/
theorem seen_other (h : FacesInv K s) {a : GateAction C} (heffect : GateEffect K s a t) (c : C)
    (hc : GateAction.caller? a ≠ some c) (e : ℕ) (row : Option FaceEnrollment)
    (hrow : s.enrollments.pending e = some ⟨c, row⟩) (q : ℕ) (p : PendingEnrollmentPhoto)
    (hq : t.photos.seen c q = some p) (hp : p.enrollment = e) : s.photos.seen c q = some p := by
  have hkeeps := (heffect.keepsCall c fun c' hc' heq => hc (heq ▸ hc')).photos
  rcases heffect.committed_cases with ⟨hsame, -⟩ | ⟨c', d, ph, hc', hd, -, rfl⟩
  · rw [← hq]
    refine seen_eq_of_own _ _ c q (fun w hw => ?_) (hsame q).symm
    obtain ⟨owner, row'⟩ := w
    cases hw
    exact (hkeeps.pending q row').symm
  · have hne : c' ≠ c := fun heq => hc (heq ▸ hc')
    rcases Versions.seen_cases (((s.commitTables c').setPhase c' ph).photos) c q with
      ⟨row', hrow', hsame⟩ | ⟨hnot, hsame⟩
    · rw [hsame] at hq
      rw [s.photos.seen_own c q row' ((hkeeps.pending q row').mp hrow'), hq]
    · have hseen : s.photos.seen c q = s.photos.committed.get? q := by
        rcases s.photos.seen_cases c q with ⟨row', hrow', -⟩ | ⟨-, hseen⟩
        · exact absurd rfl (hnot _ ((hkeeps.pending q row').mpr hrow'))
        · exact hseen
      rw [hsame] at hq
      have hthere : s.photos.seen c' q = some p := (s.photos.get?_commit c' q).symm.trans hq
      rcases h.new_of_commit c' d hd q p hthere with hold | ⟨o, u, hcall, rfl⟩
      · rw [hseen, hold]
      · have htaken := h.calls c'
        rw [hd] at htaken
        have hheld := (htaken.2.row (by rw [hcall]; rfl)).pending
        have he : d.enrollment = e := hp
        rw [he, hrow] at hheld
        cases hheld
        exact absurd rfl hne

/-- A photo of the enrolment that a call sees when it commits is that of the call, or the call has
left both. -/
theorem own_of_commit (h : FacesInv K s) (c : C) (d : GateDraft) (hd : s.phase c = .closing d)
    (hkept : s.orphans c d = false) (q : ℕ) (p : PendingEnrollmentPhoto)
    (hseen : s.photos.seen c q = some p) (hp : p.enrollment = d.enrollment) :
    (∃ occupancy upload, d.call = .submit occupancy upload ∧ p = newPhoto K d upload) ∨
      s.photos.committed.get? q = some p ∧
        s.enrollments.seen c d.enrollment = s.enrollments.committed.get? d.enrollment := by
  have htaken := h.calls c
  rw [hd] at htaken
  obtain ⟨hupload, htaken⟩ := htaken
  rcases h.new_of_commit c d hd q p hseen with hold | hnew
  · have hnot : ¬ PhotoLocked s c d true := by
      rintro ⟨q₀, p₀, -, hpending, hcommitted, hp₀, -⟩
      obtain rfl : q = q₀ := h.one.committed q q₀ p p₀ hold hcommitted (hp.trans hp₀.symm)
      rw [s.photos.seen_own c q _ hpending] at hseen
      cases hseen
    rcases htaken.kind with hkind | hkind | hkind | hkind
    · -- its own photo is seen too, and there is one only
      obtain ⟨q', p', hpending, hkey⟩ := h.keys.inserting c d hd hkind
      have hseen' : s.photos.seen c q' = some p' := s.photos.seen_own c q' _ hpending
      have hown : ownKey false (s.phase c) = some d.key := by
        rw [hd]
        exact if_pos hkind
      rcases h.new_of_commit c d hd q' p' hseen' with hold' | ⟨o, u, hcall, rfl⟩
      · exact absurd hkey ((h.keys.own c d.key hown).2.2.2 q' p' hold')
      · obtain rfl : q = q' := h.one.seen sameEnrollment_symm q q' p _ hseen hseen' hp
        rw [hseen] at hseen'
        cases hseen'
        exact .inl ⟨o, u, hcall, rfl⟩
    · refine .inr ⟨hold, ?_⟩
      rcases s.enrollments.seen_cases c d.enrollment with ⟨row, hrow, hsame⟩ | ⟨-, hsame⟩
      · obtain rfl := htaken.revokes hkind row hrow
        have hany : (s.photos.view c).any (fun p => p.enrollment = d.enrollment) = true := by
          rw [Table.any_eq_true]
          exact ⟨q, p, by rw [get?_view]; exact hseen, decide_eq_true hp⟩
        rw [GateState.orphans, hsame, hany] at hkept
        cases hkept
      · exact hsame
    · cases htaken.closes hkind q p hseen hp
    · rcases htaken.locks hkind with hlocked | ⟨hphoto, now, hcall⟩
      · exact absurd hlocked hnot
      · obtain ⟨hpending, horigin⟩ := htaken.row (not_revokes_of_locksPhoto hkind)
        unfold RowOrigin at horigin
        rw [hcall, hphoto] at horigin
        obtain ⟨row, hrow, hsame⟩ := horigin
        exact .inr ⟨hold, by rw [s.enrollments.seen_own c _ _ hpending, hsame, hrow]; rfl⟩
  · exact .inl hnew

/-- **A commit parts no photo from its enrolment.** -/
theorem tied_of_commit (h : FacesInv K s) (c : C) (d : GateDraft) (hd : s.phase c = .closing d)
    (hkept : s.orphans c d = false) (q : ℕ) (p : PendingEnrollmentPhoto)
    (hseen : s.photos.seen c q = some p) :
    ∃ row, s.enrollments.seen c p.enrollment = some row ∧ Tied K s row p := by
  have htaken := h.calls c
  rw [hd] at htaken
  obtain ⟨hupload, htaken⟩ := htaken
  by_cases hp : p.enrollment = d.enrollment
  · rcases h.own_of_commit c d hd hkept q p hseen hp with ⟨o, u, hcall, rfl⟩ | ⟨hold, hsame⟩
    · obtain ⟨hpending, horigin⟩ := htaken.row (by rw [hcall]; rfl)
      unfold RowOrigin at horigin
      rw [hcall] at horigin
      obtain ⟨r, nonce, e, hembed, hrow⟩ := horigin
      refine ⟨d.row, s.enrollments.seen_own c _ _ hpending, ?_, ?_, u.data, r, nonce,
        hupload o u hcall, hembed, ?_⟩
      all_goals
        rw [hrow]
        rfl
    · rw [hp, hsame, ← hp]
      exact h.tied q p hold
  · rcases h.new_of_commit c d hd q p hseen with hold | ⟨o, u, hcall, rfl⟩
    · obtain ⟨row, hrow, htied⟩ := h.tied q p hold
      refine ⟨row, ?_, htied⟩
      rcases s.enrollments.seen_cases c p.enrollment with ⟨row', hrow', -⟩ | ⟨-, hsame⟩
      · have hwritten := (h.owns c).enrollments _ row' hrow'
        rw [hd] at hwritten
        exact absurd (Option.some.inj hwritten).symm hp
      · exact hsame.trans hrow
    · exact absurd rfl hp

/-- **Every step keeps the faces.** -/
theorem step {a : GateAction C} (h : FacesInv K s) (heffect : GateEffect K s a t) :
    FacesInv K t := by
  refine ⟨h.keys.step heffect (fun hfalse => by cases hfalse), OwnsOf.step h.owns heffect,
    h.one.step heffect, fun c => ?_, fun q p hp => ?_⟩
  · by_cases hc : GateAction.caller? a = some c
    · exact (h.calls c).own h.keys (h.owns c) h.one heffect hc
    · have hkeeps := heffect.keepsCall c fun c' hc' heq => hc (heq ▸ hc')
      rw [hkeeps.phase]
      exact (h.calls c).keep hkeeps.enrollments hkeeps.photos heffect.written_kept
        (h.seen_other heffect c hc)
  · rcases heffect.committed_cases with ⟨hphotos, henrollments⟩ | ⟨c, d, ph, -, hd, hkept, rfl⟩
    · obtain ⟨row, hrow, htied⟩ := h.tied q p ((hphotos q).symm.trans hp)
      exact ⟨row, (henrollments _).trans hrow, htied.keep heffect.written_kept⟩
    · obtain ⟨row, hrow, htied⟩ := h.tied_of_commit c d hd hkept q p
        ((s.photos.get?_commit c q).symm.trans hp)
      exact ⟨row, (s.enrollments.get?_commit c _).trans hrow,
        htied.keep fun _ _ hkey => hkey⟩

theorem empty (now : ℕ) (manages : ℕ → ℕ → Bool) :
    FacesInv K (GateState.empty now manages : GateState C) where
  keys := keysInv_empty false now manages
  owns := fun _ => ⟨(fun _ _ h => by cases h), fun _ _ h => by cases h⟩
  one := distinct_empty _
  calls := fun _ => trivial
  tied := fun _ _ h => by cases h

end FacesInv

/-! ## What becomes approved -/

/-- The pictures of two keys have one vector. -/
def SameFace (K : FaceConfig) (s : GateState C) (key key' : Text) : Prop :=
  ∃ data data' r r', s.written key = some data ∧ s.written key' = some data' ∧
    K.embed data = some r ∧ K.embed data' = some r' ∧ r.vector = r'.vector

/-- **The face that becomes approved is the one on file**, so it is the one that the manager was
last shown exactly when the two pictures have one vector. -/
theorem approved_face_shown (K : FaceConfig) (openEmbedding : List UInt8 → List UInt8)
    (hopen : ∀ nonce vector, openEmbedding (K.sealEmbedding nonce vector) = vector)
    (now : ℕ) (manages : ℕ → ℕ → Bool) (s t : GateState C) (c : C) (d : GateDraft)
    (user enrollment : ℕ) (h : Reaches (GateState.step K) Always (GateState.empty now manages) s)
    (hd : s.phase c = .closing d) (hcall : d.call = .approve user enrollment)
    (hcommit : s.step K (.commit c) = some t) :
    ∃ row q p, t.enrollments.committed.get? enrollment = some row ∧ row.status = .approved ∧
      s.photos.committed.get? q = some p ∧ p.enrollment = enrollment ∧
      ((∃ key, s.shown user enrollment = some key ∧ ComputedFrom K s key row.embedding) ↔
        ∃ key, s.shown user enrollment = some key ∧ SameFace K s key p.storageKey) := by
  have hinv := h.preserves (FacesInv K) (fun u a v hu _ hstep => hu.step (GateEffect.of_step a hstep))
    (FacesInv.empty now manages)
  have htaken := hinv.calls c
  rw [hd] at htaken
  obtain ⟨-, htaken⟩ := htaken
  have hlocks : GateCall.locksPhoto d.call = true := by
    rw [hcall]
    rfl
  obtain ⟨hpending, horigin⟩ := htaken.row (not_revokes_of_locksPhoto hlocks)
  unfold RowOrigin at horigin
  rw [hcall] at horigin
  obtain ⟨htarget, reviewedAt, old, hold, hrow⟩ := horigin
  have hlocked : PhotoLocked s c d true := by
    rcases htaken.locks hlocks with hlocked | ⟨-, now', hpurge⟩
    · exact hlocked
    · rw [hcall] at hpurge
      cases hpurge
  obtain ⟨q, p, -, -, hphoto, hp, -⟩ := hlocked
  obtain ⟨row, hcommitted, htied⟩ := hinv.tied q p hphoto
  rw [hp, hold] at hcommitted
  cases hcommitted
  have hseen : s.enrollments.seen c d.enrollment = some d.row :=
    s.enrollments.seen_own c _ _ hpending
  have hkept : s.orphans c d = false := by
    rw [GateState.orphans, hseen]
    rfl
  have ht : t = (s.commitTables c).setPhase c (GateState.afterCommit d) := by
    change s.commit c = some t at hcommit
    unfold GateState.commit at hcommit
    rw [hd] at hcommit
    dsimp only at hcommit
    rw [if_neg (by rw [hkept]; exact Bool.false_ne_true)] at hcommit
    exact (Option.some.inj hcommit).symm
  subst ht
  refine ⟨d.row, q, p, ?_, ?_, hphoto, hp.trans htarget, ?_⟩
  · rw [← htarget]
    exact (s.enrollments.get?_commit c _).trans hseen
  · rw [hrow]
    rfl
  · obtain ⟨data, r, nonce, hdata, hembed, hembedding⟩ := htied.computed
    have hface : d.row.embedding = some (K.sealEmbedding nonce r.vector) := by
      rw [hrow, ← hembedding]
      rfl
    constructor
    · rintro ⟨key, hshown, data', r', nonce', hdata', hembed', hembedding'⟩
      rw [hface] at hembedding'
      have hsame := congrArg openEmbedding (Option.some.inj hembedding')
      rw [hopen, hopen] at hsame
      exact ⟨key, hshown, data', data, r', r, hdata', hdata, hembed', hembed, hsame.symm⟩
    · rintro ⟨key, hshown, data', data₀, r', r₀, hdata', hdata₀, hembed', hembed₀, hsame⟩
      rw [hdata] at hdata₀
      cases hdata₀
      rw [hembed] at hembed₀
      cases hembed₀
      exact ⟨key, hshown, data', r', nonce, hdata', hembed', by rw [hface, hsame]⟩

/-! ## A face that was not looked at -/

/-- A face is submitted by the first call and viewed by the second. -/
def submittedAndViewed : List (GateAction ℕ) :=
  .begin 0 (.submit 1 ⟨"image/png".toList, [1], true⟩) (taking "a" []) ::
    List.replicate 5 (.next 0 (taking "" [])) ++
      [.commit 0, .begin 1 (.view 7 1) (taking "" []), .next 1 (taking "" [])]

/-- Another face is submitted in its place. -/
def replaced : List (GateAction ℕ) :=
  .begin 2 (.submit 1 ⟨"image/png".toList, [2], true⟩) (taking "b" []) ::
    List.replicate 6 (.next 2 (taking "" [])) ++ [.commit 2]

/-- The last call approves, up to its commit. -/
def approving : List (GateAction ℕ) :=
  .begin 3 (.approve 7 1) (taking "" []) :: List.replicate 5 (.next 3 (taking "" []))

/-- The manager was last shown the first picture, and the last call is about to commit. -/
def aboutToApprove (face : List UInt8) (s : GateState ℕ) : Bool :=
  (match s.phase 3 with
    | .closing d => d.call = .approve 7 1
    | _ => false) &&
  s.shown 7 1 = some (pendingPhotoKey "a".toList) &&
  s.written (pendingPhotoKey "a".toList) = some [1] &&
  (s.step plainFaces (.commit 3)).any fun t => (t.enrollments.committed.get? 1).any fun row =>
    row.status = .approved && row.embedding = some face

theorem aboutToApprove_eq_true {face : List UInt8} {s : GateState ℕ}
    (h : aboutToApprove face s = true) : ∃ d t row, s.phase 3 = .closing d ∧
      d.call = .approve 7 1 ∧ s.step plainFaces (.commit 3) = some t ∧
      t.enrollments.committed.get? 1 = some row ∧ row.status = .approved ∧
      row.embedding = some face ∧ s.shown 7 1 = some (pendingPhotoKey "a".toList) ∧
      s.written (pendingPhotoKey "a".toList) = some [1] := by
  unfold aboutToApprove at h
  simp only [Bool.and_eq_true, decide_eq_true_eq] at h
  obtain ⟨⟨⟨hphase, hshown⟩, hwritten⟩, hcommit⟩ := h
  obtain ⟨t, ht, hrow⟩ := (Option.any_eq_true _ _).mp hcommit
  obtain ⟨row, hrow, hboth⟩ := (Option.any_eq_true _ _).mp hrow
  simp only [Bool.and_eq_true, decide_eq_true_eq] at hboth
  split at hphase
  · next d hd =>
    exact ⟨d, t, row, hd, of_decide_eq_true hphase, ht, hrow, hboth.1, hboth.2, hshown, hwritten⟩
  · cases hphase

/-- The face that becomes approved is not the one that was looked at. -/
theorem approved_face_replaced : ∃ (s t : GateState ℕ) (row : FaceEnrollment) (key : Text),
    Reaches (GateState.step plainFaces) Always (GateState.empty 0 fun _ _ => true) s ∧
      s.step plainFaces (.commit 3) = some t ∧ t.enrollments.committed.get? 1 = some row ∧
      row.status = .approved ∧ s.shown 7 1 = some key ∧
      ¬ ComputedFrom plainFaces s key row.embedding := by
  obtain ⟨s, hreach, h⟩ := exists_of_run (GateState.step plainFaces)
    (GateState.empty 0 (fun _ _ => true) : GateState ℕ) (fun s => aboutToApprove [2] s = true)
    (submittedAndViewed ++ replaced ++ approving) (by decide +kernel)
  obtain ⟨d, t, row, -, -, ht, hrow, hstatus, hembedding, hshown, hwritten⟩ :=
    aboutToApprove_eq_true h
  refine ⟨s, t, row, _, hreach, ht, hrow, hstatus, hshown, ?_⟩
  rintro ⟨data, r, nonce, hdata, hembed, hsame⟩
  rw [hwritten] at hdata
  cases hdata
  cases hembed
  rw [hembedding] at hsame
  cases hsame

/-- Without the second submission it is. -/
theorem approved_face_shown_viewed : ∃ (s t : GateState ℕ) (row : FaceEnrollment),
    Reaches (GateState.step plainFaces) Always (GateState.empty 0 fun _ _ => true) s ∧
      s.step plainFaces (.commit 3) = some t ∧ t.enrollments.committed.get? 1 = some row ∧
      ∃ key, s.shown 7 1 = some key ∧ ComputedFrom plainFaces s key row.embedding := by
  obtain ⟨s, hreach, h, hfile⟩ := exists_of_run (GateState.step plainFaces)
    (GateState.empty 0 (fun _ _ => true) : GateState ℕ) (fun s => aboutToApprove [1] s = true ∧
      (s.photos.committed.rows.all fun r => r.2.storageKey = pendingPhotoKey "a".toList) = true)
    (submittedAndViewed ++ approving) (by decide +kernel)
  obtain ⟨d, t, -, hd, hcall, ht, -, -, -, hshown, hwritten⟩ := aboutToApprove_eq_true h
  obtain ⟨row, q, p, hrow, -, hp, -, hiff⟩ := approved_face_shown plainFaces id (fun _ _ => rfl) 0 _
    s t 3 d 7 1 hreach hd hcall ht
  have hkey : p.storageKey = pendingPhotoKey "a".toList := of_decide_eq_true
    (List.all_eq_true.mp hfile (q, p) ((Table.get?_eq_some _ _ _).mp hp))
  refine ⟨s, t, row, hreach, ht, hrow, hiff.mpr ⟨_, hshown, ?_⟩⟩
  exact ⟨[1], [1], _, _, hwritten, hkey ▸ hwritten, rfl, rfl, rfl⟩

end LamTo.Analysis
