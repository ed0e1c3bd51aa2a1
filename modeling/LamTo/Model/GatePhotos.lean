import LamTo.Library.Transition
import LamTo.Library.Versions
import LamTo.Model.Login

/-!
# Face photos waiting for a decision

Residents submit and revoke a face, managers look at the photo and decide, and a purge expires
what nobody decided on. The calls run as database transactions beside each other. A step is one
statement of one call, or a group of statements that only read, and the storage of the photos is
no part of a transaction.

* A statement waits for a row that another transaction has written, or for a key that one is about
  to insert. Two transactions that wait for each other wait until one of them fails.
* A database error may strike at any statement (`fail`), after a commit too, or hide a commit that
  took place (`commitLost`).
* After its commit a call removes the photo it has queued, in statements of their own.
* What was once stored under a key is kept in the state (`written`), and what a manager was shown
  (`shown`); no step reads the second, and the first only for the picture behind a key.

SOURCE: src/lamto/gate/enrollment.py:27-73, photos.py, review.py:13-71, retention.py:19-34,
src/lamto/web/views/gate.py:25-58
-/

set_option autoImplicit false

namespace LamTo.Model

open LamTo.Library

/-! ## Rows -/

/-- `ReviewStatus` -/
inductive ReviewStatus where
  | pending
  | approved
  | rejected
  | expired
deriving DecidableEq

/-- `FaceEnrollment`; `embedding` is the sealed vector. -/
structure FaceEnrollment where
  occupancy : ℕ
  embedding : Option (List UInt8)
  modelName : Text
  modelVersion : Text
  status : ReviewStatus
  submittedAt : ℕ
  reviewedBy : Option ℕ
  reviewedAt : Option ℕ
  reviewNote : Text
deriving DecidableEq

structure PendingEnrollmentPhoto where
  enrollment : ℕ
  storageKey : Text
  providerVersionId : Text
  contentType : Text
  byteSize : ℕ
  expiresAt : ℕ
deriving DecidableEq

structure PhotoDeletion where
  storageKey : Text
  providerVersionId : Text
deriving DecidableEq

/-! ## What the gate takes from elsewhere -/

/-- `EmbeddingResult`, with the bytes of the vector. -/
structure EmbeddingResult where
  vector : List UInt8
  modelName : Text
  modelVersion : Text

structure FaceConfig where
  unicode : Unicode
  /-- `GATE_MAX_FACE_UPLOAD_BYTES` -/
  maxFaceUploadBytes : ℕ
  /-- `GATE_ENROLLMENT_PHOTO_TTL_HOURS`, in microseconds -/
  photoTtl : ℕ
  /-- `get_embedder().embed`; none when it raises -/
  embed : List UInt8 → Option EmbeddingResult
  /-- `seal_embedding` under a nonce -/
  sealEmbedding : Text → List UInt8 → List UInt8
  /-- The private storage is a versioned bucket. -/
  versioned : Bool

/-- A file, and what the scanner says of it. -/
structure FaceUpload where
  contentType : Text
  data : List UInt8
  clean : Bool
deriving DecidableEq

/-- What the storage answers to a new object: a version id, which a bucket may leave out; it may
raise, and have kept the object. -/
inductive FacePutOutcome where
  | taken (version : Text)
  | raised (kept : Bool)

/-- What a statement draws, and what the storage and the database answer: `refused` says that a
deletion raises, and `order` is the order rows come in that no query orders. -/
structure GateAnswers where
  uuid : Text
  nonce : Text
  put : FacePutOutcome
  refused : Bool
  order : List ℕ

/-! ## Calls -/

inductive GateCall where
  | submit (occupancy : ℕ) (upload : FaceUpload)
  | revoke (occupancy : ℕ)
  | view (user enrollment : ℕ)
  | approve (user enrollment : ℕ)
  | reject (user enrollment : ℕ) (note : Option Text)
  | revokeFace (user enrollment : ℕ)
  | purge (now : ℕ)
  | process
deriving DecidableEq

inductive GateResult where
  | done
  | photoRejected
  | notFound
  | notPermitted
  | notPossible
  | doesNotExist
  | integrity
  | database
  | storage
deriving DecidableEq

/-- The variables of a call: the enrolment and its row, the stored object and the time of a
submission, the photo it has locked, the deletion it has queued, and what a purge has before it. -/
structure GateDraft where
  call : GateCall
  enrollment : ℕ
  row : FaceEnrollment
  key : Text
  version : Text
  time : ℕ
  photo : Option (ℕ × PendingEnrollmentPhoto)
  deletion : Option ℕ
  rest : List ℕ
deriving DecidableEq

/-- How far a call is, named by what it has done. From `stored` to `closing` a transaction is open,
but for `purging`, which stands between two of them. -/
inductive GatePhase where
  | idle
  | opening (user enrollment : ℕ) (key : Text)
  | stored (d : GateDraft)
  | enrolled (d : GateDraft)
  | reviewing (d : GateDraft)
  | saved (d : GateDraft)
  | found (d : GateDraft) (photo : Option (ℕ × PendingEnrollmentPhoto))
  | queued (d : GateDraft) (photo : ℕ × PendingEnrollmentPhoto)
  | dropped (d : GateDraft)
  | cleared (d : GateDraft)
  | closing (d : GateDraft)
  | purging (d : GateDraft)
  | processing (d : GateDraft) (deletions : List ℕ) (final : Bool)
  | unlinking (d : GateDraft) (deletion : ℕ) (deletions : List ℕ) (final : Bool)
  | failing (d : GateDraft) (result : GateResult)
  | finished (call : GateCall) (result : GateResult)
deriving DecidableEq

structure GateState (C : Type) where
  now : ℕ
  manages : ℕ → ℕ → Bool
  enrollments : Versions C FaceEnrollment
  photos : Versions C PendingEnrollmentPhoto
  deletions : Versions C PhotoDeletion
  written : Text → Option (List UInt8)
  objects : Text → Bool
  shown : ℕ → ℕ → Option Text
  phase : C → GatePhase

inductive GateAction (C : Type) where
  | tick (elapsed : ℕ)
  | setManagers (manages : ℕ → ℕ → Bool)
  | begin (c : C) (call : GateCall) (w : GateAnswers)
  | next (c : C) (w : GateAnswers)
  | commit (c : C)
  | commitLost (c : C)
  | fail (c : C)

def GateCall.submits : GateCall → Bool
  | .submit _ _ => true
  | _ => false

/-- `PREFIX` and the digits of a uuid. -/
def pendingPhotoKey (uuid : Text) : Text := "gate/pending-enrollment/".toList ++ uuid

/-- `ALLOWED_IMAGE_TYPES` -/
def allowedImageTypes : List Text := ["image/jpeg".toList, "image/png".toList]

/-- A new row of `FaceEnrollment`, with its defaults. -/
def newEnrollment (occupancy now : ℕ) : FaceEnrollment where
  occupancy := occupancy
  embedding := none
  modelName := []
  modelVersion := []
  status := .pending
  submittedAt := now
  reviewedBy := none
  reviewedAt := none
  reviewNote := []

def newDraft (call : GateCall) (now : ℕ) : GateDraft where
  call := call
  enrollment := 0
  row := newEnrollment 0 now
  key := []
  version := []
  time := now
  photo := none
  deletion := none
  rest := []

/-- The checks of `submit_face_enrollment`. SOURCE: enrollment.py:28-36 -/
def FaceConfig.accepts (K : FaceConfig) (upload : FaceUpload) : Bool :=
  allowedImageTypes.contains upload.contentType &&
    upload.data.length ≤ K.maxFaceUploadBytes && upload.data ≠ [] && upload.clean &&
    (K.embed upload.data).isSome

/-- What `store_pending_photo` returns: the version id, or whether an object is left behind by what
it raises. An object without a version id is taken back. SOURCE: photos.py:23-50 -/
def storePendingPhoto (K : FaceConfig) (w : GateAnswers) : Except Bool Text :=
  match w.put with
  | .raised kept => .error kept
  | .taken version =>
    if !K.versioned then .ok [] else if version ≠ [] then .ok version else .error w.refused

/-- `delete_pending_photo` deletes the object. SOURCE: photos.py:53-62 -/
def deletesPendingPhoto (K : FaceConfig) (version : Text) (w : GateAnswers) : Bool :=
  (!K.versioned || version ≠ []) && !w.refused

/-! ## What the calls write -/

/-- What a submission writes. SOURCE: enrollment.py:46-53 -/
def FaceEnrollment.submit (r : EmbeddingResult) (sealed : List UInt8) (now : ℕ)
    (e : FaceEnrollment) : FaceEnrollment :=
  { e with
    embedding := some sealed
    modelName := r.modelName
    modelVersion := r.modelVersion
    status := .pending
    submittedAt := now
    reviewedBy := none
    reviewedAt := none
    reviewNote := [] }

/-- The row of a new photo. SOURCE: enrollment.py:54-58 -/
def newPhoto (K : FaceConfig) (d : GateDraft) (upload : FaceUpload) : PendingEnrollmentPhoto where
  enrollment := d.enrollment
  storageKey := d.key
  providerVersionId := d.version
  contentType := upload.contentType
  byteSize := upload.data.length
  expiresAt := d.time + K.photoTtl

/-- What `approve_face` writes. SOURCE: review.py:40-44 -/
def FaceEnrollment.approve (user now : ℕ) (e : FaceEnrollment) : FaceEnrollment :=
  { e with
    status := .approved
    reviewedBy := some user
    reviewedAt := some now
    reviewNote := [] }

/-- What `_close_face` writes. SOURCE: review.py:48-56 -/
def FaceEnrollment.close (user now : ℕ) (note : Text) (e : FaceEnrollment) : FaceEnrollment :=
  { e with
    status := .rejected
    embedding := none
    reviewedBy := some user
    reviewedAt := some now
    reviewNote := note.take 255 }

/-- What the purge writes. SOURCE: retention.py:28-31 -/
def FaceEnrollment.expire (e : FaceEnrollment) : FaceEnrollment :=
  if e.status = .pending then { e with status := .expired, embedding := none } else e

namespace GateState

variable {C : Type} [DecidableEq C]

def empty (now : ℕ) (manages : ℕ → ℕ → Bool) : GateState C where
  now := now
  manages := manages
  enrollments := .empty
  photos := .empty
  deletions := .empty
  written _ := none
  objects _ := false
  shown _ _ := none
  phase _ := .idle

def setPhase (s : GateState C) (c : C) (phase : GatePhase) : GateState C :=
  { s with phase := Function.update s.phase c phase }

@[simp] theorem phase_setPhase (s : GateState C) (c : C) (phase : GatePhase) :
    (s.setPhase c phase).phase = Function.update s.phase c phase := rfl

def rollback (s : GateState C) (c : C) : GateState C :=
  { s with
    enrollments := s.enrollments.rollback c
    photos := s.photos.rollback c
    deletions := s.deletions.rollback c }

def commitTables (s : GateState C) (c : C) : GateState C :=
  { s with
    enrollments := s.enrollments.commit c
    photos := s.photos.commit c
    deletions := s.deletions.commit c }

/-- Where an exception leads: a submission deletes what it has stored. -/
def afterError (d : GateDraft) (result : GateResult) : GatePhase :=
  if d.call.submits then .failing d result else .finished d.call result

/-- A call raises in its transaction. -/
def raise (s : GateState C) (c : C) (d : GateDraft) (result : GateResult) : GateState C :=
  (s.rollback c).setPhase c (afterError d result)

/-- Where a call goes on after its commit and the callbacks of the commit. -/
def afterCallbacks (d : GateDraft) : GatePhase :=
  match d.call with
  | .purge _ => .purging { d with photo := none, deletion := none }
  | _ => .finished d.call .done

/-- Where a call goes on after its commit. -/
def afterCommit (d : GateDraft) : GatePhase :=
  match d.deletion with
  | some deletion => .processing d [deletion] false
  | none => afterCallbacks d

/-- Where a call goes on after it has dropped the photo. -/
def afterDrop (d : GateDraft) : GatePhase :=
  match d.call with
  | .submit _ _ | .revoke _ => .dropped d
  | _ => .closing d

/-! ## The first statements -/

/-- `submit_face_enrollment` up to the stored object. SOURCE: enrollment.py:28-39 -/
def beginSubmit (K : FaceConfig) (s : GateState C) (c : C) (occupancy : ℕ) (upload : FaceUpload)
    (w : GateAnswers) : Option (GateState C) :=
  let call := GateCall.submit occupancy upload
  let key := pendingPhotoKey w.uuid
  if !K.accepts upload then some (s.setPhase c (.finished call .photoRejected))
  else if (s.written key).isSome then none
  else
    let s := { s with written := Function.update s.written key (some upload.data) }
    match storePendingPhoto K w with
    | .ok version => some ({ s with objects := Function.update s.objects key true }.setPhase c
        (.stored { newDraft call s.now with key, version }))
    | .error kept => some ({ s with objects := Function.update s.objects key kept }.setPhase c
        (.finished call .storage))

/-- `revoke_face_enrollment` up to the enrolment. SOURCE: enrollment.py:65-69 -/
def beginRevoke (s : GateState C) (c : C) (occupancy : ℕ) : GateState C :=
  let call := GateCall.revoke occupancy
  match s.enrollments.committed.first? fun e => e.occupancy = occupancy with
  | none => s.setPhase c (.finished call .done)
  | some (enrollment, row) =>
    s.setPhase c (.enrolled { newDraft call s.now with enrollment, row })

/-- `gate_face_photo` up to the row. SOURCE: views/gate.py:27-29 -/
def beginView (s : GateState C) (c : C) (user enrollment : ℕ) : GateState C :=
  let call := GateCall.view user enrollment
  match s.photos.committed.first? fun p => p.enrollment = enrollment with
  | none => s.setPhase c (.finished call .notFound)
  | some (_, p) =>
    if (s.enrollments.committed.get? enrollment).any fun e => s.manages user e.occupancy then
      s.setPhase c (.opening user enrollment p.storageKey)
    else s.setPhase c (.finished call .notFound)

/-- `approve_face` up to the enrolment under its lock and its checks. SOURCE: review.py:29-35 -/
def beginApprove (s : GateState C) (c : C) (user enrollment : ℕ) : Option (GateState C) :=
  let call := GateCall.approve user enrollment
  match s.enrollments.committed.get? enrollment with
  | none => some (s.setPhase c (.finished call .notFound))
  | some row =>
    if !s.manages user row.occupancy then some (s.setPhase c (.finished call .notPermitted))
    else if s.enrollments.locked c enrollment then none
    else if row.status ≠ .pending || row.embedding = none then
      some (s.setPhase c (.finished call .notPossible))
    else some ({ s with enrollments := s.enrollments.write c enrollment (some row) }.setPhase c
      (.enrolled { newDraft call s.now with enrollment, row }))

/-- `reject_face` up to its transaction. SOURCE: review.py:60-65 -/
def beginReject (K : FaceConfig) (s : GateState C) (c : C) (user enrollment : ℕ)
    (note : Option Text) : GateState C :=
  let call := GateCall.reject user enrollment note
  match s.enrollments.committed.get? enrollment with
  | none => s.setPhase c (.finished call .notFound)
  | some row =>
    if !s.manages user row.occupancy then s.setPhase c (.finished call .notPermitted)
    else if strip K.unicode (note.getD []) = [] || (row.status ≠ .pending && row.status ≠ .approved)
      then s.setPhase c (.finished call .notPossible)
    else s.setPhase c (.enrolled { newDraft call s.now with enrollment, row })

/-- `revoke_face` up to its transaction. SOURCE: review.py:69-71 -/
def beginRevokeFace (s : GateState C) (c : C) (user enrollment : ℕ) : GateState C :=
  let call := GateCall.revokeFace user enrollment
  match s.enrollments.committed.get? enrollment with
  | none => s.setPhase c (.finished call .notFound)
  | some row =>
    if !s.manages user row.occupancy then s.setPhase c (.finished call .notPermitted)
    else s.setPhase c (.enrolled { newDraft call s.now with enrollment, row })

/-- The enrolments with an expired photo. SOURCE: retention.py:21 -/
def expired (s : GateState C) (now : ℕ) : List ℕ :=
  (s.photos.committed.select fun p => p.expiresAt ≤ now).map fun r => r.2.enrollment

/-- The keys of the queue. SOURCE: photos.py:85 -/
def queue (s : GateState C) : List ℕ := s.deletions.committed.rows.map Prod.fst

def begin (K : FaceConfig) (s : GateState C) (c : C) (call : GateCall) (w : GateAnswers) :
    Option (GateState C) :=
  if s.phase c = .idle then
    match call with
    | .submit occupancy upload => s.beginSubmit K c occupancy upload w
    | .revoke occupancy => some (s.beginRevoke c occupancy)
    | .view user enrollment => some (s.beginView c user enrollment)
    | .approve user enrollment => s.beginApprove c user enrollment
    | .reject user enrollment note => some (s.beginReject K c user enrollment note)
    | .revokeFace user enrollment => some (s.beginRevokeFace c user enrollment)
    | .purge now =>
      if w.order.Perm (s.expired now) then
        some (s.setPhase c (.purging { newDraft call s.now with rest := w.order }))
      else none
    | .process =>
      if w.order.Perm s.queue then
        some (s.setPhase c (.processing (newDraft call s.now) w.order true))
      else none
  else none

/-! ## The enrolment -/

/-- `get_or_create(occupancy=occupancy)`. SOURCE: enrollment.py:42 -/
def enroll (s : GateState C) (c : C) (d : GateDraft) (occupancy : ℕ) : Option (GateState C) :=
  match (s.enrollments.view c).first? fun e => e.occupancy = occupancy with
  | some (enrollment, row) => some (s.setPhase c (.enrolled { d with enrollment, row }))
  | none =>
    if s.enrollments.awaits c fun e => e.occupancy = occupancy then none
    else
      let row := newEnrollment occupancy s.now
      some ({ s with enrollments := s.enrollments.insert c row }.setPhase c
        (.enrolled { d with enrollment := s.enrollments.committed.next, row }))

/-- The first photo of the enrolment that a call sees. -/
def findPhoto (s : GateState C) (c : C) (enrollment : ℕ) : Option (ℕ × PendingEnrollmentPhoto) :=
  (s.photos.view c).first? fun p => p.enrollment = enrollment

/-- The photo is taken under its lock. -/
def lockPhoto (s : GateState C) (c : C) (d : GateDraft) (photo : ℕ × PendingEnrollmentPhoto) :
    Option (GateState C) :=
  if s.photos.locked c photo.1 then none
  else some ({ s with photos := s.photos.write c photo.1 (some photo.2) }.setPhase c
    (.reviewing { d with photo := some photo }))

/-- The update of `_close_face`. -/
def closeEnrollment (s : GateState C) (c : C) (d : GateDraft) (user : ℕ) (note : Text) :
    Option (GateState C) :=
  if s.enrollments.locked c d.enrollment then none
  else
    match s.enrollments.seen c d.enrollment with
    | none => some (s.raise c d .database)
    | some row =>
      if note.contains nul then some (s.raise c d .database)
      else
        let row := FaceEnrollment.close user s.now note row
        some ({ s with enrollments := s.enrollments.write c d.enrollment (some row) }.setPhase c
          (.saved { d with row }))

/-- The statement after the enrolment is known. -/
def afterEnrolled (K : FaceConfig) (s : GateState C) (c : C) (d : GateDraft) :
    Option (GateState C) :=
  match d.call with
  | .submit _ _ | .revoke _ => some (s.setPhase c (.found d (s.findPhoto c d.enrollment)))
  | .approve _ _ =>
    match s.findPhoto c d.enrollment with
    | none => some (s.raise c d .notPossible)
    | some photo => s.lockPhoto c d photo
  | .reject user _ note => s.closeEnrollment c d user (strip K.unicode (note.getD []))
  | .revokeFace user _ => s.closeEnrollment c d user "Revoked by management.".toList
  | .purge now =>
    match (s.photos.view c).first? fun p => p.enrollment = d.enrollment && p.expiresAt ≤ now with
    | none => some (s.setPhase c (.closing d))
    | some photo => s.lockPhoto c d photo
  | .view _ _ | .process => none

/-! ## The decision -/

/-- The update of an enrolment whose photo is locked. The purge has the photo it drops. -/
def saveDecision (s : GateState C) (c : C) (d : GateDraft) : Option (GateState C) :=
  let save (row : FaceEnrollment) : GateState C :=
    { s with enrollments := s.enrollments.write c d.enrollment (some row) }
  if s.enrollments.locked c d.enrollment then none
  else
    match d.call with
    | .approve user _ =>
      let row := FaceEnrollment.approve user s.now d.row
      some ((save row).setPhase c (.saved { d with row }))
    | .purge _ =>
      let row := FaceEnrollment.expire d.row
      some ((save row).setPhase c (.found { d with row } d.photo))
    | _ => none

/-! ## The deletion of a photo -/

/-- `PhotoDeletion.objects.create`. SOURCE: photos.py:65-71 -/
def queueDeletion (s : GateState C) (c : C) (d : GateDraft)
    (photo : ℕ × PendingEnrollmentPhoto) : Option (GateState C) :=
  let same (r : PhotoDeletion) : Bool := r.storageKey = photo.2.storageKey
  if s.deletions.awaits c same then none
  else if (s.deletions.view c).any same then some (s.raise c d .integrity)
  else
    let row : PhotoDeletion := ⟨photo.2.storageKey, photo.2.providerVersionId⟩
    some ({ s with deletions := s.deletions.insert c row }.setPhase c
      (.queued { d with deletion := some s.deletions.committed.next } photo))

/-- `photo.delete()`: a row that is gone is no error. SOURCE: photos.py:72 -/
def dropPhoto (s : GateState C) (c : C) (d : GateDraft) (photo : ℕ) : Option (GateState C) :=
  if s.photos.locked c photo then none
  else
    let s := if (s.photos.seen c photo).isSome then
      { s with photos := s.photos.write c photo none } else s
    some (s.setPhase c (afterDrop d))

/-! ## The end of a submission and of a revocation -/

/-- `enrollment.save()`: an update, or an insertion under the same key when the row is gone. -/
def saveSubmission (K : FaceConfig) (s : GateState C) (c : C) (d : GateDraft)
    (upload : FaceUpload) (w : GateAnswers) : Option (GateState C) :=
  match K.embed upload.data with
  | none => none
  | some r =>
    let row := FaceEnrollment.submit r (K.sealEmbedding w.nonce r.vector) d.time d.row
    let same (e : FaceEnrollment) : Bool := e.occupancy = d.row.occupancy
    let s' := { s with enrollments := s.enrollments.write c d.enrollment (some row) }.setPhase c
      (.saved { d with row })
    if s.enrollments.locked c d.enrollment then none
    else if (s.enrollments.seen c d.enrollment).isSome then some s'
    else if s.enrollments.awaits c same then none
    else if (s.enrollments.view c).any same then some (s.raise c d .integrity)
    else some s'

/-- `PendingEnrollmentPhoto.objects.create`, with its unique columns. -/
def insertPhoto (K : FaceConfig) (s : GateState C) (c : C) (d : GateDraft) (upload : FaceUpload) :
    Option (GateState C) :=
  let row := newPhoto K d upload
  let same (p : PendingEnrollmentPhoto) : Bool :=
    p.enrollment = row.enrollment || p.storageKey = row.storageKey
  if s.photos.awaits c same then none
  else if (s.photos.view c).any same then some (s.raise c d .integrity)
  else some ({ s with photos := s.photos.insert c row }.setPhase c (.closing d))

/-- The statement after the photo that was there is dropped. The photos of an enrolment are deleted
before it, without a queue. SOURCE: enrollment.py:46-53, 73 -/
def afterDropped (K : FaceConfig) (s : GateState C) (c : C) (d : GateDraft) (w : GateAnswers) :
    Option (GateState C) :=
  match d.call with
  | .submit _ upload => s.saveSubmission K c d upload w
  | .revoke _ =>
    let ofEnrollment (p : PendingEnrollmentPhoto) : Bool := p.enrollment = d.enrollment
    if s.photos.lockedWhere c ofEnrollment then none
    else some ({ s with
      photos := s.photos.updateWhere c ofEnrollment fun _ => none }.setPhase c (.cleared d))
  | _ => none

/-- The statement after the enrolment is saved. -/
def afterSaved (K : FaceConfig) (s : GateState C) (c : C) (d : GateDraft) : Option (GateState C) :=
  match d.call with
  | .submit _ upload => s.insertPhoto K c d upload
  | .approve _ _ | .reject _ _ _ | .revokeFace _ _ =>
    some (s.setPhase c (.found d (s.findPhoto c d.enrollment)))
  | _ => none

/-- The deletion of the enrolment itself. -/
def deleteEnrollment (s : GateState C) (c : C) (d : GateDraft) : Option (GateState C) :=
  if s.enrollments.locked c d.enrollment then none
  else
    let s := if (s.enrollments.seen c d.enrollment).isSome then
      { s with enrollments := s.enrollments.write c d.enrollment none } else s
    some (s.setPhase c (.closing d))

/-! ## The purge and the queue -/

/-- The next enrolment of a purge, under its lock; after the last one the queue.
SOURCE: retention.py:22-24, 33 -/
def nextExpired (s : GateState C) (c : C) (d : GateDraft) (w : GateAnswers) :
    Option (GateState C) :=
  match d.rest with
  | [] =>
    if w.order.Perm s.queue then some (s.setPhase c (.processing d w.order true)) else none
  | enrollment :: rest =>
    if s.enrollments.locked c enrollment then none
    else
      match s.enrollments.committed.get? enrollment with
      | none => some (s.setPhase c (.finished d.call .doesNotExist))
      | some row => some ({ s with
          enrollments := s.enrollments.write c enrollment (some row) }.setPhase c
            (.enrolled { d with enrollment, row, rest }))

/-- The read of `process_photo_deletion`, and the deletion of the object. SOURCE: photos.py:76-82 -/
def processNext (K : FaceConfig) (s : GateState C) (c : C) (d : GateDraft) (deletions : List ℕ)
    (final : Bool) (w : GateAnswers) : GateState C :=
  match deletions with
  | [] => s.setPhase c (if final then .finished d.call .done else afterCallbacks d)
  | deletion :: rest =>
    match s.deletions.committed.get? deletion with
    | none => s.setPhase c (.processing d rest final)
    | some row =>
      if deletesPendingPhoto K row.providerVersionId w then
        { s with objects := Function.update s.objects row.storageKey false }.setPhase c
          (.unlinking d deletion rest final)
      else s.setPhase c (.processing d rest final)

/-- `deletion.delete()` -/
def unlink (s : GateState C) (deletion : ℕ) : GateState C :=
  { s with deletions := s.deletions.removeNow fun pk _ => pk = deletion }

/-- The exception of a submission: the object is deleted. SOURCE: enrollment.py:60-62 -/
def compensate (K : FaceConfig) (s : GateState C) (c : C) (d : GateDraft) (result : GateResult)
    (w : GateAnswers) : GateState C :=
  if deletesPendingPhoto K d.version w then
    { s with objects := Function.update s.objects d.key false }.setPhase c
      (.finished d.call result)
  else s.setPhase c (.finished d.call .storage)

/-- The photo is opened, and the manager is shown it. SOURCE: views/gate.py:30-35 -/
def openPhoto (s : GateState C) (c : C) (user enrollment : ℕ) (key : Text) : GateState C :=
  if s.objects key then
    { s with shown := Function.update s.shown user (Function.update (s.shown user) enrollment
        (some key)) }.setPhase c (.finished (.view user enrollment) .done)
  else s.setPhase c (.finished (.view user enrollment) .notFound)

/-! ## Steps -/

/-- The next statement of a call. -/
def next (K : FaceConfig) (s : GateState C) (c : C) (w : GateAnswers) : Option (GateState C) :=
  match s.phase c with
  | .opening user enrollment key => some (s.openPhoto c user enrollment key)
  | .stored d =>
    match d.call with
    | .submit occupancy _ => s.enroll c d occupancy
    | _ => none
  | .enrolled d => s.afterEnrolled K c d
  | .reviewing d => s.saveDecision c d
  | .saved d => s.afterSaved K c d
  | .found d none => some (s.setPhase c (afterDrop d))
  | .found d (some photo) => s.queueDeletion c d photo
  | .queued d photo => s.dropPhoto c d photo.1
  | .dropped d => s.afterDropped K c d w
  | .cleared d =>
    match d.call with
    | .revoke _ => s.deleteEnrollment c d
    | _ => none
  | .purging d =>
    match d.call with
    | .purge _ => s.nextExpired c d w
    | _ => none
  | .processing d deletions final => some (s.processNext K c d deletions final w)
  | .unlinking d deletion deletions final =>
    some ((s.unlink deletion).setPhase c (.processing d deletions final))
  | .failing d result => some (s.compensate K c d result w)
  | .idle | .closing _ | .finished _ _ => none

/-- The foreign key of the photos: no photo is left without its enrolment. -/
def orphans (s : GateState C) (c : C) (d : GateDraft) : Bool :=
  (s.enrollments.seen c d.enrollment).isNone &&
    (s.photos.view c).any fun p => p.enrollment = d.enrollment

/-- The commit of a call, whose deferred foreign keys are checked. -/
def commit (s : GateState C) (c : C) : Option (GateState C) :=
  match s.phase c with
  | .closing d =>
    if s.orphans c d then some (s.raise c d .integrity)
    else some ((s.commitTables c).setPhase c (afterCommit d))
  | _ => none

/-- The commit of a call whose connection breaks before the answer. -/
def commitLost (s : GateState C) (c : C) : Option (GateState C) :=
  match s.phase c with
  | .closing d =>
    if s.orphans c d then none
    else some ((s.commitTables c).setPhase c (afterError d .database))
  | _ => none

/-- A database error strikes the statement of a call. -/
def fail (s : GateState C) (c : C) : Option (GateState C) :=
  match s.phase c with
  | .stored d | .enrolled d | .reviewing d | .saved d | .found d _ | .queued d _ | .dropped d
  | .cleared d | .closing d | .purging d | .processing d _ _ | .unlinking d _ _ _ =>
    some (s.raise c d .database)
  | .idle | .opening _ _ _ | .failing _ _ | .finished _ _ => none

def step (K : FaceConfig) (s : GateState C) : GateAction C → Option (GateState C)
  | .tick elapsed => some { s with now := s.now + elapsed }
  | .setManagers manages => some { s with manages }
  | .begin c call w => s.begin K c call w
  | .next c w => s.next K c w
  | .commit c => s.commit c
  | .commitLost c => s.commitLost c
  | .fail c => s.fail c

end GateState

end LamTo.Model
