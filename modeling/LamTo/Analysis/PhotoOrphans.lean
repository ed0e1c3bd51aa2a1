import LamTo.Analysis.PhotoObjects
import LamTo.Analysis.QueuedEvidence

/-!
# No orphaned face photo

In every run that loses track of no object (`sparesPhotos`), an object that is there is named by a
photo or by the queue, or is that of a submission that is under way; and the object of a photo is
there. The steps that are left out are the ones a compensation without a queue cannot make up for.
A database error in the callback of a commit is one: the submission has committed its photo and
deletes its object.

SOURCE: src/lamto/gate/enrollment.py:27-73, photos.py:19-85, review.py:23-71, retention.py:19-34
-/

set_option autoImplicit false

namespace LamTo.Analysis

open LamTo.Library LamTo.Model

variable {C : Type} [DecidableEq C]

omit [DecidableEq C] in
theorem keysInv_empty (compensates : Bool) (now : ℕ) (manages : ℕ → ℕ → Bool) :
    KeysInv compensates (GateState.empty now manages : GateState C) where
  drawnPhoto := by
    rintro q p (h | ⟨c, h⟩) <;> cases h
  drawnDeletion := by
    rintro q r (h | ⟨c, h⟩) <;> cases h
  once := by
    rintro q q' p p' (h | ⟨c, h⟩) <;> cases h
  locks := fun _ _ _ _ h => by cases h
  inserted := fun _ _ _ h => by cases h
  inserting := fun _ _ h => by cases h
  queue := Versions.insertOnly_empty
  held := fun _ _ _ h => by cases h
  own := fun _ _ h => by cases h
  dead := fun _ _ h => by cases h
  queuing := fun _ _ _ h => by cases h
  dropping := fun _ _ _ h => by cases h

omit [DecidableEq C] in
theorem objectsInv_empty (now : ℕ) (manages : ℕ → ℕ → Bool) :
    ObjectsInv (GateState.empty now manages : GateState C) where
  kept := fun _ _ h => by cases h
  live := fun _ _ h => by cases h
  named := fun _ h => by cases h
  deleted := fun _ _ _ h => by cases h
  unlinked := fun _ _ h => by cases h

/-- **No orphaned face photo**: in every run that loses track of no object. -/
theorem photos_named (K : FaceConfig) (now : ℕ) (manages : ℕ → ℕ → Bool) (s : GateState C)
    (h : Reaches (GateState.step K) (fun s a => sparesPhotos K s a = true)
      (GateState.empty now manages) s) :
    (∀ key, s.objects key = true → Named s key ∨ ∃ c, ownKey true (s.phase c) = some key) ∧
      ∀ q p, s.photos.committed.get? q = some p → s.objects p.storageKey = true := by
  have hinv := h.preserves (fun s => KeysInv true s ∧ ObjectsInv s)
    (fun u a v hu hspares hstep => by
      have heffect := GateEffect.of_step a hstep
      exact ⟨hu.1.step heffect fun _ => hspares, hu.2.step hu.1 heffect hspares⟩)
    ⟨keysInv_empty true now manages, objectsInv_empty now manages⟩
  exact ⟨hinv.2.named, hinv.2.live⟩

/-! ## A photo without its object -/

/-- The vector of a picture is its bytes, and is sealed as it is. -/
def plainFaces : FaceConfig where
  unicode := asciiUnicode
  maxFaceUploadBytes := 100
  photoTtl := 72
  embed data := some ⟨data, [], []⟩
  sealEmbedding _ vector := vector
  versioned := false

/-- The storage takes what it is given and deletes what it is asked to. -/
def taking (uuid : String) (order : List ℕ) : GateAnswers :=
  ⟨uuid.toList, [], .taken [], false, order⟩

/-- A submission for the one occupancy, up to its commit. -/
def submitting (c : Bool) (data : List UInt8) (uuid : String) (statements : ℕ) :
    List (GateAction Bool) :=
  .begin c (.submit 1 ⟨"image/png".toList, data, true⟩) (taking uuid []) ::
    List.replicate statements (.next c (taking "" [])) ++ [.commit c]

/-- A submission, and another that replaces its photo. -/
def resubmission : List (GateAction Bool) :=
  submitting false [1] "a" 5 ++ submitting true [2] "b" 6

/-- A database error strikes the callback of the second commit: both calls have ended, and the photo
is there without its object. -/
theorem photo_without_object : ∃ s : GateState Bool,
    Reaches (GateState.step plainFaces) Always (GateState.empty 0 fun _ _ => true) s ∧
      (∀ c, ownKey true (s.phase c) = none) ∧
      ∃ q p, s.photos.committed.get? q = some p ∧ s.objects p.storageKey = false := by
  obtain ⟨s, hreach, hended, hphoto⟩ := exists_of_run (GateState.step plainFaces)
    (GateState.empty 0 (fun _ _ => true) : GateState Bool)
    (fun s => (∀ c, ownKey true (s.phase c) = none) ∧
      (s.photos.committed.get? 2).any (fun p => s.objects p.storageKey = false) = true)
    (resubmission ++ [.fail true, .next true (taking "" [])]) (by decide +kernel)
  obtain ⟨p, hp, hgone⟩ := (Option.any_eq_true _ _).mp hphoto
  exact ⟨s, hreach, hended, 2, p, hp, of_decide_eq_true hgone⟩

/-- Without the error the second photo has its object, and the first object is gone. -/
theorem photos_named_resubmitted : ∃ s : GateState Bool,
    Reaches (GateState.step plainFaces) (fun s a => sparesPhotos plainFaces s a = true)
      (GateState.empty 0 fun _ _ => true) s ∧
      (s.photos.committed.get? 2).isSome = true ∧
      s.objects (pendingPhotoKey "a".toList) = false ∧
      ∀ q p, s.photos.committed.get? q = some p → s.objects p.storageKey = true := by
  obtain ⟨s, hreach, hphoto, hgone⟩ := exists_of_run
    (guarded (GateState.step plainFaces) fun s a => sparesPhotos plainFaces s a = true)
    (GateState.empty 0 (fun _ _ => true) : GateState Bool)
    (fun s => (s.photos.committed.get? 2).isSome = true ∧
      s.objects (pendingPhotoKey "a".toList) = false)
    (resubmission ++ List.replicate 3 (.next true (taking "" []))) (by decide +kernel)
  have hrun := hreach.of_guarded
  exact ⟨s, hrun, hphoto, hgone, (photos_named plainFaces 0 _ s hrun).2⟩

end LamTo.Analysis
