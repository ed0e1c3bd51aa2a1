import LamTo.Analysis.PhotoSteps
import LamTo.Library.Holding

/-!
# The keys of the gate photos

The key of an object is drawn by a submission, goes with the photo row that it commits, and from
there into the queue of deletions, in the transaction that deletes the photo. `KeysInv` says of
every key where it is, and what the open transactions are about to change of it:

* a key is drawn once, and is the key of one photo at most;
* a photo is never rewritten, only deleted;
* the queue never names a photo that stays (`dropping`, `dead`).

It holds in every run of the calls. Read with the submissions whose compensation is still due
(`ownKey true`), it holds while no step is one of those that `sparesPhotos` leaves out.

SOURCE: src/lamto/gate/enrollment.py:27-73, photos.py:23-85, review.py:23-56, retention.py:19-34
-/

set_option autoImplicit false

namespace LamTo.Analysis

open LamTo.Library LamTo.Library.Versions LamTo.Model

/-! ## What a call has in hand -/

/-- The key of the object that an open submission stored, until a photo names it; and, where a
compensation counts, until the object is deleted. -/
def ownKey (compensates : Bool) : GatePhase → Option Text
  | .stored d | .enrolled d | .reviewing d | .saved d | .found d _ | .queued d _ | .dropped d
  | .cleared d | .closing d => if d.call.submits then some d.key else none
  | .failing d _ => if compensates then some d.key else none
  | .idle | .opening _ _ _ | .purging _ | .processing _ _ _ | .unlinking _ _ _ _
  | .finished _ _ => none

/-- The photo that a call has read and may drop. -/
def heldPhoto : GatePhase → Option (ℕ × PendingEnrollmentPhoto)
  | .found _ photo => photo
  | .queued _ photo => some photo
  | .reviewing d => d.photo
  | _ => none

/-- The photo whose deletion the call has just queued. -/
def queuedPhoto : GatePhase → Option (ℕ × PendingEnrollmentPhoto)
  | .queued _ photo => some photo
  | _ => none

/-- The draft of a call that is about to commit. -/
def closingDraft : GatePhase → Option GateDraft
  | .closing d => some d
  | _ => none

theorem ne_queued {phase : GatePhase} (h : queuedPhoto phase = none) (d : GateDraft)
    (photo : ℕ × PendingEnrollmentPhoto) : phase ≠ .queued d photo := by
  rintro rfl
  cases h

theorem ne_closing {phase : GatePhase} (h : closingDraft phase = none) (d : GateDraft) :
    phase ≠ .closing d := by
  rintro rfl
  cases h

theorem submits_of_revokes {call : GateCall} (h : GateCall.revokes call = true) :
    call.submits = false := by
  cases call <;> first | rfl | cases h

theorem submits_of_closesFace {call : GateCall} (h : GateCall.closesFace call = true) :
    call.submits = false := by
  cases call <;> first | rfl | cases h

theorem ownKey_transacts (compensates : Bool) (phase : GatePhase) (d : GateDraft)
    (h : GatePhase.transacts phase = some d) :
    ownKey compensates phase = if d.call.submits then some d.key else none := by
  cases phase <;> cases h <;> rfl

theorem ownKey_follows (compensates : Bool) (phase : GatePhase) (d : GateDraft)
    (h : GatePhase.follows phase = some d) : ownKey compensates phase = none := by
  cases phase <;> cases h <;> rfl

/-- Storing the object of a submission fails, and leaves it behind. -/
def leavesObject (K : FaceConfig) (w : GateAnswers) : Bool :=
  match storePendingPhoto K w with
  | .ok _ => false
  | .error kept => kept

variable {C : Type} [DecidableEq C]

/-- The step is none of those that lose track of an object: the storage keeps one that it did not
return, a submission cannot take its object back, a revocation deletes a photo that it did not see,
or a database error hides the commit of a submission or strikes after it. -/
def sparesPhotos (K : FaceConfig) (s : GateState C) : GateAction C → Bool
  | .begin _ (.submit _ upload) w => !K.accepts upload || !leavesObject K w
  | .next c w =>
    match s.phase c with
    | .failing d _ => deletesPendingPhoto K d.version w
    | .dropped d => !GateCall.revokes d.call || (s.findPhoto c d.enrollment).isNone
    | _ => true
  | .commitLost c =>
    match s.phase c with
    | .closing d => !d.call.submits
    | _ => true
  | .fail c =>
    match GatePhase.follows (s.phase c) with
    | some d => !d.call.submits
    | none => true
  | _ => true

omit [DecidableEq C]

/-- The key may be put in the queue: it is drawn, and no submission's own. -/
def Spent (compensates : Bool) (s : GateState C) (key : Text) : Prop :=
  (s.written key).isSome = true ∧ ∀ c, ownKey compensates (s.phase c) ≠ some key

/-- A photo that was read: no other has its key, and its row is the one that was read. -/
structure Known (compensates : Bool) (s : GateState C) (q : ℕ) (p : PendingEnrollmentPhoto) :
    Prop where
  spent : Spent compensates s p.storageKey
  once : ∀ q' p', s.photos.Stored q' p' → p'.storageKey = p.storageKey → q' = q
  below : q < s.photos.committed.next
  row : ∀ p', s.photos.Stored q p' → p' = p

/-- Where every key is. -/
structure KeysInv (compensates : Bool) (s : GateState C) : Prop where
  drawnPhoto : ∀ q p, s.photos.Stored q p → (s.written p.storageKey).isSome = true
  drawnDeletion : ∀ q r, s.deletions.Stored q r → (s.written r.storageKey).isSome = true
  once : ∀ q q' p p', s.photos.Stored q p → s.photos.Stored q' p' →
    p.storageKey = p'.storageKey → q = q'
  /-- A photo is never rewritten. -/
  locks : ∀ q c p p', s.photos.pending q = some ⟨c, some p⟩ →
    s.photos.committed.get? q = some p' → p = p'
  /-- A new photo is that of a submission about to commit. -/
  inserted : ∀ q c p, s.photos.pending q = some ⟨c, some p⟩ → s.photos.committed.get? q = none →
    ∃ d, s.phase c = .closing d ∧ d.call.submits = true ∧ d.key = p.storageKey
  inserting : ∀ c d, s.phase c = .closing d → d.call.submits = true →
    ∃ q p, s.photos.pending q = some ⟨c, some p⟩ ∧ p.storageKey = d.key
  queue : InsertOnly s.deletions
  held : ∀ c q p, heldPhoto (s.phase c) = some (q, p) → Known compensates s q p
  own : ∀ c key, ownKey compensates (s.phase c) = some key →
    (s.written key).isSome = true ∧
      (∀ c', ownKey compensates (s.phase c') = some key → c' = c) ∧
      (∀ q r, s.deletions.Stored q r → r.storageKey ≠ key) ∧
      ∀ q p, s.photos.committed.get? q = some p → p.storageKey ≠ key
  /-- The queue names no photo. -/
  dead : ∀ q r, s.deletions.committed.get? q = some r →
    ∀ q' p, s.photos.Stored q' p → p.storageKey ≠ r.storageKey
  queuing : ∀ c d photo, s.phase c = .queued d photo →
    ∃ q r, s.deletions.pending q = some ⟨c, some r⟩ ∧ r.storageKey = photo.2.storageKey
  /-- A deletion that is about to be queued is that of a photo the call deletes. -/
  dropping : ∀ q c r, s.deletions.pending q = some ⟨c, some r⟩ →
    (∃ d photo, s.phase c = .queued d photo ∧ photo.2.storageKey = r.storageKey) ∨
      ∀ q' p, s.photos.committed.get? q' = some p → p.storageKey = r.storageKey →
        s.photos.pending q' = some ⟨c, none⟩

variable {compensates : Bool}

/-- No photo, committed or not, has the key of an open submission before its own is inserted. -/
theorem KeysInv.own_stored {s : GateState C} (h : KeysInv compensates s) (c : C) (key : Text)
    (hc : ownKey compensates (s.phase c) = some key) (q : ℕ) (p : PendingEnrollmentPhoto)
    (hp : s.photos.Stored q p) (hkey : p.storageKey = key) :
    ∃ d, s.phase c = .closing d ∧ s.photos.pending q = some ⟨c, some p⟩ := by
  obtain ⟨-, hunique, -, hcommitted⟩ := h.own c key hc
  rcases hp with hp | ⟨c', hp⟩
  · exact absurd hkey (hcommitted q p hp)
  · cases hq : s.photos.committed.get? q with
    | some p' =>
      have hsame := h.locks q c' p p' hp hq
      rw [hsame] at hkey
      exact absurd hkey (hcommitted q p' hq)
    | none =>
      obtain ⟨d, hd, hsubmits, hdkey⟩ := h.inserted q c' p hp hq
      have hown : ownKey compensates (s.phase c') = some key := by
        rw [hd, ← hkey, ← hdkey]
        exact if_pos hsubmits
      have hcc := hunique c' hown
      subst hcc
      exact ⟨d, hd, hp⟩

variable [DecidableEq C]

/-- What a call sees of the photos is stored. -/
theorem stored_of_seen {α : Type} (v : Versions C α) (c : C) (q : ℕ) (a : α)
    (h : v.seen c q = some a) : v.Stored q a := by
  rcases v.seen_cases c q with ⟨row, hrow, hseen⟩ | ⟨-, hseen⟩
  · rw [hseen] at h
    subst h
    exact .inr ⟨c, hrow⟩
  · rw [hseen] at h
    exact .inl h

/-! ## The steps -/

namespace KeysInv

variable {s t : GateState C} {c : C} {ph : GatePhase}

omit [DecidableEq C] in
/-- All versions of a photo are the same. -/
theorem row_unique (h : KeysInv compensates s) (q : ℕ) (p p' : PendingEnrollmentPhoto)
    (hp : s.photos.Stored q p) (hp' : s.photos.Stored q p') : p = p' := by
  rcases hp with hp | ⟨d, hp⟩
  · rcases hp' with hp' | ⟨d', hp'⟩
    · exact Option.some.inj (hp.symm.trans hp')
    · exact (h.locks q d' p' p hp' hp).symm
  · rcases hp' with hp' | ⟨d', hp'⟩
    · exact h.locks q d p p' hp hp'
    · rw [hp] at hp'
      cases hp'
      rfl

/-- A photo that a call sees before it is about to commit. -/
theorem known_of_seen (h : KeysInv compensates s) (hclosing : ∀ d, s.phase c ≠ .closing d) (q : ℕ)
    (p : PendingEnrollmentPhoto) (hp : s.photos.seen c q = some p) : Known compensates s q p := by
  have hstored := stored_of_seen s.photos c q p hp
  refine ⟨⟨h.drawnPhoto q p hstored, fun c' hc' => ?_⟩,
    fun q' p' hp' hkey => h.once q' q p' p hp' hstored hkey, (s.photos.seen_bounded c q p hp).2,
    fun p' hp' => h.row_unique q p' p hp' hstored⟩
  obtain ⟨-, -, -, hcommitted⟩ := h.own c' _ hc'
  rcases s.photos.seen_cases c q with ⟨row, hrow, hseen⟩ | ⟨-, hseen⟩
  · rw [hseen] at hp
    subst hp
    cases hq : s.photos.committed.get? q with
    | none =>
      obtain ⟨d, hd, -⟩ := h.inserted q c p hrow hq
      exact hclosing d hd
    | some p' =>
      have hsame := h.locks q c p p' hrow hq
      exact hcommitted q p' hq (by rw [hsame])
  · exact hcommitted q p (hseen.symm.trans hp) rfl

/-- **A step of one call that commits no photo**: what it adds to the queue is spent, and what it
adds to the photos has the key it owns. -/
theorem of_open (h : KeysInv compensates s) (hphase : t.phase = Function.update s.phase c ph)
    (hphotos : ∀ q, t.photos.committed.get? q = s.photos.committed.get? q)
    (hdeletions : ∀ q r, t.deletions.committed.get? q = some r →
      s.deletions.committed.get? q = some r)
    (hwritten : ∀ key, (s.written key).isSome = true → (t.written key).isSome = true)
    (hown : ∀ key, ownKey compensates ph = some key → ownKey compensates (s.phase c) = some key)
    (hnewPhoto : ∀ q p, t.photos.Stored q p → s.photos.Stored q p ∨
      q = s.photos.committed.next ∧ ownKey compensates (s.phase c) = some p.storageKey ∧
        ∀ d, s.phase c ≠ .closing d)
    (hnewDeletion : ∀ q r, t.deletions.Stored q r →
      s.deletions.Stored q r ∨ Spent compensates s r.storageKey)
    (hnext : s.photos.committed.next ≤ t.photos.committed.next)
    (hheld : ∀ q p, heldPhoto ph = some (q, p) → Known compensates s q p)
    (hothers : ∀ q c' p, c' ≠ c → s.photos.pending q = some ⟨c', some p⟩ →
      t.photos.pending q = some ⟨c', some p⟩)
    (hinserting : ∀ d, ph = .closing d → d.call.submits = true →
      ∃ q p, t.photos.pending q = some ⟨c, some p⟩ ∧ p.storageKey = d.key)
    (hqueue : InsertOnly t.deletions)
    (hlocks : ∀ q c' p p', t.photos.pending q = some ⟨c', some p⟩ →
      s.photos.committed.get? q = some p' → p = p')
    (hinserted : ∀ q c' p, t.photos.pending q = some ⟨c', some p⟩ →
      s.photos.committed.get? q = none →
      ∃ d, t.phase c' = .closing d ∧ d.call.submits = true ∧ d.key = p.storageKey)
    (hqueuing : ∀ c' d photo, t.phase c' = .queued d photo →
      ∃ q r, t.deletions.pending q = some ⟨c', some r⟩ ∧ r.storageKey = photo.2.storageKey)
    (hdropping : ∀ q c' r, t.deletions.pending q = some ⟨c', some r⟩ →
      (∃ d photo, t.phase c' = .queued d photo ∧ photo.2.storageKey = r.storageKey) ∨
        ∀ q' p, s.photos.committed.get? q' = some p → p.storageKey = r.storageKey →
          t.photos.pending q' = some ⟨c', none⟩) :
    KeysInv compensates t := by
  have howns : ∀ c' key, ownKey compensates (t.phase c') = some key →
      ownKey compensates (s.phase c') = some key := by
    intro c' key hkey
    rw [hphase] at hkey
    by_cases hc : c' = c
    · subst hc
      rw [Function.update_self] at hkey
      exact hown key hkey
    · rw [Function.update_of_ne hc] at hkey
      exact hkey
  -- A photo that is new has a key that no stored photo has.
  have hfresh : ∀ q p key, s.photos.Stored q p → ownKey compensates (s.phase c) = some key →
      (∀ d, s.phase c ≠ .closing d) → p.storageKey ≠ key := by
    intro q p key hp hc hclosing hkey
    obtain ⟨d, hd, -⟩ := h.own_stored c _ hc q p hp hkey
    exact hclosing d hd
  refine ⟨?_, ?_, ?_, ?_, ?_, ?_, hqueue, ?_, ?_, ?_, hqueuing, ?_⟩
  · intro q p hp
    apply hwritten
    rcases hnewPhoto q p hp with hold | ⟨-, hc, -⟩
    · exact h.drawnPhoto q p hold
    · exact (h.own c _ hc).1
  · intro q r hr
    apply hwritten
    rcases hnewDeletion q r hr with hold | hspent
    · exact h.drawnDeletion q r hold
    · exact hspent.1
  · intro q q' p p' hp hp' hkey
    rcases hnewPhoto q p hp with hold | ⟨hq, hc, hclosing⟩
    · rcases hnewPhoto q' p' hp' with hold' | ⟨-, hc', hclosing⟩
      · exact h.once q q' p p' hold hold' hkey
      · exact absurd hkey (hfresh q p _ hold hc' hclosing)
    · rcases hnewPhoto q' p' hp' with hold' | ⟨hq', hc', -⟩
      · exact absurd hkey.symm (hfresh q' p' _ hold' hc hclosing)
      · rw [hq, hq']
  · intro q c' p p' hp hq
    rw [hphotos] at hq
    exact hlocks q c' p p' hp hq
  · intro q c' p hp hq
    rw [hphotos] at hq
    exact hinserted q c' p hp hq
  · intro c' d hd hsubmits
    by_cases hc : c' = c
    · subst hc
      rw [hphase, Function.update_self] at hd
      exact hinserting d hd hsubmits
    · rw [hphase, Function.update_of_ne hc] at hd
      obtain ⟨q, p, hp, hkey⟩ := h.inserting c' d hd hsubmits
      exact ⟨q, p, hothers q c' p hc hp, hkey⟩
  · intro c' q p hq
    have hknown : Known compensates s q p := by
      rw [hphase] at hq
      by_cases hc : c' = c
      · rw [hc, Function.update_self] at hq
        exact hheld q p hq
      · rw [Function.update_of_ne hc] at hq
        exact h.held c' q p hq
    refine ⟨⟨hwritten _ hknown.spent.1, fun c'' hc'' => hknown.spent.2 c'' (howns c'' _ hc'')⟩,
      fun q' p' hp' hkey => ?_, hknown.below.trans_le hnext, fun p' hp' => ?_⟩
    · rcases hnewPhoto q' p' hp' with hold | ⟨-, hc, -⟩
      · exact hknown.once q' p' hold hkey
      · rw [hkey] at hc
        exact absurd hc (hknown.spent.2 c)
    · rcases hnewPhoto q p' hp' with hold | ⟨hnew, -, -⟩
      · exact hknown.row p' hold
      · exact absurd hknown.below (hnew ▸ Nat.lt_irrefl _)
  · intro c' key hkey
    obtain ⟨hdrawn, hunique, hqueued, hcommitted⟩ := h.own c' key (howns c' key hkey)
    refine ⟨hwritten key hdrawn, fun c'' hc'' => hunique c'' (howns c'' key hc''),
      fun q r hr => ?_, fun q p hp => hcommitted q p ((hphotos q).symm.trans hp)⟩
    rcases hnewDeletion q r hr with hold | hspent
    · exact hqueued q r hold
    · rintro rfl
      exact hspent.2 c' (howns c' _ hkey)
  · intro q r hr q' p hp
    have hr := hdeletions q r hr
    rcases hnewPhoto q' p hp with hold | ⟨-, hc, -⟩
    · exact h.dead q r hr q' p hold
    · exact fun hkey => (h.own c _ hc).2.2.1 q r (.inl hr) hkey.symm
  · intro q c' r hr
    rcases hdropping q c' r hr with hqueued | hgone
    · exact .inl hqueued
    · exact .inr fun q' p hp hkey => hgone q' p ((hphotos q').symm.trans hp) hkey

/-- What the other calls are about to commit is theirs still. -/
theorem inserted_other (h : KeysInv compensates s)
    (hphase : t.phase = Function.update s.phase c ph) (hclosing : ∀ d, s.phase c ≠ .closing d)
    (q : ℕ) (c' : C) (p : PendingEnrollmentPhoto) (hp : s.photos.pending q = some ⟨c', some p⟩)
    (hq : s.photos.committed.get? q = none) :
    ∃ d, t.phase c' = .closing d ∧ d.call.submits = true ∧ d.key = p.storageKey := by
  obtain ⟨d, hd, hrest⟩ := h.inserted q c' p hp hq
  have hc : c' ≠ c := by
    rintro rfl
    exact hclosing d hd
  exact ⟨d, by rw [hphase, Function.update_of_ne hc, hd], hrest⟩

/-- A call that queues nothing leaves those that do. -/
theorem queuing_other (h : KeysInv compensates s)
    (hphase : t.phase = Function.update s.phase c ph) (hph : ∀ d photo, ph ≠ .queued d photo)
    (hdeletions : ∀ q c' r, c' ≠ c → s.deletions.pending q = some ⟨c', some r⟩ →
      t.deletions.pending q = some ⟨c', some r⟩)
    (c' : C) (d : GateDraft) (photo : ℕ × PendingEnrollmentPhoto)
    (hd : t.phase c' = .queued d photo) :
    ∃ q r, t.deletions.pending q = some ⟨c', some r⟩ ∧ r.storageKey = photo.2.storageKey := by
  rw [hphase] at hd
  have hc : c' ≠ c := by
    rintro rfl
    rw [Function.update_self] at hd
    exact hph d photo hd
  rw [Function.update_of_ne hc] at hd
  obtain ⟨q, r, hr, hkey⟩ := h.queuing c' d photo hd
  exact ⟨q, r, hdeletions q c' r hc hr, hkey⟩

/-- A step that writes no photo and queues nothing: the call goes on with the same object in hand,
and with the same photo or one that it sees. -/
theorem of_phase (h : KeysInv compensates s) (hphase : t.phase = Function.update s.phase c ph)
    (hphotos : t.photos = s.photos)
    (hdeletions : ∀ q r, t.deletions.committed.get? q = some r →
      s.deletions.committed.get? q = some r)
    (hpending : t.deletions.pending = s.deletions.pending)
    (hwritten : ∀ key, (s.written key).isSome = true → (t.written key).isSome = true)
    (hown : ∀ key, ownKey compensates ph = some key → ownKey compensates (s.phase c) = some key)
    (hheld : ∀ q p, heldPhoto ph = some (q, p) →
      heldPhoto (s.phase c) = some (q, p) ∨ s.photos.seen c q = some p)
    (hph : queuedPhoto ph = none)
    (hsubmits : (closingDraft ph).any (·.call.submits) = false)
    (hqueued : queuedPhoto (s.phase c) = none) (hclosing : closingDraft (s.phase c) = none) :
    KeysInv compensates t := by
  have hclosing := ne_closing hclosing
  refine h.of_open hphase (fun q => by rw [hphotos]) hdeletions hwritten hown
    (fun q p hp => .inl (by rw [← hphotos]; exact hp)) (fun q r hr => .inl ?_) (by rw [hphotos])
    (fun q p hq => ?_) (fun q c' p _ hp => by rw [hphotos]; exact hp)
    (fun d hd hsubmit => by
      rw [hd] at hsubmits
      exact absurd (hsubmits.symm.trans hsubmit) Bool.false_ne_true) ?_ ?_ ?_
    (h.queuing_other hphase (ne_queued hph) fun q c' r _ hr => by rw [hpending]; exact hr) ?_
  · rcases hr with hr | ⟨c', hr⟩
    · exact .inl (hdeletions q r hr)
    · rw [hpending] at hr
      exact .inr ⟨c', hr⟩
  · rcases hheld q p hq with hold | hseen
    · exact h.held c q p hold
    · exact h.known_of_seen hclosing q p hseen
  · refine ⟨fun q p hp => ?_, fun q p hp => h.queue.kept q p (by rw [← hpending]; exact hp)⟩
    rw [hpending] at hp
    have hnone := h.queue.fresh q p hp
    cases hq : t.deletions.committed.get? q with
    | none => rfl
    | some r =>
      rw [hdeletions q r hq] at hnone
      cases hnone
  · rw [hphotos]
    exact h.locks
  · intro q c' p hp hq
    rw [hphotos] at hp
    exact h.inserted_other hphase hclosing q c' p hp hq
  · intro q c' r hr
    rw [hpending] at hr
    rw [hphotos]
    rcases h.dropping q c' r hr with ⟨d, photo, hd, hkey⟩ | hgone
    · have hc : c' ≠ c := by
        rintro rfl
        exact ne_queued hqueued d photo hd
      exact .inl ⟨d, photo, by rw [hphase, Function.update_of_ne hc, hd], hkey⟩
    · exact .inr hgone

/-- A call queues the deletion of the photo it has found. -/
theorem of_queues (h : KeysInv compensates s) (d : GateDraft) (q : ℕ) (p : PendingEnrollmentPhoto)
    (hd : s.phase c = .found d (some (q, p))) :
    KeysInv compensates ({ s with
      deletions := s.deletions.insert c ⟨p.storageKey, p.providerVersionId⟩ }.setPhase c
        (.queued { d with deletion := some s.deletions.committed.next } (q, p))) := by
  have hknown : Known compensates s q p := h.held c q p (by rw [hd]; rfl)
  have hclosing : ∀ d, s.phase c ≠ .closing d := by
    intro d₀ hd₀
    rw [hd] at hd₀
    cases hd₀
  have hkept : ∀ q' w, s.deletions.pending q' = some w →
      (s.deletions.insert c ⟨p.storageKey, p.providerVersionId⟩).pending q' = some w := by
    intro q' w hw
    rw [pending_insert, if_neg (Nat.ne_of_lt (s.deletions.drawn q' _ hw).2), hw]
  refine h.of_open rfl (fun _ => rfl) (fun _ _ hr => hr) (fun _ hkey => hkey)
    (fun key hkey => ?_) (fun _ _ hp => .inl hp) (fun q' r hr => ?_) le_rfl (fun q' p' hq => ?_)
    (fun _ _ _ _ hp => hp) (fun _ hph => (nomatch hph)) (h.queue.insert _) h.locks
    (h.inserted_other rfl hclosing) (fun c' d₀ photo₀ hd₀ => ?_) (fun q' c' r hr => ?_)
  · rw [hd]
    exact hkey
  · rcases stored_insert _ q' r hr with hold | ⟨-, rfl⟩
    · exact .inl hold
    · exact .inr hknown.spent
  · cases hq
    exact hknown
  · by_cases hc : c' = c
    · subst hc
      rw [GateState.phase_setPhase, Function.update_self] at hd₀
      cases hd₀
      exact ⟨s.deletions.committed.next, _, by
        rw [GateState.setPhase, pending_insert, if_pos rfl], rfl⟩
    · have hold : s.phase c' = .queued d₀ photo₀ := by
        rw [← hd₀]
        exact (Function.update_of_ne hc _ _).symm
      obtain ⟨q', r, hr, hrkey⟩ := h.queuing c' d₀ photo₀ hold
      exact ⟨q', r, hkept q' _ hr, hrkey⟩
  · change (s.deletions.insert c _).pending q' = _ at hr
    rw [pending_insert] at hr
    split at hr
    · cases hr
      exact .inl ⟨_, (q, p), Function.update_self .., rfl⟩
    · rcases h.dropping q' c' r hr with ⟨d₀, photo₀, hd₀, hrkey⟩ | hgone
      · have hc : c' ≠ c := by
          rintro rfl
          rw [hd] at hd₀
          cases hd₀
        exact .inl ⟨d₀, photo₀, (Function.update_of_ne hc _ _).trans hd₀, hrkey⟩
      · exact .inr hgone

/-- A call deletes the photo whose deletion it has queued, if it is still there. -/
theorem of_drops (h : KeysInv compensates s) (d : GateDraft) (q : ℕ) (p : PendingEnrollmentPhoto)
    (hd : s.phase c = .queued d (q, p)) (hfree : s.photos.locked c q = false)
    (hown : ∀ key, ownKey compensates ph = some key → ownKey compensates (s.phase c) = some key)
    (hheld : heldPhoto ph = none) (hph : queuedPhoto ph = none)
    (hsubmits : (closingDraft ph).any (·.call.submits) = false) :
    KeysInv compensates ({ s with
      photos := if (s.photos.seen c q).isSome then s.photos.write c q none
        else s.photos }.setPhase c ph) := by
  have hknown : Known compensates s q p := h.held c q p (by rw [hd]; rfl)
  have hclosing : ∀ d, s.phase c ≠ .closing d := by
    intro d₀ hd₀
    rw [hd] at hd₀
    cases hd₀
  generalize hphotos : (if (s.photos.seen c q).isSome then s.photos.write c q none
    else s.photos) = photos
  have hpending : ∀ q' w, photos.pending q' = some w →
      s.photos.pending q' = some w ∨ q' = q ∧ w = ⟨c, none⟩ := by
    intro q' w hw
    rw [← hphotos] at hw
    split at hw
    · next hseen =>
      obtain ⟨a, ha⟩ := Option.isSome_iff_exists.mp hseen
      rw [pending_write _ _ _ _ (s.photos.seen_bounded c q a ha)] at hw
      split at hw
      · next hq =>
        cases hw
        exact .inr ⟨hq, rfl⟩
      · exact .inl hw
    · exact .inl hw
  have hkept : ∀ q' w, q' ≠ q → s.photos.pending q' = some w → photos.pending q' = some w := by
    intro q' w hq hw
    rw [← hphotos]
    split
    · next hseen =>
      obtain ⟨a, ha⟩ := Option.isSome_iff_exists.mp hseen
      rw [pending_write _ _ _ _ (s.photos.seen_bounded c q a ha), if_neg hq, hw]
    · exact hw
  -- After the statement the photo is deleted, or was gone before.
  have hgone : ∀ p', s.photos.committed.get? q = some p' → photos.pending q = some ⟨c, none⟩ := by
    intro p' hp'
    rw [← hphotos]
    split
    · next hseen =>
      obtain ⟨a, ha⟩ := Option.isSome_iff_exists.mp hseen
      rw [pending_write _ _ _ _ (s.photos.seen_bounded c q a ha), if_pos rfl]
    · next hseen =>
      rcases s.photos.seen_cases c q with ⟨row, hrow, hsame⟩ | ⟨-, hsame⟩
      · cases row with
        | none => exact hrow
        | some a =>
          rw [hsame] at hseen
          exact absurd rfl hseen
      · rw [hsame, hp'] at hseen
        exact absurd rfl hseen
  have hcommitted : photos.committed = s.photos.committed := by
    rw [← hphotos]
    split
    · exact committed_write _ _ _ _
    · rfl
  refine h.of_open rfl (fun q' => congrArg (·.get? q') hcommitted) (fun _ _ hr => hr)
    (fun _ hkey => hkey) hown (fun q' p' hp => .inl ?_) (fun _ _ hr => .inl hr)
    (le_of_eq (congrArg Table.next hcommitted.symm))
    (fun q' p' hq => by rw [hheld] at hq; cases hq) (fun q' c' p' hc hp => ?_)
    (fun d hd hsubmit => by
      rw [hd] at hsubmits
      exact absurd (hsubmits.symm.trans hsubmit) Bool.false_ne_true) h.queue
    (fun q' c' p' p'' hp hq => ?_) (fun q' c' p' hp hq => ?_)
    (h.queuing_other rfl (ne_queued hph) fun _ _ _ _ hr => hr) (fun q' c' r hr => ?_)
  · rcases hp with hp | ⟨c', hp⟩
    · exact .inl ((congrArg (·.get? q') hcommitted).symm.trans hp)
    · rcases hpending q' _ hp with hold | ⟨-, hnew⟩
      · exact .inr ⟨c', hold⟩
      · cases hnew
  · by_cases hq : q' = q
    · subst hq
      exact absurd ((s.photos.locked_eq_false c q').mp hfree _ hp) hc
    · exact hkept q' _ hq hp
  · rcases hpending q' _ hp with hold | ⟨-, hnew⟩
    · exact h.locks q' c' p' p'' hold hq
    · cases hnew
  · rcases hpending q' _ hp with hold | ⟨-, hnew⟩
    · exact h.inserted_other rfl hclosing q' c' p' hold hq
    · cases hnew
  · rcases h.dropping q' c' r hr with ⟨d₀, photo₀, hd₀, hrkey⟩ | hall
    · by_cases hc : c' = c
      · subst hc
        rw [hd] at hd₀
        cases hd₀
        refine .inr fun q'' p' hp hkey => ?_
        have hq := hknown.once q'' p' (.inl hp) (hkey.trans hrkey.symm)
        subst hq
        exact hgone p' hp
      · exact .inl ⟨d₀, photo₀, (Function.update_of_ne hc _ _).trans hd₀, hrkey⟩
    · refine .inr fun q'' p' hp hkey => ?_
      have hold := hall q'' p' hp hkey
      by_cases hq : q'' = q
      · subst hq
        have hc : c' = c := (s.photos.locked_eq_false c q'').mp hfree _ hold
        rw [hc]
        exact hgone p' hp
      · exact hkept q'' _ hq hold

/-- A photo is taken under its lock. -/
theorem of_locks (h : KeysInv compensates s) (d : GateDraft) (q : ℕ) (p : PendingEnrollmentPhoto)
    (hd : s.phase c = .enrolled d) (hseen : s.photos.seen c q = some p)
    (hfree : s.photos.locked c q = false) :
    KeysInv compensates ({ s with photos := s.photos.write c q (some p) }.setPhase c
      (.reviewing { d with photo := some (q, p) })) := by
  have hclosing : ∀ d, s.phase c ≠ .closing d := by
    intro d₀ hd₀
    rw [hd] at hd₀
    cases hd₀
  have hknown := h.known_of_seen hclosing q p hseen
  have hpending := s.photos.pending_write c q (some p) (s.photos.seen_bounded c q p hseen)
  refine h.of_open rfl (fun q' => get?_write_committed _ _ _ _ q') (fun _ _ hr => hr)
    (fun _ hkey => hkey) (fun key hkey => ?_) (fun q' p' hp => .inl ?_) (fun _ _ hr => .inl hr)
    (le_of_eq (congrArg Table.next (committed_write _ _ _ _)).symm) (fun q' p' hq => ?_)
    (fun q' c' p' hc hp => ?_) (fun _ hph => (nomatch hph)) h.queue
    (fun q' c' p' p'' hp hq => ?_) (fun q' c' p' hp hq => ?_)
    (h.queuing_other rfl (fun _ _ hph => (nomatch hph)) fun _ _ _ _ hr => hr)
    (fun q' c' r hr => ?_)
  · rw [hd]
    exact hkey
  · rcases stored_write c q p q' p' hp with hold | hnew
    · exact hold
    · rcases hp with hp | ⟨c', hp⟩
      · rw [GateState.setPhase, get?_write_committed] at hp
        exact .inl hp
      · rw [GateState.setPhase, hpending] at hp
        split at hp
        · next hq =>
          rw [hq, hnew]
          exact stored_of_seen s.photos c q p hseen
        · exact .inr ⟨c', hp⟩
  · cases hq
    exact hknown
  · rw [GateState.setPhase, hpending, if_neg]
    · exact hp
    · rintro rfl
      exact hc ((s.photos.locked_eq_false c q').mp hfree _ hp)
  · rw [GateState.setPhase, hpending] at hp
    split at hp
    · next hqp =>
      cases hp
      rw [hqp] at hq
      exact (hknown.row p'' (.inl hq)).symm
    · exact h.locks q' c' p' p'' hp hq
  · rw [GateState.setPhase, hpending] at hp
    split at hp
    · next hqp =>
      cases hp
      rw [hqp] at hq
      -- What it locks it saw, so it is committed, or its own insertion.
      rcases s.photos.seen_cases c q with ⟨row, hrow, hsame⟩ | ⟨-, hsame⟩
      · rw [hsame] at hseen
        subst hseen
        obtain ⟨d₀, hd₀, -⟩ := h.inserted q c p hrow hq
        exact absurd hd₀ (hclosing d₀)
      · rw [hsame, hq] at hseen
        cases hseen
    · exact h.inserted_other rfl hclosing q' c' p' hp hq
  · rcases h.dropping q' c' r hr with ⟨d₀, photo₀, hd₀, hrkey⟩ | hall
    · have hc : c' ≠ c := by
        rintro rfl
        rw [hd] at hd₀
        cases hd₀
      exact .inl ⟨d₀, photo₀, (Function.update_of_ne hc _ _).trans hd₀, hrkey⟩
    · refine .inr fun q'' p' hp hkey => ?_
      have hold := hall q'' p' hp hkey
      rw [GateState.setPhase, hpending, if_neg]
      · exact hold
      · rintro rfl
        -- The call would see a photo that it has deleted.
        have hc : c' = c := (s.photos.locked_eq_false c q'').mp hfree _ hold
        subst hc
        rw [s.photos.seen_own c' q'' none hold] at hseen
        cases hseen

/-- A submission inserts the photo that names its object. -/
theorem of_attaches (h : KeysInv compensates s) (d : GateDraft) (row : PendingEnrollmentPhoto)
    (hd : s.phase c = .saved d) (hsubmits : d.call.submits = true) (hkey : row.storageKey = d.key) :
    KeysInv compensates ({ s with photos := s.photos.insert c row }.setPhase c (.closing d)) := by
  have hown : ownKey compensates (s.phase c) = some d.key := by
    rw [hd]
    exact if_pos hsubmits
  have hclosing : ∀ d, s.phase c ≠ .closing d := by
    intro d₀ hd₀
    rw [hd] at hd₀
    cases hd₀
  have hpending := s.photos.pending_insert c row
  have hkept : ∀ q w, s.photos.pending q = some w → (s.photos.insert c row).pending q = some w := by
    intro q w hw
    rw [hpending, if_neg (Nat.ne_of_lt (s.photos.drawn q _ hw).2), hw]
  refine h.of_open rfl (fun q => get?_insert_committed _ _ _ q) (fun _ _ hr => hr)
    (fun _ hk => hk) (fun key hk => ?_) (fun q p hp => ?_) (fun _ _ hr => .inl hr)
    (Nat.le_succ _) (fun q p hq => (nomatch hq)) (fun q c' p _ hp => hkept q _ hp)
    (fun d₀ hd₀ _ => ?_) h.queue (fun q c' p p' hp hq => ?_) (fun q c' p hp hq => ?_)
    (h.queuing_other rfl (fun _ _ hph => (nomatch hph)) fun _ _ _ _ hr => hr)
    (fun q c' r hr => ?_)
  · rw [hd]
    exact hk
  · rcases stored_insert row q p hp with hold | ⟨hq, hrow⟩
    · exact .inl hold
    · exact .inr ⟨hq, by rw [hown, hrow, hkey], hclosing⟩
  · cases hd₀
    exact ⟨s.photos.committed.next, row, by rw [GateState.setPhase, hpending, if_pos rfl], hkey⟩
  · rw [GateState.setPhase, hpending] at hp
    split at hp
    · next hnew =>
      rw [hnew, s.photos.committed.get?_next] at hq
      cases hq
    · exact h.locks q c' p p' hp hq
  · rw [GateState.setPhase, hpending] at hp
    split at hp
    · cases hp
      exact ⟨d, Function.update_self .., hsubmits, hkey.symm⟩
    · exact h.inserted_other rfl hclosing q c' p hp hq
  · rcases h.dropping q c' r hr with ⟨d₀, photo₀, hd₀, hrkey⟩ | hall
    · have hc : c' ≠ c := by
        rintro rfl
        rw [hd] at hd₀
        cases hd₀
      exact .inl ⟨d₀, photo₀, (Function.update_of_ne hc _ _).trans hd₀, hrkey⟩
    · exact .inr fun q' p hp hrkey => hkept q' _ (hall q' p hp hrkey)

/-- A call raises: what it has written is gone. -/
theorem of_rollback (h : KeysInv compensates s)
    (hown : ∀ key, ownKey compensates ph = some key → ownKey compensates (s.phase c) = some key)
    (hheld : heldPhoto ph = none) (hph : queuedPhoto ph = none)
    (hclosing : closingDraft ph = none) : KeysInv compensates ((s.rollback c).setPhase c ph) := by
  have hphoto := s.photos.pending_rollback c
  have hdeletion := s.deletions.pending_rollback c
  refine h.of_open rfl (fun _ => rfl) (fun _ _ hr => hr) (fun _ hkey => hkey) hown
    (fun q p hp => .inl (stored_rollback c q p hp)) (fun q r hr => .inl (stored_rollback c q r hr))
    le_rfl (fun q p hq => by rw [hheld] at hq; cases hq)
    (fun q c' p hc hp => (hphoto q _).mpr ⟨hp, hc⟩) (fun d hd _ => absurd hd (ne_closing hclosing d))
    ((drops_rollback s.deletions c).insertOnly h.queue)
    (fun q c' p p' hp hq => h.locks q c' p p' ((hphoto q _).mp hp).1 hq)
    (fun q c' p hp hq => ?_)
    (h.queuing_other rfl (ne_queued hph) fun q c' r hc hr => (hdeletion q _).mpr ⟨hr, hc⟩)
    (fun q c' r hr => ?_)
  · obtain ⟨hold, hc⟩ := (hphoto q _).mp hp
    obtain ⟨d, hd, hrest⟩ := h.inserted q c' p hold hq
    exact ⟨d, (Function.update_of_ne hc _ _).trans hd, hrest⟩
  · obtain ⟨hold, hc⟩ := (hdeletion q _).mp hr
    rcases h.dropping q c' r hold with ⟨d, photo, hd, hkey⟩ | hall
    · exact .inl ⟨d, photo, (Function.update_of_ne hc _ _).trans hd, hkey⟩
    · exact .inr fun q' p hp hkey => (hphoto q' _).mpr ⟨hall q' p hp hkey, hc⟩

/-- A revocation deletes the photos of its enrolment that it sees, without the queue. -/
theorem of_cascades (h : KeysInv compensates s) (d : GateDraft) (f : PendingEnrollmentPhoto → Bool)
    (hd : s.phase c = .dropped d) (hfree : s.photos.lockedWhere c f = false) :
    KeysInv compensates ({ s with
      photos := s.photos.updateWhere c f fun _ => none }.setPhase c (.cleared d)) := by
  have hclosing : ∀ d, s.phase c ≠ .closing d := by
    intro d₀ hd₀
    rw [hd] at hd₀
    cases hd₀
  have hold : ∀ q c' p, (s.photos.updateWhere c f fun _ => none).pending q = some ⟨c', some p⟩ →
      s.photos.pending q = some ⟨c', some p⟩ := by
    intro q c' p hp
    rcases s.photos.pending_updateWhere c f _ q _ hp with hold | ⟨a, -, -, hnew⟩
    · exact hold
    · cases hnew
  have hother := s.photos.pending_updateWhere_other c f (fun _ => none) hfree
  refine h.of_open rfl (fun _ => rfl) (fun _ _ hr => hr) (fun _ hkey => hkey) (fun key hkey => ?_)
    (fun q p hp => .inl ?_) (fun _ _ hr => .inl hr) le_rfl (fun _ _ hq => (nomatch hq))
    (fun q c' p hc hp => (hother q _ hc).mpr hp) (fun _ hph => (nomatch hph)) h.queue
    (fun q c' p p' hp hq => h.locks q c' p p' (hold q c' p hp) hq)
    (fun q c' p hp hq => h.inserted_other rfl hclosing q c' p (hold q c' p hp) hq)
    (h.queuing_other rfl (fun _ _ hph => (nomatch hph)) fun _ _ _ _ hr => hr)
    (fun q c' r hr => ?_)
  · rw [hd]
    exact hkey
  · rcases hp with hp | ⟨c', hp⟩
    · exact .inl hp
    · exact .inr ⟨c', hold q c' p hp⟩
  · rcases h.dropping q c' r hr with ⟨d₀, photo₀, hd₀, hrkey⟩ | hall
    · have hc : c' ≠ c := by
        rintro rfl
        rw [hd] at hd₀
        cases hd₀
      exact .inl ⟨d₀, photo₀, (Function.update_of_ne hc _ _).trans hd₀, hrkey⟩
    · refine .inr fun q' p hp hkey => ?_
      have hpending := hall q' p hp hkey
      by_cases hc : c' = c
      · subst hc
        show (s.photos.updateWhere c' f fun _ => none).pending q' = _
        simp only [updateWhere, s.photos.seen_own c' q' none hpending, hpending]
      · exact (hother q' _ hc).mpr hpending

/-- A submission draws a key and stores its object under it. -/
theorem of_stores (h : KeysInv compensates s) (hidle : s.phase c = .idle) (d : GateDraft)
    (data : List UInt8) (objects : Text → Bool) (hfresh : s.written d.key = none)
    (hsubmits : d.call.submits = true) :
    KeysInv compensates ({ s with
      written := Function.update s.written d.key (some data)
      objects }.setPhase c (.stored d)) := by
  have hwritten : ∀ key, (s.written key).isSome = true →
      (Function.update s.written d.key (some data) key).isSome = true := by
    intro key hkey
    by_cases heq : key = d.key
    · rw [heq, Function.update_self]
      rfl
    · rw [Function.update_of_ne heq]
      exact hkey
  have hne : ∀ key, (s.written key).isSome = true → key ≠ d.key := by
    rintro key hkey rfl
    rw [hfresh] at hkey
    cases hkey
  have hother : ∀ c', c' ≠ c → Function.update s.phase c (.stored d) c' = s.phase c' :=
    fun c' hc => Function.update_of_ne hc _ _
  have hself : ownKey compensates (Function.update s.phase c (.stored d) c) = some d.key := by
    rw [Function.update_self]
    exact if_pos hsubmits
  refine ⟨fun q p hp => hwritten _ (h.drawnPhoto q p hp),
    fun q r hr => hwritten _ (h.drawnDeletion q r hr), h.once, h.locks, fun q c' p hp hq => ?_,
    fun c' d₀ hd₀ hsub => ?_, h.queue, fun c' q p hq => ?_, fun c' key hkey => ?_, h.dead,
    h.queuing_other rfl (fun _ _ hph => (nomatch hph)) fun _ _ _ _ hr => hr, fun q c' r hr => ?_⟩
  · exact h.inserted_other rfl (fun d₀ hd₀ => by rw [hidle] at hd₀; cases hd₀) q c' p hp hq
  · rw [GateState.phase_setPhase] at hd₀
    have hc : c' ≠ c := by
      rintro rfl
      rw [Function.update_self] at hd₀
      cases hd₀
    rw [hother c' hc] at hd₀
    exact h.inserting c' d₀ hd₀ hsub
  · rw [GateState.phase_setPhase] at hq
    have hc : c' ≠ c := by
      rintro rfl
      rw [Function.update_self] at hq
      cases hq
    rw [hother c' hc] at hq
    have hknown := h.held c' q p hq
    refine ⟨⟨hwritten _ hknown.spent.1, fun c'' hc'' => ?_⟩, hknown.once, hknown.below, hknown.row⟩
    rw [GateState.phase_setPhase] at hc''
    by_cases hcc : c'' = c
    · rw [hcc, hself] at hc''
      exact hne _ hknown.spent.1 (Option.some.inj hc'').symm
    · rw [hother c'' hcc] at hc''
      exact hknown.spent.2 c'' hc''
  · rw [GateState.phase_setPhase] at hkey
    by_cases hc : c' = c
    · rw [hc, hself] at hkey
      cases hkey
      have hdrawn : (Function.update s.written d.key (some data) d.key).isSome = true := by
        rw [Function.update_self]
        rfl
      refine ⟨hdrawn, fun c'' hc'' => ?_, fun q r hr => hne _ (h.drawnDeletion q r hr),
        fun q p hp => hne _ (h.drawnPhoto q p (.inl hp))⟩
      rw [hc]
      by_contra hcc
      rw [GateState.phase_setPhase, hother c'' hcc] at hc''
      exact hne _ (h.own c'' _ hc'').1 rfl
    · rw [hother c' hc] at hkey
      obtain ⟨hdrawn, hunique, hrest⟩ := h.own c' key hkey
      refine ⟨hwritten key hdrawn, fun c'' hc'' => ?_, hrest⟩
      rw [GateState.phase_setPhase] at hc''
      by_cases hcc : c'' = c
      · rw [hcc, hself] at hc''
        exact absurd (Option.some.inj hc'').symm (hne key hdrawn)
      · rw [hother c'' hcc] at hc''
        exact hunique c'' hc''
  · rcases h.dropping q c' r hr with ⟨d₀, photo₀, hd₀, hrkey⟩ | hgone
    · have hc : c' ≠ c := by
        rintro rfl
        rw [hidle] at hd₀
        cases hd₀
      exact .inl ⟨d₀, photo₀, (hother c' hc).trans hd₀, hrkey⟩
    · exact .inr hgone

/-- **A call commits**: the photos it has deleted are named by the queue, and the one it has
inserted has the key it owned. -/
theorem of_commit (h : KeysInv compensates s) (d : GateDraft) (hd : s.phase c = .closing d)
    (hown : ownKey compensates ph = none) (hheld : heldPhoto ph = none)
    (hph : queuedPhoto ph = none) (hclosing : closingDraft ph = none) :
    KeysInv compensates ((s.commitTables c).setPhase c ph) := by
  have hphoto := s.photos.pending_commit c
  have hdeletion := s.deletions.pending_commit c
  have hother : ∀ c', c' ≠ c → Function.update s.phase c ph c' = s.phase c' :=
    fun c' hc => Function.update_of_ne hc _ _
  have howns : ∀ c' key, ownKey compensates (Function.update s.phase c ph c') = some key →
      c' ≠ c ∧ ownKey compensates (s.phase c') = some key := by
    intro c' key hkey
    by_cases hc : c' = c
    · rw [hc, Function.update_self, hown] at hkey
      cases hkey
    · rw [hother c' hc] at hkey
      exact ⟨hc, hkey⟩
  -- A photo that is committed after it was committed before, or is the submission's own.
  have hcases : ∀ q p, (s.photos.commit c).committed.get? q = some p →
      s.photos.committed.get? q = some p ∧ s.photos.pending q ≠ some ⟨c, none⟩ ∨
        s.photos.committed.get? q = none ∧ s.photos.pending q = some ⟨c, some p⟩ := by
    intro q p hp
    rw [get?_commit] at hp
    rcases s.photos.seen_cases c q with ⟨row, hrow, hseen⟩ | ⟨hnot, hseen⟩
    · rw [hseen] at hp
      subst hp
      cases hq : s.photos.committed.get? q with
      | none => exact .inr ⟨rfl, hrow⟩
      | some p' =>
        have hsame := h.locks q c p p' hrow hq
        subst hsame
        exact .inl ⟨rfl, by rw [hrow]; simp⟩
    · rw [hseen] at hp
      exact .inl ⟨hp, fun hpending => hnot _ hpending rfl⟩
  -- The queue that is about to be committed names no photo that another call is about to insert.
  have hinserted : ∀ q c' p, s.photos.pending q = some ⟨c', some p⟩ →
      s.photos.committed.get? q = none →
      ∀ q' r, s.deletions.Stored q' r → r.storageKey ≠ p.storageKey := by
    intro q c' p hp hq
    obtain ⟨d₀, hd₀, hsubmits, hkey⟩ := h.inserted q c' p hp hq
    have hkeys : ownKey compensates (s.phase c') = some p.storageKey := by
      rw [hd₀, ← hkey]
      exact if_pos hsubmits
    exact (h.own c' _ hkeys).2.2.1
  refine ⟨fun q p hp => h.drawnPhoto q p (stored_commit c q p hp),
    fun q r hr => h.drawnDeletion q r (stored_commit c q r hr),
    fun q q' p p' hp hp' => h.once q q' p p' (stored_commit c q p hp) (stored_commit c q' p' hp'),
    fun q c' p p' hp hq => ?_, fun q c' p hp hq => ?_, fun c' d₀ hd₀ hsubmits => ?_,
    h.queue.commit, fun c' q p hq => ?_, fun c' key hkey => ?_, fun q r hr q' p hp hkey => ?_,
    h.queuing_other rfl (ne_queued hph) fun q c' r hc hr => (hdeletion q _).mpr ⟨hr, hc⟩,
    fun q c' r hr => ?_⟩
  · obtain ⟨hp, hc⟩ := (hphoto q _).mp hp
    rcases hcases q p' hq with ⟨hq, -⟩ | ⟨-, hpending⟩
    · exact h.locks q c' p p' hp hq
    · rw [hp] at hpending
      cases hpending
      exact absurd rfl hc
  · obtain ⟨hp, hc⟩ := (hphoto q _).mp hp
    change (s.photos.commit c).committed.get? q = none at hq
    rw [get?_commit, s.photos.seen_other c q _ hp hc] at hq
    obtain ⟨d₀, hd₀, hrest⟩ := h.inserted q c' p hp hq
    exact ⟨d₀, (hother c' hc).trans hd₀, hrest⟩
  · rw [GateState.phase_setPhase] at hd₀
    have hc : c' ≠ c := by
      rintro rfl
      rw [Function.update_self] at hd₀
      exact ne_closing hclosing d₀ hd₀
    obtain ⟨q, p, hp, hkey⟩ := h.inserting c' d₀ ((hother c' hc).symm.trans hd₀) hsubmits
    exact ⟨q, p, (hphoto q _).mpr ⟨hp, hc⟩, hkey⟩
  · rw [GateState.phase_setPhase] at hq
    have hc : c' ≠ c := by
      rintro rfl
      rw [Function.update_self, hheld] at hq
      cases hq
    have hknown := h.held c' q p ((congrArg heldPhoto (hother c' hc)).symm.trans hq)
    exact ⟨⟨hknown.spent.1, fun c'' hc'' => hknown.spent.2 c'' (howns c'' _ hc'').2⟩,
      fun q' p' hp' => hknown.once q' p' (stored_commit c q' p' hp'), hknown.below,
      fun p' hp' => hknown.row p' (stored_commit c q p' hp')⟩
  · obtain ⟨hc, hkey⟩ := howns c' key hkey
    obtain ⟨hdrawn, hunique, hqueued, hcommitted⟩ := h.own c' key hkey
    refine ⟨hdrawn, fun c'' hc'' => hunique c'' (howns c'' key hc'').2,
      fun q r hr => hqueued q r (stored_commit c q r hr), fun q p hp hpkey => ?_⟩
    obtain ⟨d₀, hd₀, hpending⟩ :=
      h.own_stored c' key hkey q p (stored_commit c q p (.inl hp)) hpkey
    rcases hcases q p hp with ⟨hp, -⟩ | ⟨-, hpending'⟩
    · exact hcommitted q p hp hpkey
    · rw [hpending] at hpending'
      cases hpending'
      exact hc rfl
  · have hstored := stored_commit c q' p hp
    rcases (h.queue.get?_commit q r).mp hr with hr | hr
    · exact h.dead q r hr q' p hstored hkey
    · -- The photo with the key of a deletion that commits is deleted by the same commit.
      rcases h.dropping q c r hr with ⟨d₀, photo₀, hd₀, -⟩ | hall
      · rw [hd] at hd₀
        cases hd₀
      · cases hq : s.photos.committed.get? q' with
        | none =>
          rcases hstored with hstored | ⟨c', hpending⟩
          · rw [hq] at hstored
            cases hstored
          · exact hinserted q' c' p hpending hq q r (.inr ⟨c, hr⟩) hkey.symm
        | some p' =>
          have hsame := h.row_unique q' p p' hstored (.inl hq)
          subst hsame
          have hgone := hall q' p hq hkey
          rcases hp with hp | ⟨c', hp⟩
          · rcases hcases q' p hp with ⟨-, hw⟩ | ⟨hnone, -⟩
            · exact hw hgone
            · rw [hq] at hnone
              cases hnone
          · have hpending := ((hphoto q' _).mp hp).1
            rw [hgone] at hpending
            cases hpending
  · obtain ⟨hold, hc⟩ := (hdeletion q _).mp hr
    rcases h.dropping q c' r hold with ⟨d₀, photo₀, hd₀, hrkey⟩ | hall
    · exact .inl ⟨d₀, photo₀, (hother c' hc).trans hd₀, hrkey⟩
    · refine .inr fun q' p hp hkey => ?_
      rcases hcases q' p hp with ⟨hq, -⟩ | ⟨hnone, hpending⟩
      · exact (hphoto q' _).mpr ⟨hall q' p hq hkey, hc⟩
      · exact absurd hkey.symm (hinserted q' c p hpending hnone q r (.inr ⟨c', hold⟩))

/-- A step of a call that has nothing in hand after it. -/
theorem of_quiet (h : KeysInv compensates s) (hphase : t.phase = Function.update s.phase c ph)
    (hphotos : t.photos = s.photos)
    (hdeletions : ∀ q r, t.deletions.committed.get? q = some r →
      s.deletions.committed.get? q = some r)
    (hpending : t.deletions.pending = s.deletions.pending)
    (hwritten : ∀ key, (s.written key).isSome = true → (t.written key).isSome = true)
    (hown : ownKey compensates ph = none) (hheld : heldPhoto ph = none)
    (hph : queuedPhoto ph = none) (hcloses : closingDraft ph = none)
    (hqueued : queuedPhoto (s.phase c) = none) (hclosing : closingDraft (s.phase c) = none) :
    KeysInv compensates t :=
  h.of_phase hphase hphotos hdeletions hpending hwritten
    (fun key hkey => by rw [hown] at hkey; cases hkey)
    (fun q p hq => by rw [hheld] at hq; cases hq) hph (by rw [hcloses]; rfl) hqueued hclosing

theorem ownKey_afterDrop (d : GateDraft) :
    ownKey compensates (GateState.afterDrop d) = if d.call.submits then some d.key else none := by
  unfold GateState.afterDrop
  split <;> rfl

theorem heldPhoto_afterDrop (d : GateDraft) : heldPhoto (GateState.afterDrop d) = none := by
  unfold GateState.afterDrop
  split <;> rfl

theorem queuedPhoto_afterDrop (d : GateDraft) : queuedPhoto (GateState.afterDrop d) = none := by
  unfold GateState.afterDrop
  split <;> rfl

/-- A submission that has dropped a photo does not close its transaction yet. -/
theorem submits_of_afterDrop (d : GateDraft) :
    (closingDraft (GateState.afterDrop d)).any (·.call.submits) = false := by
  unfold GateState.afterDrop
  split
  · rfl
  · rfl
  · next hsubmit _ =>
    cases hcall : d.call with
    | submit occupancy upload => exact absurd hcall (hsubmit occupancy upload)
    | revoke _ | view _ _ | approve _ _ | reject _ _ _ | revokeFace _ _ | purge _ | process =>
      simp only [closingDraft, Option.any_some, hcall, GateCall.submits]

/-- A call that raises keeps its object in hand, where a compensation counts. -/
theorem of_raise (h : KeysInv compensates s) (d : GateDraft) (result : GateResult)
    (hd : d.call.submits = true → ∀ key, ownKey compensates (.failing d result) = some key →
      ownKey compensates (s.phase c) = some key) : KeysInv compensates (s.raise c d result) := by
  unfold GateState.raise GateState.afterError
  split
  · next hsubmits => exact h.of_rollback (hd hsubmits) rfl rfl rfl
  · exact h.of_rollback (fun _ hkey => by cases hkey) rfl rfl rfl

theorem of_raise_transacts (h : KeysInv compensates s) (d : GateDraft) (result : GateResult)
    (hd : GatePhase.transacts (s.phase c) = some d) :
    KeysInv compensates (s.raise c d result) := by
  refine h.of_raise d result fun hsubmits key hkey => ?_
  rw [ownKey_transacts compensates _ d hd, if_pos hsubmits]
  simp only [ownKey] at hkey
  split at hkey
  · exact hkey
  · cases hkey

omit [DecidableEq C] in
/-- The clock and the managers have no part in it. -/
theorem of_office (h : KeysInv compensates s) (now : ℕ) (manages : ℕ → ℕ → Bool) :
    KeysInv compensates { s with now, manages } where
  drawnPhoto := h.drawnPhoto
  drawnDeletion := h.drawnDeletion
  once := h.once
  locks := h.locks
  inserted := h.inserted
  inserting := h.inserting
  queue := h.queue
  held := fun c q p hq =>
    ⟨(h.held c q p hq).spent, (h.held c q p hq).once, (h.held c q p hq).below,
      (h.held c q p hq).row⟩
  own := h.own
  dead := h.dead
  queuing := h.queuing
  dropping := h.dropping

theorem of_openPhoto (h : KeysInv compensates s) (user enrollment : ℕ) (key : Text)
    (hd : s.phase c = .opening user enrollment key) :
    KeysInv compensates (s.openPhoto c user enrollment key) := by
  unfold GateState.openPhoto
  split <;>
    exact h.of_quiet rfl rfl (fun _ _ hr => hr) rfl (fun _ hkey => hkey) rfl rfl rfl rfl
      (by rw [hd]; rfl) (by rw [hd]; rfl)

theorem of_compensate (h : KeysInv compensates s) (K : FaceConfig) (d : GateDraft)
    (result : GateResult) (w : GateAnswers) (hd : s.phase c = .failing d result) :
    KeysInv compensates (s.compensate K c d result w) := by
  unfold GateState.compensate
  split <;>
    exact h.of_quiet rfl rfl (fun _ _ hr => hr) rfl (fun _ hkey => hkey) rfl rfl rfl rfl
      (by rw [hd]; rfl) (by rw [hd]; rfl)

theorem quiet_afterCallbacks (compensates : Bool) (d : GateDraft) :
    ownKey compensates (GateState.afterCallbacks d) = none ∧
      heldPhoto (GateState.afterCallbacks d) = none ∧
      queuedPhoto (GateState.afterCallbacks d) = none ∧
      closingDraft (GateState.afterCallbacks d) = none := by
  unfold GateState.afterCallbacks
  split <;> exact ⟨rfl, rfl, rfl, rfl⟩

theorem quiet_afterCommit (compensates : Bool) (d : GateDraft) :
    ownKey compensates (GateState.afterCommit d) = none ∧
      heldPhoto (GateState.afterCommit d) = none ∧
      queuedPhoto (GateState.afterCommit d) = none ∧
      closingDraft (GateState.afterCommit d) = none := by
  unfold GateState.afterCommit
  split
  · exact ⟨rfl, rfl, rfl, rfl⟩
  · exact quiet_afterCallbacks compensates d

/-- **Every step keeps track of the keys**: of those of a compensation too, unless the step is one
of those that lose track of an object. -/
theorem step {K : FaceConfig} {a : GateAction C} (h : KeysInv compensates s)
    (heffect : GateEffect K s a t) (hspares : compensates = true → sparesPhotos K s a = true) :
    KeysInv compensates t := by
  have hwritten : ∀ key, (s.written key).isSome = true → (s.written key).isSome = true :=
    fun _ hkey => hkey
  cases heffect with
  | ticks elapsed => exact h.of_office _ s.manages
  | appoints manages => exact h.of_office s.now manages
  | refuses c call w result hidle =>
    exact h.of_quiet rfl rfl (fun _ _ hr => hr) rfl hwritten rfl rfl rfl rfl
      (by rw [hidle]; rfl) (by rw [hidle]; rfl)
  | stores c occupancy upload w version hidle haccepts hfresh hput =>
    exact h.of_stores hidle { newDraft (.submit occupancy upload) s.now with
      key := pendingPhotoKey w.uuid, version } upload.data _ hfresh rfl
  | loses c occupancy upload w kept hidle haccepts hfresh hput =>
    refine h.of_quiet rfl rfl (fun _ _ hr => hr) rfl (fun key hkey => ?_) rfl rfl rfl rfl
      (by rw [hidle]; rfl) (by rw [hidle]; rfl)
    have hne : key ≠ pendingPhotoKey w.uuid := by
      rintro rfl
      rw [hfresh] at hkey
      cases hkey
    exact (congrArg Option.isSome (Function.update_of_ne hne _ s.written)).trans hkey
  | revokes c occupancy w enrollment row hidle hrow =>
    exact h.of_quiet rfl rfl (fun _ _ hr => hr) rfl hwritten rfl rfl rfl rfl
      (by rw [hidle]; rfl) (by rw [hidle]; rfl)
  | views c user enrollment w q p hidle hrow henrollment =>
    exact h.of_quiet rfl rfl (fun _ _ hr => hr) rfl hwritten rfl rfl rfl rfl
      (by rw [hidle]; rfl) (by rw [hidle]; rfl)
  | approves c user enrollment w row hidle hrow hfree hstatus hembedding =>
    exact h.of_quiet rfl rfl (fun _ _ hr => hr) rfl hwritten rfl rfl rfl rfl
      (by rw [hidle]; rfl) (by rw [hidle]; rfl)
  | decides c call w enrollment row hidle hcall hrow =>
    refine h.of_quiet rfl rfl (fun _ _ hr => hr) rfl hwritten ?_ rfl rfl rfl
      (by rw [hidle]; rfl) (by rw [hidle]; rfl)
    exact if_neg (by rw [newDraft, submits_of_closesFace hcall]; exact Bool.false_ne_true)
  | purges c now w hidle horder =>
    exact h.of_quiet rfl rfl (fun _ _ hr => hr) rfl hwritten rfl rfl rfl rfl
      (by rw [hidle]; rfl) (by rw [hidle]; rfl)
  | processes c w hidle horder =>
    exact h.of_quiet rfl rfl (fun _ _ hr => hr) rfl hwritten rfl rfl rfl rfl
      (by rw [hidle]; rfl) (by rw [hidle]; rfl)
  | opens c w user enrollment key hd => exact h.of_openPhoto user enrollment key hd
  | enrolls c w d enrollment row hd hcall hseen =>
    exact h.of_phase rfl rfl (fun _ _ hr => hr) rfl hwritten (fun key hkey => by rw [hd]; exact hkey)
      (fun _ _ hq => by cases hq) rfl rfl (by rw [hd]; rfl) (by rw [hd]; rfl)
  | inserts c w d occupancy hd hcall =>
    exact h.of_phase rfl rfl (fun _ _ hr => hr) rfl hwritten (fun key hkey => by rw [hd]; exact hkey)
      (fun _ _ hq => by cases hq) rfl rfl (by rw [hd]; rfl) (by rw [hd]; rfl)
  | finds c w d hd hcall =>
    exact h.of_phase rfl rfl (fun _ _ hr => hr) rfl hwritten (fun key hkey => by rw [hd]; exact hkey)
      (fun q p hq => .inr (GateEffect.seen_of_findPhoto _ q p hq).1) rfl rfl (by rw [hd]; rfl)
      (by rw [hd]; rfl)
  | locks c w d q p hd hcall hseen henrollment hexpired hfree => exact h.of_locks d q p hd hseen hfree
  | closes c w d user note row hd hcall hfree hrow =>
    exact h.of_phase rfl rfl (fun _ _ hr => hr) rfl hwritten (fun key hkey => by rw [hd]; exact hkey)
      (fun _ _ hq => by cases hq) rfl rfl (by rw [hd]; rfl) (by rw [hd]; rfl)
  | passes c w d now hd hcall hnone =>
    refine h.of_phase rfl rfl (fun _ _ hr => hr) rfl hwritten
      (fun key hkey => by rw [hd]; exact hkey) (fun _ _ hq => by cases hq) rfl ?_
      (by rw [hd]; rfl) (by rw [hd]; rfl)
    rw [closingDraft, Option.any_some, hcall]
    rfl
  | saves c w d user enrollment row hd hcall hfree hrow =>
    exact h.of_phase rfl rfl (fun _ _ hr => hr) rfl hwritten (fun key hkey => by rw [hd]; exact hkey)
      (fun _ _ hq => by cases hq) rfl rfl (by rw [hd]; rfl) (by rw [hd]; rfl)
  | expires c w d now row hd hcall hfree hrow =>
    exact h.of_phase rfl rfl (fun _ _ hr => hr) rfl hwritten (fun key hkey => by rw [hd]; exact hkey)
      (fun q p hq => .inl (by rw [hd]; exact hq)) rfl rfl (by rw [hd]; rfl)
      (by rw [hd]; rfl)
  | findsSaved c w d hd hcall =>
    exact h.of_phase rfl rfl (fun _ _ hr => hr) rfl hwritten (fun key hkey => by rw [hd]; exact hkey)
      (fun q p hq => .inr (GateEffect.seen_of_findPhoto _ q p hq).1) rfl rfl (by rw [hd]; rfl)
      (by rw [hd]; rfl)
  | skips c w d hd =>
    exact h.of_phase rfl rfl (fun _ _ hr => hr) rfl hwritten
      (fun key hkey => by rw [hd]; rw [ownKey_afterDrop] at hkey; exact hkey)
      (fun q p hq => by rw [heldPhoto_afterDrop] at hq; cases hq)
      (queuedPhoto_afterDrop d) (submits_of_afterDrop d)
      (by rw [hd]; rfl) (by rw [hd]; rfl)
  | queues c w d q p hd => exact h.of_queues d q p hd
  | drops c w d q p hd hfree =>
    exact h.of_drops d q p hd hfree
      (fun key hkey => by rw [hd]; rw [ownKey_afterDrop] at hkey; exact hkey) (heldPhoto_afterDrop d)
      (queuedPhoto_afterDrop d) (submits_of_afterDrop d)
  | submits c w d occupancy upload r row hd hcall hembed hrow hfree =>
    exact h.of_phase rfl rfl (fun _ _ hr => hr) rfl hwritten (fun key hkey => by rw [hd]; exact hkey)
      (fun _ _ hq => by cases hq) rfl rfl (by rw [hd]; rfl) (by rw [hd]; rfl)
  | attaches c w d occupancy upload hd hcall hawaits hnone =>
    exact h.of_attaches d _ hd (by rw [hcall]; rfl) rfl
  | cascades c w d hd hcall hfree => exact h.of_cascades d _ hd hfree
  | deletes c w d hd hcall hfree =>
    refine h.of_phase rfl rfl (fun _ _ hr => hr) rfl hwritten
      (fun key hkey => by rw [hd]; exact hkey) (fun _ _ hq => by cases hq) rfl ?_
      (by rw [hd]; rfl) (by rw [hd]; rfl)
    rw [closingDraft, Option.any_some]
    exact submits_of_revokes hcall
  | lists c w d now hd hcall hrest horder =>
    exact h.of_quiet rfl rfl (fun _ _ hr => hr) rfl hwritten rfl rfl rfl rfl
      (by rw [hd]; rfl) (by rw [hd]; rfl)
  | vanishes c w d now enrollment rest hd hcall hrest hnone =>
    exact h.of_quiet rfl rfl (fun _ _ hr => hr) rfl hwritten rfl rfl rfl rfl
      (by rw [hd]; rfl) (by rw [hd]; rfl)
  | turns c w d now enrollment rest row hd hcall hrest hfree hrow =>
    refine h.of_quiet rfl rfl (fun _ _ hr => hr) rfl hwritten ?_ rfl rfl rfl
      (by rw [hd]; rfl) (by rw [hd]; rfl)
    exact if_neg (by rw [hcall]; exact Bool.false_ne_true)
  | ends c w d final hd =>
    obtain ⟨hown, hheld, hqueued, hcloses⟩ := quiet_afterCallbacks compensates d
    cases final with
    | true =>
      exact h.of_quiet rfl rfl (fun _ _ hr => hr) rfl hwritten rfl rfl rfl rfl
        (by rw [hd]; rfl) (by rw [hd]; rfl)
    | false =>
      exact h.of_quiet rfl rfl (fun _ _ hr => hr) rfl hwritten hown hheld hqueued hcloses
        (by rw [hd]; rfl) (by rw [hd]; rfl)
  | leaves c w d pk rest final hd hleft =>
    exact h.of_quiet rfl rfl (fun _ _ hr => hr) rfl hwritten rfl rfl rfl rfl
      (by rw [hd]; rfl) (by rw [hd]; rfl)
  | removes c w d pk rest final r hd hrow =>
    exact h.of_quiet rfl rfl (fun _ _ hr => hr) rfl hwritten rfl rfl rfl rfl
      (by rw [hd]; rfl) (by rw [hd]; rfl)
  | unlinks c w d pk rest final hd =>
    exact h.of_quiet rfl rfl (fun q r hr => ((Table.get?_remove _ _ q r).mp hr).1) rfl hwritten rfl
      rfl rfl rfl (by rw [hd]; rfl) (by rw [hd]; rfl)
  | raises c w d result hd hpurge => exact h.of_raise_transacts d result hd
  | compensates c w d result hd => exact h.of_compensate K d result w hd
  | commits c d hd hkept =>
    obtain ⟨hown, hheld, hqueued, hcloses⟩ := quiet_afterCommit compensates d
    exact h.of_commit d hd hown hheld hqueued hcloses
  | breaks c d hd horphans => exact h.of_raise_transacts d _ (by rw [hd]; rfl)
  | hides c d hd hkept =>
    refine h.of_commit d hd ?_ ?_ ?_ ?_
    · unfold GateState.afterError
      split
      · next hsubmits =>
        cases compensates with
        | false => rfl
        | true =>
          have hspares := hspares rfl
          simp only [sparesPhotos, hd, hsubmits] at hspares
          cases hspares
      · rfl
    all_goals
      unfold GateState.afterError
      split <;> rfl
  | fails c d hd =>
    rcases hd with hd | hd
    · exact h.of_raise_transacts d _ hd
    · refine h.of_raise d _ fun hsubmits key hkey => ?_
      cases compensates with
      | false => cases hkey
      | true =>
        have hspares := hspares rfl
        simp only [sparesPhotos, hd, hsubmits] at hspares
        cases hspares

end KeysInv

end LamTo.Analysis
