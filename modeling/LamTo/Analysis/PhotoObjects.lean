import LamTo.Analysis.PhotoKeys

/-!
# The objects behind the gate photos

A submission stores its object before any row names it, and a photo is dropped by a deletion that
is queued in the same transaction. So while no step loses track of an object (`sparesPhotos`), an
object belongs to somebody from its first byte on: to the submission that stored it, to the photo
that names it, or to the queue (`ObjectsInv.named`); and the object of a photo is there
(`ObjectsInv.live`).

* A photo that a transaction deletes is in the queue that the transaction writes (`deleted`).
* The queue forgets a deletion only after the object is gone (`unlinked`).

SOURCE: src/lamto/gate/enrollment.py:27-73, photos.py:23-85, review.py:23-56, retention.py:19-34
-/

set_option autoImplicit false

namespace LamTo.Analysis

open LamTo.Library LamTo.Library.Versions LamTo.Model

/-- The deletion that a call is about to take from the queue. -/
def unlinkingKey : GatePhase → Option ℕ
  | .unlinking _ pk _ _ => some pk
  | _ => none

theorem unlinkingKey_afterDrop (d : GateDraft) : unlinkingKey (GateState.afterDrop d) = none := by
  unfold GateState.afterDrop
  split <;> rfl

theorem unlinkingKey_afterCallbacks (d : GateDraft) :
    unlinkingKey (GateState.afterCallbacks d) = none := by
  unfold GateState.afterCallbacks
  split <;> rfl

theorem unlinkingKey_afterCommit (d : GateDraft) :
    unlinkingKey (GateState.afterCommit d) = none := by
  unfold GateState.afterCommit
  split
  · rfl
  · exact unlinkingKey_afterCallbacks d

variable {C : Type}

/-- The key of an object is named by a photo or by the queue. -/
def Named (s : GateState C) (key : Text) : Prop :=
  (∃ q p, s.photos.committed.get? q = some p ∧ p.storageKey = key) ∨
    ∃ q r, s.deletions.committed.get? q = some r ∧ r.storageKey = key

/-- The object of a deletion in the queue is gone. -/
structure CarriedOut (s : GateState C) (pk : ℕ) : Prop where
  below : pk < s.deletions.committed.next
  kept : s.deletions.pending pk = none
  gone : ∀ r, s.deletions.committed.get? pk = some r → s.objects r.storageKey = false

/-- Whom every object belongs to. -/
structure ObjectsInv (s : GateState C) : Prop where
  kept : ∀ c key, ownKey true (s.phase c) = some key → s.objects key = true
  live : ∀ q p, s.photos.committed.get? q = some p → s.objects p.storageKey = true
  named : ∀ key, s.objects key = true →
    Named s key ∨ ∃ c, ownKey true (s.phase c) = some key
  deleted : ∀ q c p, s.photos.pending q = some ⟨c, none⟩ → s.photos.committed.get? q = some p →
    ∃ q' r, s.deletions.pending q' = some ⟨c, some r⟩ ∧ r.storageKey = p.storageKey
  unlinked : ∀ c pk, unlinkingKey (s.phase c) = some pk → CarriedOut s pk

namespace ObjectsInv

variable {s t : GateState C} {c : C} {ph : GatePhase}

/-- An object that is there was stored under a key that has been drawn. -/
theorem drawn (h : ObjectsInv s) (hkeys : KeysInv true s) (key : Text)
    (hkey : s.objects key = true) : (s.written key).isSome = true := by
  rcases h.named key hkey with (⟨q, p, hp, rfl⟩ | ⟨q, r, hr, rfl⟩) | ⟨c, hc⟩
  · exact hkeys.drawnPhoto q p (.inl hp)
  · exact hkeys.drawnDeletion q r (.inl hr)
  · exact (hkeys.own c key hc).1

variable [DecidableEq C]

/-- **A step of one call that commits nothing** and leaves the objects. -/
theorem of_open (h : ObjectsInv s) (hphase : t.phase = Function.update s.phase c ph)
    (hphotos : ∀ q, t.photos.committed.get? q = s.photos.committed.get? q)
    (hdeletions : ∀ q, t.deletions.committed.get? q = s.deletions.committed.get? q)
    (hobjects : t.objects = s.objects) (hown : ownKey true ph = ownKey true (s.phase c))
    (hph : unlinkingKey ph = none) (hnext : s.deletions.committed.next ≤ t.deletions.committed.next)
    (hpending : ∀ q w, t.deletions.pending q = some w →
      s.deletions.pending q = some w ∨ q = s.deletions.committed.next)
    (hdeleted : ∀ q c' p, t.photos.pending q = some ⟨c', none⟩ →
      s.photos.committed.get? q = some p →
      ∃ q' r, t.deletions.pending q' = some ⟨c', some r⟩ ∧ r.storageKey = p.storageKey) :
    ObjectsInv t := by
  have howns : ∀ c', ownKey true (t.phase c') = ownKey true (s.phase c') := by
    intro c'
    rw [hphase]
    by_cases hc : c' = c
    · rw [hc, Function.update_self, hown]
    · rw [Function.update_of_ne hc]
  refine ⟨fun c' key hkey => ?_, fun q p hp => ?_, fun key hkey => ?_, fun q c' p hp hq => ?_,
    fun c' pk hpk => ?_⟩
  · rw [hobjects]
    exact h.kept c' key ((howns c').symm.trans hkey)
  · rw [hobjects]
    exact h.live q p ((hphotos q).symm.trans hp)
  · rw [hobjects] at hkey
    rcases h.named key hkey with (⟨q, p, hp, hk⟩ | ⟨q, r, hr, hk⟩) | ⟨c', hc'⟩
    · exact .inl (.inl ⟨q, p, (hphotos q).trans hp, hk⟩)
    · exact .inl (.inr ⟨q, r, (hdeletions q).trans hr, hk⟩)
    · exact .inr ⟨c', (howns c').trans hc'⟩
  · exact hdeleted q c' p hp ((hphotos q).symm.trans hq)
  · rw [hphase] at hpk
    have hc : c' ≠ c := by
      rintro rfl
      rw [Function.update_self, hph] at hpk
      cases hpk
    rw [Function.update_of_ne hc] at hpk
    have hout := h.unlinked c' pk hpk
    refine ⟨hout.below.trans_le hnext, ?_, fun r hr => ?_⟩
    · cases hp : t.deletions.pending pk with
      | none => rfl
      | some w =>
        rcases hpending pk w hp with hold | hnew
        · rw [hout.kept] at hold
          cases hold
        · exact absurd hout.below (hnew ▸ Nat.lt_irrefl _)
    · rw [hobjects]
      exact hout.gone r ((hdeletions pk).symm.trans hr)

/-- A step that leaves the photos and the queue. -/
theorem of_frame (h : ObjectsInv s) (hphase : t.phase = Function.update s.phase c ph)
    (hphotos : t.photos = s.photos) (hdeletions : t.deletions = s.deletions)
    (hobjects : t.objects = s.objects) (hown : ownKey true ph = ownKey true (s.phase c))
    (hph : unlinkingKey ph = none) : ObjectsInv t := by
  refine h.of_open hphase (fun q => by rw [hphotos]) (fun q => by rw [hdeletions]) hobjects hown hph
    (by rw [hdeletions]) (fun q w hw => .inl (by rw [← hdeletions]; exact hw)) ?_
  rw [hphotos, hdeletions]
  exact h.deleted

theorem of_locks (h : ObjectsInv s) (d d' : GateDraft) (q : ℕ) (p : PendingEnrollmentPhoto)
    (hd : s.phase c = .enrolled d) (hcall : d'.call = d.call) (hkey : d'.key = d.key)
    (hseen : s.photos.seen c q = some p) :
    ObjectsInv ({ s with photos := s.photos.write c q (some p) }.setPhase c (.reviewing d')) := by
  refine h.of_open rfl (fun q' => get?_write_committed _ _ _ _ q') (fun _ => rfl) rfl ?_ rfl le_rfl
    (fun _ _ hw => .inl hw) fun q' c' p' hp hq => ?_
  · rw [hd, ownKey, ownKey, hcall, hkey]
  · rw [GateState.setPhase, s.photos.pending_write c q _ (s.photos.seen_bounded c q p hseen)] at hp
    split at hp
    · cases hp
    · exact h.deleted q' c' p' hp hq

theorem of_queues (h : ObjectsInv s) (d : GateDraft) (q : ℕ) (p : PendingEnrollmentPhoto)
    (r : PhotoDeletion) (hd : s.phase c = .found d (some (q, p))) :
    ObjectsInv ({ s with deletions := s.deletions.insert c r }.setPhase c
      (.queued { d with deletion := some s.deletions.committed.next } (q, p))) := by
  refine h.of_open rfl (fun _ => rfl) (fun q' => get?_insert_committed _ _ _ q') rfl
    (by rw [hd]; rfl) rfl (Nat.le_succ _) (fun q' w hw => ?_) fun q' c' p' hp hq => ?_
  · rw [GateState.setPhase, pending_insert] at hw
    split at hw
    · next heq => exact .inr heq
    · exact .inl hw
  · obtain ⟨k, r', hr, hkey⟩ := h.deleted q' c' p' hp hq
    refine ⟨k, r', ?_, hkey⟩
    rw [GateState.setPhase, pending_insert, if_neg (Nat.ne_of_lt (s.deletions.drawn k _ hr).2), hr]

/-- A call deletes a photo: its deletion is in the queue that the call writes. -/
theorem of_drops (h : ObjectsInv s) (hkeys : KeysInv true s) (d : GateDraft) (q : ℕ)
    (p : PendingEnrollmentPhoto) (hd : s.phase c = .queued d (q, p))
    (hown : ownKey true ph = ownKey true (s.phase c)) (hph : unlinkingKey ph = none) :
    ObjectsInv ({ s with
      photos := if (s.photos.seen c q).isSome then s.photos.write c q none
        else s.photos }.setPhase c ph) := by
  refine h.of_open rfl (fun q' => ?_) (fun _ => rfl) rfl hown hph le_rfl (fun _ _ hw => .inl hw)
    fun q' c' p' hp hq => ?_
  · show (if _ then _ else _ : Versions C PendingEnrollmentPhoto).committed.get? q' = _
    split
    · exact get?_write_committed _ _ _ _ q'
    · rfl
  · change (if _ then _ else _ : Versions C PendingEnrollmentPhoto).pending q' = _ at hp
    split at hp
    · next hseen =>
      obtain ⟨a, ha⟩ := Option.isSome_iff_exists.mp hseen
      rw [pending_write _ _ _ _ (s.photos.seen_bounded c q a ha)] at hp
      split at hp
      · next heq =>
        cases hp
        subst heq
        have hknown := hkeys.held c q' p (by rw [hd]; rfl)
        rw [hknown.row p' (.inl hq)]
        exact hkeys.queuing c d (q', p) hd
      · exact h.deleted q' c' p' hp hq
    · exact h.deleted q' c' p' hp hq

theorem of_attaches (h : ObjectsInv s) (d : GateDraft) (row : PendingEnrollmentPhoto)
    (hd : s.phase c = .saved d) :
    ObjectsInv ({ s with photos := s.photos.insert c row }.setPhase c (.closing d)) := by
  refine h.of_open rfl (fun q => get?_insert_committed _ _ _ q) (fun _ => rfl) rfl
    (by rw [hd]; rfl) rfl le_rfl (fun _ _ hw => .inl hw) fun q c' p hp hq => ?_
  rw [GateState.setPhase, pending_insert] at hp
  split at hp
  · cases hp
  · exact h.deleted q c' p hp hq

/-- A revocation that sees no photo of its enrolment deletes none. -/
theorem of_cascades (h : ObjectsInv s) (d : GateDraft) (f : PendingEnrollmentPhoto → Bool)
    (hd : s.phase c = .dropped d) (hnone : ∀ q p, s.photos.seen c q = some p → f p = false) :
    ObjectsInv ({ s with
      photos := s.photos.updateWhere c f fun _ => none }.setPhase c (.cleared d)) := by
  refine h.of_open rfl (fun _ => rfl) (fun _ => rfl) rfl (by rw [hd]; rfl) rfl le_rfl
    (fun _ _ hw => .inl hw) fun q c' p hp hq => ?_
  rcases s.photos.pending_updateWhere c f _ q _ hp with hold | ⟨a, ha, hfa, -⟩
  · exact h.deleted q c' p hold hq
  · rw [hnone q a ha] at hfa
    cases hfa

theorem of_rollback (h : ObjectsInv s) (hown : ownKey true ph = ownKey true (s.phase c))
    (hph : unlinkingKey ph = none) : ObjectsInv ((s.rollback c).setPhase c ph) := by
  refine h.of_open rfl (fun _ => rfl) (fun _ => rfl) rfl hown hph le_rfl
    (fun q w hw => .inl ((s.deletions.pending_rollback c q w).mp hw).1) fun q c' p hp hq => ?_
  obtain ⟨hold, hc⟩ := (s.photos.pending_rollback c q _).mp hp
  obtain ⟨q', r, hr, hkey⟩ := h.deleted q c' p hold hq
  exact ⟨q', r, (s.deletions.pending_rollback c q' _).mpr ⟨hr, hc⟩, hkey⟩

theorem of_raise (h : ObjectsInv s) (d : GateDraft) (result : GateResult)
    (hown : (if d.call.submits then some d.key else none) = ownKey true (s.phase c)) :
    ObjectsInv (s.raise c d result) := by
  unfold GateState.raise GateState.afterError
  split
  · next hsubmits =>
    rw [if_pos hsubmits] at hown
    exact h.of_rollback hown rfl
  · next hsubmits =>
    rw [if_neg hsubmits] at hown
    exact h.of_rollback hown rfl

/-- A submission stores its object under a key that it draws. -/
theorem of_stores (h : ObjectsInv s) (hkeys : KeysInv true s) (hidle : s.phase c = .idle)
    (d : GateDraft) (written : Text → Option (List UInt8)) (hfresh : s.written d.key = none)
    (hsubmits : d.call.submits = true) :
    ObjectsInv ({ s with
      written
      objects := Function.update s.objects d.key true }.setPhase c (.stored d)) := by
  have hne : ∀ key, (s.written key).isSome = true → key ≠ d.key := by
    rintro key hkey rfl
    rw [hfresh] at hkey
    cases hkey
  have hobject : ∀ key, (s.written key).isSome = true →
      Function.update s.objects d.key true key = s.objects key :=
    fun key hkey => Function.update_of_ne (hne key hkey) _ _
  have hother : ∀ c', c' ≠ c → Function.update s.phase c (.stored d) c' = s.phase c' :=
    fun c' hc => Function.update_of_ne hc _ _
  refine ⟨fun c' key hkey => ?_, fun q p hp => ?_, fun key hkey => ?_, h.deleted,
    fun c' pk hpk => ?_⟩
  · rw [GateState.phase_setPhase] at hkey
    by_cases hc : c' = c
    · rw [hc, Function.update_self, ownKey, if_pos hsubmits] at hkey
      cases hkey
      exact Function.update_self ..
    · rw [hother c' hc] at hkey
      exact (hobject key (hkeys.own c' key hkey).1).trans (h.kept c' key hkey)
  · exact (hobject _ (hkeys.drawnPhoto q p (.inl hp))).trans (h.live q p hp)
  · by_cases heq : key = d.key
    · refine .inr ⟨c, ?_⟩
      rw [GateState.phase_setPhase, Function.update_self, heq]
      exact if_pos hsubmits
    · have hold : s.objects key = true := (Function.update_of_ne heq _ _).symm.trans hkey
      rcases h.named key hold with hnamed | ⟨c', hc'⟩
      · exact .inl hnamed
      · refine .inr ⟨c', ?_⟩
        have hc : c' ≠ c := by
          rintro rfl
          rw [hidle] at hc'
          cases hc'
        rw [GateState.phase_setPhase, hother c' hc]
        exact hc'
  · rw [GateState.phase_setPhase] at hpk
    have hc : c' ≠ c := by
      rintro rfl
      rw [Function.update_self] at hpk
      cases hpk
    rw [hother c' hc] at hpk
    have hout := h.unlinked c' pk hpk
    exact ⟨hout.below, hout.kept, fun r hr =>
      (hobject _ (hkeys.drawnDeletion pk r (.inl hr))).trans (hout.gone r hr)⟩

/-- An object is deleted that belongs to no photo, and to no call but the one that deletes it. -/
theorem of_deletes (h : ObjectsInv s) (key : Text) (hlive : ∀ q p,
      s.photos.committed.get? q = some p → p.storageKey ≠ key)
    (hcall : ∀ c', ownKey true (s.phase c') = some key → c' = c) (hown : ownKey true ph = none)
    (hgone : ∀ key', ownKey true (s.phase c) = some key' → key' = key)
    (hph : ∀ pk, unlinkingKey ph = some pk → pk < s.deletions.committed.next ∧
      s.deletions.pending pk = none ∧ ∀ r, s.deletions.committed.get? pk = some r →
        r.storageKey = key) :
    ObjectsInv ({ s with objects := Function.update s.objects key false }.setPhase c ph) := by
  have hother : ∀ c', c' ≠ c → Function.update s.phase c ph c' = s.phase c' :=
    fun c' hc => Function.update_of_ne hc _ _
  have hobject : ∀ key', key' ≠ key → Function.update s.objects key false key' = s.objects key' :=
    fun key' hne => Function.update_of_ne hne _ _
  refine ⟨fun c' key' hkey => ?_, fun q p hp => ?_, fun key' hkey => ?_, h.deleted,
    fun c' pk hpk => ?_⟩
  · rw [GateState.phase_setPhase] at hkey
    by_cases hc : c' = c
    · subst hc
      rw [Function.update_self, hown] at hkey
      cases hkey
    · rw [hother c' hc] at hkey
      exact (hobject key' fun heq => hc (hcall c' (heq ▸ hkey))).trans (h.kept c' key' hkey)
  · exact (hobject _ (hlive q p hp)).trans (h.live q p hp)
  · have hne : key' ≠ key := by
      rintro rfl
      have hfalse : Function.update s.objects key' false key' = true := hkey
      rw [Function.update_self] at hfalse
      cases hfalse
    rcases h.named key' ((hobject key' hne).symm.trans hkey) with hnamed | ⟨c', hc'⟩
    · exact .inl hnamed
    · refine .inr ⟨c', ?_⟩
      have hc : c' ≠ c := by
        rintro rfl
        exact hne (hgone key' hc')
      rw [GateState.phase_setPhase, hother c' hc]
      exact hc'
  · rw [GateState.phase_setPhase] at hpk
    have hfalse : ∀ key', s.objects key' = false → Function.update s.objects key false key' = false := by
      intro key' hkey'
      by_cases heq : key' = key
      · rw [heq, Function.update_self]
      · exact (hobject key' heq).trans hkey'
    by_cases hc : c' = c
    · rw [hc, Function.update_self] at hpk
      obtain ⟨hbelow, hpending, hkey⟩ := hph pk hpk
      exact ⟨hbelow, hpending, fun r hr => by rw [hkey r hr]; exact Function.update_self ..⟩
    · rw [hother c' hc] at hpk
      have hout := h.unlinked c' pk hpk
      exact ⟨hout.below, hout.kept, fun r hr => hfalse _ (hout.gone r hr)⟩

/-- A deletion that has been carried out is taken from the queue. -/
theorem of_unlinks (h : ObjectsInv s) (d : GateDraft) (pk : ℕ) (rest : List ℕ) (final : Bool)
    (hd : s.phase c = .unlinking d pk rest final) :
    ObjectsInv ((s.unlink pk).setPhase c (.processing d rest final)) := by
  have hother : ∀ c', c' ≠ c →
      Function.update s.phase c (.processing d rest final) c' = s.phase c' :=
    fun c' hc => Function.update_of_ne hc _ _
  have howns : ∀ c', ownKey true (Function.update s.phase c (.processing d rest final) c') =
      ownKey true (s.phase c') := by
    intro c'
    by_cases hc : c' = c
    · rw [hc, Function.update_self, hd]
      rfl
    · rw [hother c' hc]
  refine ⟨fun c' key hkey => h.kept c' key ((howns c').symm.trans hkey), h.live,
    fun key hkey => ?_, h.deleted, fun c' k hk => ?_⟩
  · rcases h.named key hkey with (hphoto | ⟨q, r, hr, hk⟩) | ⟨c', hc'⟩
    · exact .inl (.inl hphoto)
    · have hq : q ≠ pk := by
        rintro rfl
        have hgone := (h.unlinked c q (by rw [hd]; rfl)).gone r hr
        rw [hk] at hgone
        exact Bool.false_ne_true (hgone.symm.trans hkey)
      refine .inl (.inr ⟨q, r, (Table.get?_remove _ _ q r).mpr ⟨hr, ?_⟩, hk⟩)
      exact decide_eq_false hq
    · exact .inr ⟨c', (howns c').trans hc'⟩
  · change unlinkingKey (Function.update s.phase c _ c') = some k at hk
    have hc : c' ≠ c := by
      rintro rfl
      rw [Function.update_self] at hk
      cases hk
    rw [hother c' hc] at hk
    have hout := h.unlinked c' k hk
    exact ⟨hout.below, hout.kept,
      fun r hr => hout.gone r ((Table.get?_remove _ _ k r).mp hr).1⟩

/-- **A call commits**: a photo that it deletes goes into the queue, and the object of a submission
to its photo. -/
theorem of_commit (h : ObjectsInv s) (hkeys : KeysInv true s) (d : GateDraft)
    (hd : s.phase c = .closing d) (hown : ownKey true ph = none) (hph : unlinkingKey ph = none) :
    ObjectsInv ((s.commitTables c).setPhase c ph) := by
  have hother : ∀ c', c' ≠ c → Function.update s.phase c ph c' = s.phase c' :=
    fun c' hc => Function.update_of_ne hc _ _
  refine ⟨fun c' key hkey => ?_, fun q p hp => ?_, fun key hkey => ?_, fun q c' p hp hq => ?_,
    fun c' pk hpk => ?_⟩
  · change ownKey true (Function.update s.phase c ph c') = some key at hkey
    have hc : c' ≠ c := by
      rintro rfl
      rw [Function.update_self, hown] at hkey
      cases hkey
    rw [hother c' hc] at hkey
    exact h.kept c' key hkey
  · rcases stored_commit c q p (.inl hp) with hold | ⟨c', hpending⟩
    · exact h.live q p hold
    · cases hq : s.photos.committed.get? q with
      | some p' =>
        have hsame := hkeys.locks q c' p p' hpending hq
        subst hsame
        exact h.live q p hq
      | none =>
        obtain ⟨d₀, hd₀, hsubmits, hkey⟩ := hkeys.inserted q c' p hpending hq
        refine h.kept c' _ ?_
        rw [hd₀, ← hkey]
        exact if_pos hsubmits
  · rcases h.named key hkey with (⟨q, p, hp, hk⟩ | ⟨q, r, hr, hk⟩) | ⟨c', hc'⟩
    · rcases s.photos.seen_cases c q with ⟨row, hrow, hseen⟩ | ⟨-, hseen⟩
      · cases row with
        | none =>
          obtain ⟨q', r, hr, hrkey⟩ := h.deleted q c p hrow hp
          exact .inl (.inr ⟨q', r, (hkeys.queue.get?_commit q' r).mpr (.inr hr), hrkey.trans hk⟩)
        | some p' =>
          have hsame := hkeys.locks q c p' p hrow hp
          subst hsame
          exact .inl (.inl ⟨q, p', (s.photos.get?_commit c q).trans hseen, hk⟩)
      · exact .inl (.inl ⟨q, p, (s.photos.get?_commit c q).trans (hseen.trans hp), hk⟩)
    · exact .inl (.inr ⟨q, r, (hkeys.queue.get?_commit q r).mpr (.inl hr), hk⟩)
    · by_cases hc : c' = c
      · subst hc
        rw [hd, ownKey] at hc'
        split at hc'
        · next hsubmits =>
          cases hc'
          obtain ⟨q, p, hp, hk⟩ := hkeys.inserting c' d hd hsubmits
          exact .inl (.inl ⟨q, p, (s.photos.get?_commit c' q).trans (s.photos.seen_own c' q _ hp),
            hk⟩)
        · cases hc'
      · refine .inr ⟨c', ?_⟩
        exact (congrArg (ownKey true) (hother c' hc)).trans hc'
  · obtain ⟨hold, hc⟩ := (s.photos.pending_commit c q _).mp hp
    have hsame : s.photos.committed.get? q = some p :=
      (s.photos.seen_other c q _ hold hc).symm.trans ((s.photos.get?_commit c q).symm.trans hq)
    obtain ⟨q', r, hr, hkey⟩ := h.deleted q c' p hold hsame
    exact ⟨q', r, (s.deletions.pending_commit c q' _).mpr ⟨hr, hc⟩, hkey⟩
  · change unlinkingKey (Function.update s.phase c ph c') = some pk at hpk
    have hc : c' ≠ c := by
      rintro rfl
      rw [Function.update_self, hph] at hpk
      cases hpk
    rw [hother c' hc] at hpk
    have hout := h.unlinked c' pk hpk
    refine ⟨hout.below, ?_, fun r hr => ?_⟩
    · cases hp : (s.deletions.commit c).pending pk with
      | none => exact hp
      | some w =>
        have hpending := ((s.deletions.pending_commit c pk w).mp hp).1
        rw [hout.kept] at hpending
        cases hpending
    · rcases (hkeys.queue.get?_commit pk r).mp hr with hold | hpending
      · exact hout.gone r hold
      · rw [hout.kept] at hpending
        cases hpending

/-- **Every step keeps track of the objects** that does not lose one. -/
theorem step {K : FaceConfig} {a : GateAction C} (h : ObjectsInv s) (hkeys : KeysInv true s)
    (heffect : GateEffect K s a t) (hspares : sparesPhotos K s a = true) : ObjectsInv t := by
  cases heffect with
  | ticks elapsed => exact ⟨h.kept, h.live, h.named, h.deleted, fun c pk hpk =>
      ⟨(h.unlinked c pk hpk).below, (h.unlinked c pk hpk).kept, (h.unlinked c pk hpk).gone⟩⟩
  | appoints manages => exact ⟨h.kept, h.live, h.named, h.deleted, fun c pk hpk =>
      ⟨(h.unlinked c pk hpk).below, (h.unlinked c pk hpk).kept, (h.unlinked c pk hpk).gone⟩⟩
  | refuses c call w result hidle =>
    exact h.of_frame rfl rfl rfl rfl (by rw [hidle]; rfl) rfl
  | stores c occupancy upload w version hidle haccepts hfresh hput =>
    exact h.of_stores hkeys hidle { newDraft (.submit occupancy upload) s.now with
      key := pendingPhotoKey w.uuid, version } _ hfresh rfl
  | loses c occupancy upload w kept hidle haccepts hfresh hput =>
    have hkept : kept = false := by
      simpa [sparesPhotos, haccepts, leavesObject, hput] using hspares
    subst hkept
    refine h.of_frame rfl rfl rfl ?_ (by rw [hidle]; rfl) rfl
    -- Nothing was there under a key that had not been drawn.
    have hnone : s.objects (pendingPhotoKey w.uuid) = false := by
      rw [← Bool.not_eq_true]
      intro hobject
      have hdrawn := h.drawn hkeys _ hobject
      rw [hfresh] at hdrawn
      cases hdrawn
    exact (congrArg _ hnone.symm).trans (Function.update_eq_self _ _)
  | revokes c occupancy w enrollment row hidle hrow =>
    exact h.of_frame rfl rfl rfl rfl (by rw [hidle]; rfl) rfl
  | views c user enrollment w q p hidle hrow henrollment =>
    exact h.of_frame rfl rfl rfl rfl (by rw [hidle]; rfl) rfl
  | approves c user enrollment w row hidle hrow hfree hstatus hembedding =>
    exact h.of_frame rfl rfl rfl rfl (by rw [hidle]; rfl) rfl
  | decides c call w enrollment row hidle hcall hrow =>
    refine h.of_frame rfl rfl rfl rfl ?_ rfl
    rw [hidle]
    exact if_neg (by rw [newDraft, submits_of_closesFace hcall]; exact Bool.false_ne_true)
  | purges c now w hidle horder => exact h.of_frame rfl rfl rfl rfl (by rw [hidle]; rfl) rfl
  | processes c w hidle horder => exact h.of_frame rfl rfl rfl rfl (by rw [hidle]; rfl) rfl
  | opens c w user enrollment key hd =>
    unfold GateState.openPhoto
    split <;> exact h.of_frame rfl rfl rfl rfl (by rw [hd]; rfl) rfl
  | enrolls c w d enrollment row hd hcall hseen => exact h.of_frame rfl rfl rfl rfl (by rw [hd]; rfl) rfl
  | inserts c w d occupancy hd hcall => exact h.of_frame rfl rfl rfl rfl (by rw [hd]; rfl) rfl
  | finds c w d hd hcall => exact h.of_frame rfl rfl rfl rfl (by rw [hd]; rfl) rfl
  | locks c w d q p hd hcall hseen henrollment hexpired hfree =>
    exact h.of_locks d _ q p hd rfl rfl hseen
  | closes c w d user note row hd hcall hfree hrow =>
    exact h.of_frame rfl rfl rfl rfl (by rw [hd]; rfl) rfl
  | passes c w d now hd hcall hnone => exact h.of_frame rfl rfl rfl rfl (by rw [hd]; rfl) rfl
  | saves c w d user enrollment row hd hcall hfree hrow =>
    exact h.of_frame rfl rfl rfl rfl (by rw [hd]; rfl) rfl
  | expires c w d now row hd hcall hfree hrow => exact h.of_frame rfl rfl rfl rfl (by rw [hd]; rfl) rfl
  | findsSaved c w d hd hcall => exact h.of_frame rfl rfl rfl rfl (by rw [hd]; rfl) rfl
  | skips c w d hd =>
    exact h.of_frame rfl rfl rfl rfl (by rw [hd]; exact KeysInv.ownKey_afterDrop d)
      (unlinkingKey_afterDrop d)
  | queues c w d q p hd => exact h.of_queues d q p _ hd
  | drops c w d q p hd hfree =>
    exact h.of_drops hkeys d q p hd (by rw [hd]; exact KeysInv.ownKey_afterDrop d)
      (unlinkingKey_afterDrop d)
  | submits c w d occupancy upload r row hd hcall hembed hrow hfree =>
    exact h.of_frame rfl rfl rfl rfl (by rw [hd]; rfl) rfl
  | attaches c w d occupancy upload hd hcall hawaits hnone => exact h.of_attaches d _ hd
  | cascades c w d hd hcall hfree =>
    refine h.of_cascades d _ hd fun q p hp => ?_
    have hnone : s.findPhoto c d.enrollment = none := by
      simpa [sparesPhotos, hd, hcall] using hspares
    exact (Table.first?_eq_none _ _).mp hnone q p (by rw [get?_view]; exact hp)
  | deletes c w d hd hcall hfree => exact h.of_frame rfl rfl rfl rfl (by rw [hd]; rfl) rfl
  | lists c w d now hd hcall hrest horder => exact h.of_frame rfl rfl rfl rfl (by rw [hd]; rfl) rfl
  | vanishes c w d now enrollment rest hd hcall hrest hnone =>
    exact h.of_frame rfl rfl rfl rfl (by rw [hd]; rfl) rfl
  | turns c w d now enrollment rest row hd hcall hrest hfree hrow =>
    refine h.of_frame rfl rfl rfl rfl ?_ rfl
    rw [hd]
    exact if_neg (by rw [hcall]; exact Bool.false_ne_true)
  | ends c w d final hd =>
    cases final with
    | true => exact h.of_frame rfl rfl rfl rfl (by rw [hd]; rfl) rfl
    | false =>
      exact h.of_frame rfl rfl rfl rfl
        (by rw [hd]; exact (KeysInv.quiet_afterCallbacks true d).1) (unlinkingKey_afterCallbacks d)
  | leaves c w d pk rest final hd hleft => exact h.of_frame rfl rfl rfl rfl (by rw [hd]; rfl) rfl
  | removes c w d pk rest final r hd hrow =>
    refine h.of_deletes r.storageKey (fun q p hp => hkeys.dead pk r hrow q p (.inl hp))
      (fun c' hc' => absurd rfl ((hkeys.own c' _ hc').2.2.1 pk r (.inl hrow))) rfl
      (fun key hkey => by rw [hd] at hkey; cases hkey) fun k hk => ?_
    cases hk
    refine ⟨s.deletions.committed.lt_next_of_get? pk r hrow, ?_, fun r' hr' => ?_⟩
    · cases hp : s.deletions.pending pk with
      | none => rfl
      | some w =>
        rw [hkeys.queue.fresh pk w hp] at hrow
        cases hrow
    · rw [hrow] at hr'
      cases hr'
      rfl
  | unlinks c w d pk rest final hd => exact h.of_unlinks d pk rest final hd
  | raises c w d result hd hpurge => exact h.of_raise d result (ownKey_transacts true _ d hd).symm
  | compensates c w d result hd =>
    have hdeletes : deletesPendingPhoto K d.version w = true := by
      simpa [sparesPhotos, hd] using hspares
    unfold GateState.compensate
    rw [if_pos hdeletes]
    have hown : ownKey true (s.phase c) = some d.key := by
      rw [hd]
      rfl
    obtain ⟨-, hunique, -, hcommitted⟩ := hkeys.own c d.key hown
    exact h.of_deletes d.key hcommitted hunique rfl
      (fun key hkey => Option.some.inj (hkey.symm.trans hown)) fun _ hpk => by cases hpk
  | commits c d hd hkept =>
    exact h.of_commit hkeys d hd (KeysInv.quiet_afterCommit true d).1 (unlinkingKey_afterCommit d)
  | breaks c d hd horphans =>
    exact h.of_raise d _ (ownKey_transacts true _ d (by rw [hd]; rfl)).symm
  | hides c d hd hkept =>
    have hsubmits : d.call.submits = false := by simpa [sparesPhotos, hd] using hspares
    refine h.of_commit hkeys d hd ?_ ?_ <;>
    · rw [GateState.afterError, hsubmits]
      rfl
  | fails c d hd =>
    refine h.of_raise d _ ?_
    rcases hd with hd | hd
    · exact (ownKey_transacts true _ d hd).symm
    · have hsubmits : d.call.submits = false := by simpa [sparesPhotos, hd] using hspares
      rw [ownKey_follows true _ d hd, hsubmits]
      rfl

end ObjectsInv

end LamTo.Analysis
