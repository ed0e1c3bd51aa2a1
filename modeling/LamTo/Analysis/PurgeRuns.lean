import LamTo.Library.GoneRows
import LamTo.Analysis.FaceTies

/-!
# A purge runs to its end

A purge reads the list of the enrolments with an expired photo and then takes them one by one. While
each is there at its turn and no database error strikes the purge, an expired photo is gone or its
enrolment is still to come (`PurgeInv.due`), and a deletion that was queued is carried out or still
to come (`DeletionDue`). So a purge that returns has left none of either.

SOURCE: src/lamto/gate/retention.py:19-34, photos.py:61-85
-/

set_option autoImplicit false

namespace LamTo.Analysis

open LamTo.Library LamTo.Library.Versions LamTo.Model

/-- The call is a purge that has met no error. -/
def PurgesWell (now : ℕ) : GatePhase → Prop
  | .purging d | .enrolled d | .reviewing d | .found d _ | .queued d _ | .closing d
  | .processing d _ _ | .unlinking d _ _ _ => d.call = .purge now
  | .finished call result => call = .purge now ∧ result = .done
  | .idle | .opening _ _ _ | .stored _ | .saved _ | .dropped _ | .cleared _ | .failing _ _ => False

/-- The photo that a purge has locked. -/
def lockedPhoto : GatePhase → Option ℕ
  | .reviewing d | .found d _ | .queued d _ | .closing d => d.photo.map Prod.fst
  | _ => none

/-- The enrolments that a purge has not done with. -/
def toDo : GatePhase → List ℕ
  | .purging d | .processing d _ false | .unlinking d _ _ false => d.rest
  | .enrolled d | .reviewing d | .found d _ | .queued d _ => d.enrollment :: d.rest
  | .closing d => if d.photo.isNone then d.rest else d.enrollment :: d.rest
  | _ => []

/-- The deletions that a purge has listed and not done with; none before it has listed them. -/
def listed : GatePhase → Option (List ℕ)
  | .processing _ deletions true => some deletions
  | .unlinking _ deletion deletions true => some (deletion :: deletions)
  | .finished _ _ => some []
  | _ => none

variable {C : Type} [DecidableEq C]

/-- The step is no error of the purge: no database error strikes it, and the enrolment whose turn it
is is there. -/
def sparesPurge (c : C) (s : GateState C) : GateAction C → Bool
  | .fail c' | .commitLost c' => c' ≠ c
  | .next c' _ =>
    c' ≠ c ||
      match s.phase c with
      | .purging d => d.rest.head?.all fun e => (s.enrollments.committed.get? e).isSome
      | _ => true
  | _ => true

/-- The storage refuses to delete the object of a deletion that the purge has listed. -/
def refusesDeletion (K : FaceConfig) (c : C) (pk : ℕ) (s : GateState C) : GateAction C → Bool
  | .next c' w =>
    c' = c &&
      match s.phase c with
      | .processing _ (pk' :: _) true => pk' = pk &&
          (s.deletions.committed.get? pk).any fun r => !deletesPendingPhoto K r.providerVersionId w
      | _ => false
  | _ => false

variable {K : FaceConfig} {s s₀ t : GateState C} {c : C}

/-! ## Rows that are gone stay gone -/

theorem GateEffect.gone_photos {a : GateAction C} (heffect : GateEffect K s a t) {q : ℕ}
    (h : Gone s.photos q) : Gone t.photos q := by
  cases heffect with
  | opens c w user enrollment key hd =>
    unfold GateState.openPhoto
    split <;> exact h
  | locks c w d q' p hd hcall hseen henrollment hexpired hfree => exact h.write c q' _ p hseen
  | drops c w d q' p hd hfree =>
    show Gone (if _ then _ else _) q
    split
    · next hseen =>
      obtain ⟨a, ha⟩ := Option.isSome_iff_exists.mp hseen
      exact h.write c q' none a ha
    · exact h
  | attaches => exact h.insert _ _
  | cascades => exact h.updateWhere _ _ _
  | compensates c w d result hd =>
    unfold GateState.compensate
    split <;> exact h
  | raises | breaks | fails => exact h.rollback _
  | commits | hides => exact h.commit _
  | ticks | appoints | refuses | stores | loses | revokes | views | approves | decides | purges
  | processes | enrolls | inserts | finds | closes | passes | saves | expires | findsSaved | skips
  | queues | submits | deletes | lists | vanishes | turns | ends | leaves | removes | unlinks =>
    exact h

theorem GateEffect.gone_deletions {a : GateAction C} (heffect : GateEffect K s a t) {pk : ℕ}
    (h : Gone s.deletions pk) : Gone t.deletions pk := by
  cases heffect with
  | opens c w user enrollment key hd =>
    unfold GateState.openPhoto
    split <;> exact h
  | queues => exact h.insert _ _
  | unlinks => exact h.removeNow _
  | compensates c w d result hd =>
    unfold GateState.compensate
    split <;> exact h
  | raises | breaks | fails => exact h.rollback _
  | commits | hides => exact h.commit _
  | ticks | appoints | refuses | stores | loses | revokes | views | approves | decides | purges
  | processes | enrolls | inserts | finds | closes | passes | saves | expires | findsSaved | skips
  | submits | deletes | lists | vanishes | turns | ends | leaves | removes | locks | drops
  | attaches | cascades =>
    exact h

/-- A photo stays as it is or is gone. -/
theorem GateEffect.photo_kept {a : GateAction C} (heffect : GateEffect K s a t)
    (hkeys : KeysInv false s) (q : ℕ) (p : PendingEnrollmentPhoto)
    (hq : s.photos.committed.get? q = some p) :
    t.photos.committed.get? q = some p ∨ Gone t.photos q := by
  rcases heffect.committed_cases with ⟨hsame, -⟩ | ⟨c, d, ph, -, -, -, rfl⟩
  · exact .inl ((hsame q).trans hq)
  · rcases s.photos.seen_cases c q with ⟨row, hrow, hseen⟩ | ⟨-, hseen⟩
    · cases row with
      | none => exact .inr (Gone.of_commit c hrow)
      | some p' =>
        rw [hkeys.locks q c p' p hrow hq] at hseen
        exact .inl ((s.photos.get?_commit c q).trans hseen)
    · exact .inl ((s.photos.get?_commit c q).trans (hseen.trans hq))

/-! ## The photos -/

/-- An expired photo is gone, or its enrolment is still to come. -/
def DuePhoto (s : GateState C) (ph : GatePhase) (q : ℕ) (p : PendingEnrollmentPhoto) : Prop :=
  Gone s.photos q ∨ s.photos.committed.get? q = some p ∧ p.enrollment ∈ toDo ph

theorem DuePhoto.step {a : GateAction C} {ph ph' : GatePhase} {q : ℕ} {p : PendingEnrollmentPhoto}
    (h : DuePhoto s ph q p) (hkeys : KeysInv false s) (heffect : GateEffect K s a t)
    (hdone : t.photos.committed.get? q = some p → p.enrollment ∈ toDo ph →
      p.enrollment ∈ toDo ph') : DuePhoto t ph' q p := by
  rcases h with hgone | ⟨hq, hdue⟩
  · exact .inl (heffect.gone_photos hgone)
  · rcases heffect.photo_kept hkeys q p hq with hkept | hgone
    · exact .inr ⟨hkept, hdone hkept hdue⟩
    · exact .inl hgone

/-- What holds while a purge runs. -/
structure PurgeInv (K : FaceConfig) (c : C) (now : ℕ) (s₀ s : GateState C) : Prop where
  faces : FacesInv K s
  well : PurgesWell now (s.phase c)
  photo : ∀ q row, s.photos.pending q = some ⟨c, row⟩ → lockedPhoto (s.phase c) = some q
  due : ∀ q p, s₀.photos.committed.get? q = some p → p.expiresAt ≤ now →
    DuePhoto s (s.phase c) q p

namespace PurgeInv

variable {now : ℕ}

theorem call_of_transacts {ph : GatePhase} {d : GateDraft} (hd : GatePhase.transacts ph = some d)
    (h : PurgesWell now ph) : d.call = .purge now := by
  cases ph <;> cases hd <;> first | exact h | exact absurd h id

theorem afterCommit_of_purge {d : GateDraft} (hcall : d.call = .purge now) :
    PurgesWell now (GateState.afterCommit d) ∧ lockedPhoto (GateState.afterCommit d) = none ∧
      toDo (GateState.afterCommit d) = d.rest := by
  unfold GateState.afterCommit
  split
  · exact ⟨hcall, rfl, rfl⟩
  · unfold GateState.afterCallbacks
    rw [hcall]
    exact ⟨rfl, rfl, rfl⟩

/-- The deletion of the photo that a purge has locked is not in the queue yet. -/
theorem not_raises {d : GateDraft} (h : PurgeInv K c now s₀ s)
    (hd : GatePhase.transacts (s.phase c) = some d)
    (hpurge : ∀ now, d.call = .purge now → ∃ photo, s.phase c = .found d (some photo) ∧
      (s.deletions.view c).any (fun r => r.storageKey = photo.2.storageKey) = true) : False := by
  have hcall : d.call = .purge now := call_of_transacts hd h.well
  obtain ⟨photo, hfound, hany⟩ := hpurge now hcall
  have htaken := h.faces.calls c
  rw [hfound] at htaken
  obtain ⟨-, hphoto, q, p, hsome, hpending, hcommitted, -⟩ := htaken.2.2.locks (by rw [hcall]; rfl)
  rw [hsome] at hphoto
  cases hphoto
  obtain ⟨k, r, hr, hkey⟩ := (Table.any_eq_true _ _).mp hany
  rw [get?_view] at hr
  have hkey : r.storageKey = p.storageKey := of_decide_eq_true hkey
  rcases (h.faces.keys.queue.seen_eq_some k r).mp hr with hold | hnew
  · exact absurd hkey.symm (h.faces.keys.dead k r hold q p (.inl hcommitted))
  · rcases h.faces.keys.dropping k c r hnew with ⟨d', photo', hqueued, -⟩ | hall
    · rw [hfound] at hqueued
      cases hqueued
    · rw [hall q p hcommitted hkey.symm] at hpending
      cases hpending

theorem not_breaks {d : GateDraft} (h : PurgeInv K c now s₀ s) (hd : s.phase c = .closing d)
    (horphans : s.orphans c d = true) : False := by
  have hwell := h.well
  have htaken := h.faces.calls c
  rw [hd] at hwell htaken
  have hrow := htaken.2.row (by rw [show d.call = .purge now from hwell]; rfl)
  rw [GateState.orphans, s.enrollments.seen_own c _ _ hrow.pending] at horphans
  cases horphans

/-- A step of the purge, by what it does to the list and to the photo it has locked. -/
theorem of_own {a : GateAction C} (h : PurgeInv K c now s₀ s) (heffect : GateEffect K s a t)
    (hwell : PurgesWell now (t.phase c))
    (hphoto : ∀ q row, t.photos.pending q = some ⟨c, row⟩ → lockedPhoto (t.phase c) = some q)
    (hdone : ∀ q p, t.photos.committed.get? q = some p → p.expiresAt ≤ now →
      p.enrollment ∈ toDo (s.phase c) → p.enrollment ∈ toDo (t.phase c)) :
    PurgeInv K c now s₀ t where
  faces := h.faces.step heffect
  well := hwell
  photo := hphoto
  due := fun q p hq hp =>
    (h.due q p hq hp).step h.faces.keys heffect fun ht hdue => hdone q p ht hp hdue

/-- A step that leaves the photos and the list. -/
theorem of_frame {a : GateAction C} {ph : GatePhase} (h : PurgeInv K c now s₀ s)
    (heffect : GateEffect K s a t) (hphase : t.phase c = ph) (hwell : PurgesWell now ph)
    (hphotos : t.photos = s.photos)
    (hlocked : ∀ q, lockedPhoto (s.phase c) = some q → lockedPhoto ph = some q)
    (htoDo : ∀ e ∈ toDo (s.phase c), e ∈ toDo ph) : PurgeInv K c now s₀ t := by
  refine h.of_own heffect (by rw [hphase]; exact hwell) (fun q row hq => ?_) fun q p _ _ hdue => ?_
  · rw [hphotos] at hq
    rw [hphase]
    exact hlocked q (h.photo q row hq)
  · rw [hphase]
    exact htoDo _ hdue

theorem own {a : GateAction C} (h : PurgeInv K c now s₀ s) (heffect : GateEffect K s a t)
    (hspares : sparesPurge c s a = true) (hcaller : GateAction.caller? a = some c) :
    PurgeInv K c now s₀ t := by
  have hself : ∀ phase, Function.update s.phase c phase c = phase :=
    fun phase => Function.update_self ..
  have hwell := h.well
  have htaken := h.faces.calls c
  have heffect' := heffect
  cases heffect with
  | ticks elapsed => cases hcaller
  | appoints manages => cases hcaller
  | refuses c call w result hd | stores c occupancy upload w version hd haccepts hfresh hput
  | loses c occupancy upload w kept hd haccepts hfresh hput
  | revokes c occupancy w enrollment row hd hrow
  | views c user enrollment w q p hd hrow henrollment
  | approves c user enrollment w row hd hrow hfree hstatus hembedding
  | decides c call w enrollment row hd hcall hrow | purges c now' w hd horder
  | processes c w hd horder | opens c w user enrollment key hd
  | enrolls c w d enrollment row hd hcall hseen | inserts c w d occupancy hd hcall
  | findsSaved c w d hd hcall | submits c w d occupancy upload r row hd hcall hembed hrow hfree
  | attaches c w d occupancy upload hd hcall hawaits hnone | cascades c w d hd hcall hfree
  | deletes c w d hd hcall hfree | compensates c w d result hd =>
    cases hcaller
    rw [hd] at hwell
    exact absurd hwell id
  | finds c w d hd hcall =>
    cases hcaller
    rw [hd] at hwell
    rw [show d.call = .purge now from hwell] at hcall
    rcases hcall with hcall | hcall <;> cases hcall
  | closes c w d user note row hd hcall hfree hrow =>
    cases hcaller
    rw [hd] at hwell
    rw [show d.call = .purge now from hwell] at hcall
    cases hcall
  | saves c w d user enrollment row hd hcall hfree hrow =>
    cases hcaller
    rw [hd] at hwell
    rw [show d.call = .purge now from hwell] at hcall
    cases hcall
  | locks c w d q p hd hcall hseen henrollment hexpired hfree =>
    cases hcaller
    rw [hd] at hwell
    refine h.of_own heffect' ((congrArg (PurgesWell now) (hself _)).mpr hwell) (fun q' row hq' => ?_)
      fun q' p' _ _ hdue => ?_
    · rw [GateState.phase_setPhase, hself]
      rcases pending_write_cases _ c q _ q' _ hq' with rfl | hold
      · rfl
      · have hwrites := (h.faces.owns c).photos q' row hold
        rw [hd] at hwrites
        cases hwrites
    · rw [hd] at hdue
      rw [GateState.phase_setPhase, hself]
      exact hdue
  | passes c w d now' hd hcall hnone =>
    cases hcaller
    rw [hd] at hwell htaken
    obtain ⟨hphoto, -⟩ := htaken.2.2 (by rw [hcall]; rfl)
    obtain rfl : now' = now := GateCall.purge.inj (hcall.symm.trans hwell)
    have hfree : ∀ q row, s.photos.pending q ≠ some ⟨c, row⟩ := fun q row hq => by
      have hwrites := (h.faces.owns c).photos q row hq
      rw [hd] at hwrites
      cases hwrites
    refine h.of_own heffect' ((congrArg (PurgesWell now') (hself _)).mpr hwell)
      (fun q row hq => absurd hq (hfree q row)) fun q p hq hp hdue => ?_
    rw [hd] at hdue
    rw [GateState.phase_setPhase, hself, toDo, hphoto]
    rcases List.mem_cons.mp hdue with hfirst | hrest
    · -- an expired photo of the enrolment would have been found
      have hseen : s.photos.seen c q = some p := by
        rcases s.photos.seen_cases c q with ⟨row, hrow, -⟩ | ⟨-, hsame⟩
        · exact absurd hrow (hfree q row)
        · exact hsame.trans hq
      exact absurd (hnone q p hseen hfirst) (Nat.not_lt.mpr hp)
    · exact hrest
  | expires c w d now' row hd hcall hfree hrow =>
    cases hcaller
    rw [hd] at hwell
    exact h.of_frame heffect' (hself _) hwell rfl (by rw [hd]; exact fun _ hq => hq)
      (by rw [hd]; exact fun _ he => he)
  | skips c w d hd =>
    cases hcaller
    rw [hd] at hwell htaken
    obtain ⟨-, hphoto, q, p, hsome, -⟩ :=
      htaken.2.2.locks (by rw [show d.call = .purge now from hwell]; rfl)
    rw [hsome] at hphoto
    cases hphoto
  | queues c w d q p hd =>
    cases hcaller
    rw [hd] at hwell
    exact h.of_frame heffect' (hself _) hwell rfl (by rw [hd]; exact fun _ hq => hq)
      (by rw [hd]; exact fun _ he => he)
  | drops c w d q p hd hfree =>
    cases hcaller
    rw [hd] at hwell htaken
    have hcall : d.call = .purge now := hwell
    obtain ⟨-, hphoto, -⟩ := htaken.2.2.locks (by rw [hcall]; rfl)
    have hdrop : GateState.afterDrop d = .closing d := by
      unfold GateState.afterDrop
      rw [hcall]
    have hlocked : ∀ q' row, s.photos.pending q' = some ⟨c, row⟩ → q = q' := fun q' row hq' => by
      have hold := h.photo q' row hq'
      rw [hd, lockedPhoto, ← hphoto] at hold
      exact Option.some.inj hold
    have hphase : ({ s with
        photos := if (s.photos.seen c q).isSome then s.photos.write c q none
          else s.photos }.setPhase c (GateState.afterDrop d)).phase c = .closing d :=
      (hself _).trans hdrop
    refine h.of_own heffect' ((congrArg (PurgesWell now) hphase).mpr hwell) (fun q' row hq' => ?_)
      fun q' p' _ _ hdue => ?_
    · rw [hphase, lockedPhoto, ← hphoto]
      change (if _ then _ else _ : Versions C PendingEnrollmentPhoto).pending q' = _ at hq'
      split at hq'
      · rcases pending_write_cases _ c q _ q' _ hq' with rfl | hold
        · rfl
        · exact congrArg some (hlocked q' row hold)
      · exact congrArg some (hlocked q' row hq')
    · rw [hd] at hdue
      rw [hphase, toDo, ← hphoto]
      exact hdue
  | lists c w d now' hd hcall hrest horder =>
    cases hcaller
    rw [hd] at hwell
    refine h.of_frame heffect' (hself _) hwell rfl (by rw [hd]; exact fun _ hq => hq) ?_
    rw [hd, toDo, hrest]
    exact fun _ he => by cases he
  | vanishes c w d now' enrollment rest hd hcall hrest hnone =>
    cases hcaller
    simp [sparesPurge, hd, hrest, hnone] at hspares
  | turns c w d now' enrollment rest row hd hcall hrest hfree hrow =>
    cases hcaller
    rw [hd] at hwell
    refine h.of_frame heffect' (hself _) hwell rfl (by rw [hd]; exact fun _ hq => by cases hq) ?_
    rw [hd, toDo, hrest]
    exact fun _ he => he
  | ends c w d final hd =>
    cases hcaller
    rw [hd] at hwell
    cases final with
    | true =>
      exact h.of_frame heffect' (hself _) ⟨hwell, rfl⟩ rfl (by rw [hd]; exact fun _ hq => hq)
        (by rw [hd]; exact fun _ he => he)
    | false =>
      have hafter : GateState.afterCallbacks d = .purging { d with photo := none, deletion := none } := by
        unfold GateState.afterCallbacks
        rw [show d.call = .purge now from hwell]
      refine h.of_frame heffect' ((hself _).trans hafter) hwell rfl (by rw [hd]; exact fun _ hq => hq)
        (by rw [hd]; exact fun _ he => he)
  | leaves c w d pk rest final hd hleft =>
    cases hcaller
    rw [hd] at hwell
    cases final <;>
      exact h.of_frame heffect' (hself _) hwell rfl (by rw [hd]; exact fun _ hq => hq)
        (by rw [hd]; exact fun _ he => he)
  | removes c w d pk rest final r hd hrow =>
    cases hcaller
    rw [hd] at hwell
    cases final <;>
      exact h.of_frame heffect' (hself _) hwell rfl (by rw [hd]; exact fun _ hq => hq)
        (by rw [hd]; exact fun _ he => he)
  | unlinks c w d pk rest final hd =>
    cases hcaller
    rw [hd] at hwell
    cases final <;>
      exact h.of_frame heffect' (hself _) hwell rfl (by rw [hd]; exact fun _ hq => hq)
        (by rw [hd]; exact fun _ he => he)
  | raises c w d result hd hpurge =>
    cases hcaller
    exact absurd (h.not_raises hd hpurge) id
  | commits c d hd hkept =>
    cases hcaller
    rw [hd] at hwell htaken
    have hcall : d.call = .purge now := hwell
    obtain ⟨hafter, hlocked, hrest⟩ := afterCommit_of_purge hcall
    have hphase : ((s.commitTables c).setPhase c (GateState.afterCommit d)).phase c =
        GateState.afterCommit d := hself _
    refine h.of_own heffect' (by rw [hphase]; exact hafter)
      (fun q row hq => absurd rfl ((s.photos.pending_commit c q _).mp hq).2) fun q p hq _ hdue => ?_
    rw [hphase, hrest]
    rw [hd, toDo] at hdue
    split at hdue
    · exact hdue
    · next hsome =>
      rcases List.mem_cons.mp hdue with hfirst | hlater
      · have hseen : s.photos.seen c q = some p := (s.photos.get?_commit c q).symm.trans hq
        rcases h.faces.own_of_commit c d hd hkept q p hseen hfirst with ⟨o, u, hsubmit, -⟩ | ⟨hold, -⟩
        · rw [hcall] at hsubmit
          cases hsubmit
        · obtain ⟨q₀, p₀, hpending, hcommitted, hp₀⟩ : ∃ q₀ p₀,
              s.photos.pending q₀ = some ⟨c, none⟩ ∧ s.photos.committed.get? q₀ = some p₀ ∧
                p₀.enrollment = d.enrollment := by
            rcases htaken.2.locks (by rw [hcall]; rfl) with ⟨q₀, p₀, -, hpending, hrest'⟩ | ⟨hnone, -⟩
            · exact ⟨q₀, p₀, hpending, hrest'.1, hrest'.2.1⟩
            · rw [hnone] at hsome
              exact absurd rfl hsome
          obtain rfl := h.faces.one.committed q q₀ p p₀ hold hcommitted (hfirst.trans hp₀.symm)
          rw [s.photos.seen_own c q _ hpending] at hseen
          cases hseen
      · exact hlater
  | breaks c d hd horphans =>
    cases hcaller
    exact absurd (h.not_breaks hd horphans) id
  | hides c d hd hkept =>
    cases hcaller
    simp [sparesPurge] at hspares
  | fails c d hd =>
    cases hcaller
    simp [sparesPurge] at hspares

/-- **Every step of a run that spares the purge keeps it.** -/
theorem step {a : GateAction C} (h : PurgeInv K c now s₀ s) (heffect : GateEffect K s a t)
    (hspares : sparesPurge c s a = true) : PurgeInv K c now s₀ t := by
  by_cases hc : GateAction.caller? a = some c
  · exact h.own heffect hspares hc
  · have hkeeps := heffect.keepsCall c fun c' hc' heq => hc (heq ▸ hc')
    refine ⟨h.faces.step heffect, by rw [hkeeps.phase]; exact h.well, fun q row hq => ?_,
      fun q p hq hp => ?_⟩
    · rw [hkeeps.phase]
      exact h.photo q row ((hkeeps.photos.pending q row).mp hq)
    · rw [hkeeps.phase]
      exact (h.due q p hq hp).step h.faces.keys heffect fun _ hdue => hdue

end PurgeInv

/-! ## What a purge touches -/

/-- `EXPIRED`, without the embedding. -/
def FaceEnrollment.expired (row : FaceEnrollment) : FaceEnrollment :=
  { row with status := .expired, embedding := none }

/-- A step takes away photos that have expired, each with the decision on its enrolment, and leaves
everything else. -/
structure PurgeTouches (K : FaceConfig) (now : ℕ) (s t : GateState C) : Prop where
  photos : ∀ q p, s.photos.committed.get? q = some p → t.photos.committed.get? q = some p ∨
    t.photos.committed.get? q = none ∧ p.expiresAt ≤ now ∧ ∃ row,
      s.enrollments.committed.get? p.enrollment = some row ∧ row.status = .pending ∧
        row.submittedAt + K.photoTtl = p.expiresAt ∧
        t.enrollments.committed.get? p.enrollment = some (FaceEnrollment.expired row)
  enrollments : ∀ e row, s.enrollments.committed.get? e = some row →
    t.enrollments.committed.get? e = some row ∨ row.submittedAt + K.photoTtl ≤ now ∧
      t.enrollments.committed.get? e = some (FaceEnrollment.expired row)
  noPhoto : ∀ q, s.photos.committed.get? q = none → t.photos.committed.get? q = none
  noEnrollment : ∀ e, s.enrollments.committed.get? e = none → t.enrollments.committed.get? e = none

omit [DecidableEq C] in
theorem purgeTouches_of_same {now : ℕ}
    (hphotos : ∀ q, t.photos.committed.get? q = s.photos.committed.get? q)
    (henrollments : ∀ e, t.enrollments.committed.get? e = s.enrollments.committed.get? e) :
    PurgeTouches K now s t where
  photos := fun q _ hq => .inl ((hphotos q).trans hq)
  enrollments := fun e _ he => .inl ((henrollments e).trans he)
  noPhoto := fun q hq => (hphotos q).trans hq
  noEnrollment := fun e he => (henrollments e).trans he

namespace PurgeInv

variable {now : ℕ}

/-- The turn of an enrolment without an expired photo changes nothing. -/
theorem touches_of_commit {d : GateDraft} {ph : GatePhase} (h : PurgeInv K c now s₀ s)
    (hd : s.phase c = .closing d) : PurgeTouches K now s ((s.commitTables c).setPhase c ph) := by
  have hwell := h.well
  have htaken := h.faces.calls c
  rw [hd] at hwell htaken
  have hcall : d.call = .purge now := hwell
  have hphoto : ∀ q row, s.photos.pending q = some ⟨c, row⟩ → d.photo.map Prod.fst = some q :=
    fun q row hq => by
      have hlocked := h.photo q row hq
      rw [hd] at hlocked
      exact hlocked
  have howns : ∀ e row, s.enrollments.pending e = some ⟨c, row⟩ → d.enrollment = e :=
    fun e row he => by
      have hwritten := (h.faces.owns c).enrollments e row he
      rw [hd] at hwritten
      exact Option.some.inj hwritten
  obtain ⟨hpending, horigin⟩ := htaken.2.row (by rw [hcall]; rfl)
  unfold RowOrigin at horigin
  rw [hcall] at horigin
  obtain ⟨row, hrow, hsaved⟩ := horigin
  have hseen : ∀ e, s.enrollments.seen c e =
      if d.enrollment = e then some d.row else s.enrollments.committed.get? e := by
    intro e
    rcases s.enrollments.seen_cases c e with ⟨row', hrow', hsame⟩ | ⟨hnot, hsame⟩
    · obtain rfl := howns e row' hrow'
      rw [if_pos rfl, s.enrollments.seen_own c _ _ hpending]
    · rw [hsame, if_neg]
      rintro rfl
      exact hnot _ hpending rfl
  have hcommit : ∀ e, ((s.commitTables c).setPhase c ph).enrollments.committed.get? e =
      if d.enrollment = e then some d.row else s.enrollments.committed.get? e :=
    fun e => (s.enrollments.get?_commit c e).trans (hseen e)
  rcases htaken.2.locks (by rw [hcall]; rfl) with ⟨q₀, p₀, hsome, hdeleted, hp₀, he₀, hexpired⟩ |
    ⟨hnone, -⟩
  · obtain ⟨row', hrow', htied⟩ := h.faces.tied q₀ p₀ hp₀
    rw [he₀, hrow] at hrow'
    cases hrow'
    have hexpire : d.row = FaceEnrollment.expired row := by
      rw [hsaved, hsome]
      exact if_pos htied.pending
    have hdue := hexpired now hcall
    refine ⟨fun q p hq => ?_, fun e row' he => ?_, fun q hq => ?_, fun e he => ?_⟩
    · rcases s.photos.seen_cases c q with ⟨row', hrow', -⟩ | ⟨-, hsame⟩
      · have hown := hphoto q row' hrow'
        rw [hsome] at hown
        cases hown
        rw [hp₀] at hq
        cases hq
        refine .inr ⟨(s.photos.get?_commit c q₀).trans (s.photos.seen_own c q₀ _ hdeleted), hdue, row,
          he₀ ▸ hrow, htied.pending, htied.submitted, ?_⟩
        rw [hcommit, if_pos he₀.symm, hexpire]
      · exact .inl ((s.photos.get?_commit c q).trans (hsame.trans hq))
    · rw [hcommit e]
      split
      · next heq =>
        subst heq
        rw [hrow] at he
        cases he
        exact .inr ⟨htied.submitted.trans_le hdue, congrArg some hexpire⟩
      · exact .inl he
    · rcases s.photos.seen_cases c q with ⟨row', hrow', -⟩ | ⟨-, hsame⟩
      · have hown := hphoto q row' hrow'
        rw [hsome] at hown
        cases hown
        rw [hp₀] at hq
        cases hq
      · exact (s.photos.get?_commit c q).trans (hsame.trans hq)
    · rw [hcommit e, if_neg, he]
      rintro rfl
      rw [hrow] at he
      cases he
  · -- nothing expired was found, and the row is saved as it was
    rw [hnone] at hsaved
    refine purgeTouches_of_same (fun q => (s.photos.get?_commit c q).trans ?_) fun e => ?_
    · rcases s.photos.seen_cases c q with ⟨row', hrow', -⟩ | ⟨-, hsame⟩
      · have hcontra := hphoto q row' hrow'
        rw [hnone] at hcontra
        cases hcontra
      · exact hsame
    · rw [hcommit e]
      split
      · next he =>
        rw [← he, hrow]
        exact congrArg some hsaved
      · rfl

/-- **A step of the purge takes away what has expired and nothing else.** -/
theorem touches {a : GateAction C} (h : PurgeInv K c now s₀ s) (heffect : GateEffect K s a t)
    (hcaller : GateAction.caller? a = some c) : PurgeTouches K now s t := by
  rcases heffect.committed_cases with ⟨hphotos, henrollments⟩ | ⟨c', d, ph, hc', hd, -, rfl⟩
  · exact purgeTouches_of_same hphotos henrollments
  · rw [hcaller] at hc'
    cases hc'
    exact h.touches_of_commit hd

end PurgeInv

/-! ## The queue -/

/-- A deletion is carried out, or it is in the queue and on the list of the purge, if there is one
yet. -/
def DeletionDue (s : GateState C) (ph : GatePhase) (pk : ℕ) : Prop :=
  Gone s.deletions pk ∨ (∃ r, s.deletions.committed.get? pk = some r) ∧
    ∀ pks, listed ph = some pks → pk ∈ pks

/-- A deletion stays in the queue, or is gone from it. -/
theorem GateEffect.deletion_kept {a : GateAction C} (heffect : GateEffect K s a t)
    (hqueue : InsertOnly s.deletions) (pk : ℕ) (r : PhotoDeletion)
    (hr : s.deletions.committed.get? pk = some r) :
    t.deletions.committed.get? pk = some r ∨ Gone t.deletions pk := by
  have hpending : s.deletions.pending pk = none := by
    cases hp : s.deletions.pending pk with
    | none => rfl
    | some w =>
      rw [hqueue.fresh pk w hp] at hr
      cases hr
  cases heffect with
  | opens c w user enrollment key hd =>
    unfold GateState.openPhoto
    split <;> exact .inl hr
  | unlinks c w d pk' rest final hd =>
    by_cases hpk : pk = pk'
    · refine .inr ⟨?_, hpending, Table.lt_next_of_get? s.deletions.committed _ _ hr⟩
      cases hgone : (s.deletions.removeNow fun k _ => k = pk').committed.get? pk with
      | none => exact hgone
      | some r' =>
        have hkept := ((Table.get?_remove _ _ _ _).mp hgone).2
        rw [hpk, decide_eq_true rfl] at hkept
        cases hkept
    · exact .inl ((Table.get?_remove _ _ _ _).mpr ⟨hr, decide_eq_false hpk⟩)
  | compensates c w d result hd =>
    unfold GateState.compensate
    split <;> exact .inl hr
  | commits | hides =>
    exact .inl ((s.deletions.get?_commit _ pk).trans ((s.deletions.seen_of_none _ pk hpending).trans hr))
  | ticks | appoints | refuses | stores | loses | revokes | views | approves | decides | purges
  | processes | enrolls | inserts | finds | closes | passes | saves | expires | findsSaved | skips
  | queues | submits | deletes | lists | vanishes | turns | ends | leaves | removes | locks | drops
  | attaches | cascades | raises | breaks | fails =>
    exact .inl hr

theorem listed_afterCallbacks (d : GateDraft) (now : ℕ) (hcall : d.call = .purge now) :
    listed (GateState.afterCallbacks d) = none := by
  unfold GateState.afterCallbacks
  rw [hcall]
  rfl

theorem listed_afterCommit (d : GateDraft) (now : ℕ) (hcall : d.call = .purge now) :
    listed (GateState.afterCommit d) = none := by
  unfold GateState.afterCommit
  split
  · rfl
  · exact listed_afterCallbacks d now hcall

theorem listed_afterDrop (d : GateDraft) : listed (GateState.afterDrop d) = none := by
  unfold GateState.afterDrop
  split <;> rfl

/-- The list of the purge keeps a deletion that stays in the queue. -/
theorem listed_step {now : ℕ} {a : GateAction C} {pk : ℕ} (hinv : PurgeInv K c now s₀ s)
    (heffect : GateEffect K s a t) (hspares : sparesPurge c s a = true)
    (hcaller : GateAction.caller? a = some c) (hrefuses : refusesDeletion K c pk s a = false)
    (r : PhotoDeletion) (hr : s.deletions.committed.get? pk = some r)
    (hkept : t.deletions.committed.get? pk = some r)
    (hlist : ∀ pks, listed (s.phase c) = some pks → pk ∈ pks) (pks : List ℕ)
    (hpks : listed (t.phase c) = some pks) : pk ∈ pks := by
  have hself : ∀ phase, Function.update s.phase c phase c = phase :=
    fun phase => Function.update_self ..
  have hwell := hinv.well
  cases heffect with
  | ticks elapsed => cases hcaller
  | appoints manages => cases hcaller
  | refuses c call w result hd | stores c occupancy upload w version hd haccepts hfresh hput
  | loses c occupancy upload w kept hd haccepts hfresh hput
  | revokes c occupancy w enrollment row hd hrow
  | views c user enrollment w q p hd hrow henrollment
  | approves c user enrollment w row hd hrow hfree hstatus hembedding
  | decides c call w enrollment row hd hcall hrow | purges c now' w hd horder
  | processes c w hd horder | opens c w user enrollment key hd
  | enrolls c w d enrollment row hd hcall hseen | inserts c w d occupancy hd hcall
  | findsSaved c w d hd hcall | submits c w d occupancy upload r row hd hcall hembed hrow hfree
  | attaches c w d occupancy upload hd hcall hawaits hnone | cascades c w d hd hcall hfree
  | deletes c w d hd hcall hfree | compensates c w d result hd =>
    cases hcaller
    rw [hd] at hwell
    exact absurd hwell id
  | finds | locks | closes | passes | saves | expires | queues | turns =>
    cases hcaller
    rw [GateState.phase_setPhase, hself] at hpks
    cases hpks
  | skips c w d hd | drops c w d q p hd hfree =>
    cases hcaller
    rw [GateState.phase_setPhase, hself, listed_afterDrop] at hpks
    cases hpks
  | lists c w d now' hd hcall hrest horder =>
    cases hcaller
    rw [GateState.phase_setPhase, hself] at hpks
    cases hpks
    exact horder.mem_iff.mpr (List.mem_map.mpr ⟨(pk, r), (Table.get?_eq_some _ _ _).mp hr, rfl⟩)
  | vanishes c w d now' enrollment rest hd hcall hrest hnone =>
    cases hcaller
    simp [sparesPurge, hd, hrest, hnone] at hspares
  | ends c w d final hd =>
    cases hcaller
    rw [hd] at hwell hlist
    rw [GateState.phase_setPhase, hself] at hpks
    cases final with
    | true => cases hlist [] rfl
    | false =>
      have hnone := listed_afterCallbacks d now hwell
      rw [if_neg Bool.false_ne_true, hnone] at hpks
      cases hpks
  | leaves c w d pk' rest final hd hleft =>
    cases hcaller
    rw [hd] at hlist
    rw [GateState.phase_setPhase, hself] at hpks
    cases final with
    | false => cases hpks
    | true =>
      cases hpks
      rcases List.mem_cons.mp (hlist _ rfl) with rfl | hrest
      · simp [refusesDeletion, hd, hr, hleft r hr] at hrefuses
      · exact hrest
  | removes c w d pk' rest final r' hd hrow =>
    cases hcaller
    rw [hd] at hlist
    rw [GateState.phase_setPhase, hself] at hpks
    cases final with
    | false => cases hpks
    | true =>
      cases hpks
      exact hlist _ rfl
  | unlinks c w d pk' rest final hd =>
    cases hcaller
    rw [hd] at hlist
    have hne : pk ≠ pk' := by
      have hstays := ((Table.get?_remove s.deletions.committed _ _ _).mp hkept).2
      exact of_decide_eq_false hstays
    rw [GateState.phase_setPhase] at hpks
    change listed (Function.update s.phase c _ c) = _ at hpks
    rw [hself] at hpks
    cases final with
    | false => cases hpks
    | true =>
      cases hpks
      exact (List.mem_cons.mp (hlist _ rfl)).resolve_left hne
  | raises c w d result hd hpurge =>
    cases hcaller
    exact absurd (hinv.not_raises hd hpurge) id
  | commits c d hd hkept' =>
    cases hcaller
    rw [hd] at hwell
    rw [GateState.phase_setPhase] at hpks
    change listed (Function.update s.phase c _ c) = _ at hpks
    rw [hself, listed_afterCommit d now hwell] at hpks
    cases hpks
  | breaks c d hd horphans =>
    cases hcaller
    exact absurd (hinv.not_breaks hd horphans) id
  | hides c d hd hkept' =>
    cases hcaller
    simp [sparesPurge] at hspares
  | fails c d hd =>
    cases hcaller
    simp [sparesPurge] at hspares

theorem DeletionDue.step {now : ℕ} {a : GateAction C} {pk : ℕ} (h : DeletionDue s (s.phase c) pk)
    (hinv : PurgeInv K c now s₀ s) (heffect : GateEffect K s a t)
    (hspares : sparesPurge c s a = true) (hrefuses : refusesDeletion K c pk s a = false) :
    DeletionDue t (t.phase c) pk := by
  rcases h with hgone | ⟨⟨r, hr⟩, hlist⟩
  · exact .inl (heffect.gone_deletions hgone)
  · rcases heffect.deletion_kept hinv.faces.keys.queue pk r hr with hkept | hgone
    · refine .inr ⟨⟨r, hkept⟩, ?_⟩
      by_cases hcaller : GateAction.caller? a = some c
      · exact listed_step hinv heffect hspares hcaller hrefuses r hr hkept hlist
      · rw [(heffect.keepsCall c fun c' hc' heq => hcaller (heq ▸ hc')).phase]
        exact hlist
    · exact .inl hgone

/-! ## The purge -/

section Purge

variable {now : ℕ}

/-- A purge that begins has every expired photo before it. -/
theorem purgeInv_of_begin (h : FacesInv K s₀) (w : GateAnswers)
    (hbegin : s₀.step K (.begin c (.purge now) w) = some s) : PurgeInv K c now s₀ s := by
  have heffect := GateEffect.of_step _ hbegin
  change s₀.begin K c (.purge now) w = some s at hbegin
  unfold GateState.begin at hbegin
  split at hbegin
  · next hidle =>
    dsimp only at hbegin
    split at hbegin
    · next horder =>
      cases hbegin
      have hself : ∀ phase, Function.update s₀.phase c phase c = phase :=
        fun phase => Function.update_self ..
      refine ⟨h.step heffect, (congrArg (PurgesWell now) (hself _)).mpr rfl, fun q row hq => ?_,
        fun q p hq hp => .inr ⟨hq, ?_⟩⟩
      · have hwrites := (h.owns c).photos q row hq
        rw [hidle] at hwrites
        cases hwrites
      · rw [GateState.phase_setPhase, hself]
        refine horder.mem_iff.mpr (List.mem_map.mpr ⟨(q, p), ?_, rfl⟩)
        exact (Table.mem_select _ _ _ _).mpr ⟨hq, decide_eq_true hp⟩
    · cases hbegin
  · cases hbegin

/-- What a run of the purge keeps. -/
theorem purgeInv_of_reaches (w : GateAnswers) {s₁ : GateState C} (hinv : FacesInv K s₀)
    (hbegin : s₀.step K (.begin c (.purge now) w) = some s₁) {ok : GateState C → GateAction C → Prop}
    (hok : ∀ u a, ok u a → sparesPurge c u a = true) (hrun : Reaches (GateState.step K) ok s₁ s) :
    PurgeInv K c now s₀ s :=
  hrun.preserves (PurgeInv K c now s₀)
    (fun u a _ hu hmet hstep => hu.step (GateEffect.of_step a hstep) (hok u a hmet))
    (purgeInv_of_begin hinv w hbegin)

/-- Whatever is reached from a start has its faces in order. -/
theorem facesInv_of_reaches {start : ℕ} {manages : ℕ → ℕ → Bool}
    (h : Reaches (GateState.step K) Always (GateState.empty start manages) s) : FacesInv K s :=
  h.preserves (FacesInv K) (fun _ a _ hu _ hstep => hu.step (GateEffect.of_step a hstep))
    (FacesInv.empty start manages)

/-- **A purge takes away what has expired and nothing else**: each photo that a step of it takes
away had expired, and its enrolment was pending and expires without its embedding. -/
theorem purge_touches (K : FaceConfig) (start now : ℕ) (manages : ℕ → ℕ → Bool)
    (s₀ s₁ s t : GateState C) (c : C) (w : GateAnswers) (a : GateAction C)
    (h : Reaches (GateState.step K) Always (GateState.empty start manages) s₀)
    (hbegin : s₀.step K (.begin c (.purge now) w) = some s₁)
    (hrun : Reaches (GateState.step K) (fun u a => sparesPurge c u a = true) s₁ s)
    (hcaller : GateAction.caller? a = some c) (hstep : s.step K a = some t) :
    PurgeTouches K now s t :=
  (purgeInv_of_reaches w (facesInv_of_reaches h) hbegin (fun _ _ hmet => hmet) hrun).touches
    (GateEffect.of_step a hstep) hcaller

/-- **A purge carries out what is queued**: a deletion that is in the queue before the purge has
listed it is gone when the purge returns, unless the storage refused it. -/
theorem purge_drains (K : FaceConfig) (start now : ℕ) (manages : ℕ → ℕ → Bool)
    (s₀ s₁ u s : GateState C) (c : C) (w : GateAnswers) (pk : ℕ) (r : PhotoDeletion)
    (call : GateCall) (result : GateResult)
    (h : Reaches (GateState.step K) Always (GateState.empty start manages) s₀)
    (hbegin : s₀.step K (.begin c (.purge now) w) = some s₁)
    (hreach : Reaches (GateState.step K) (fun v a => sparesPurge c v a = true) s₁ u)
    (hlisted : listed (u.phase c) = none) (hqueued : u.deletions.committed.get? pk = some r)
    (hrun : Reaches (GateState.step K)
      (fun v a => sparesPurge c v a = true ∧ refusesDeletion K c pk v a = false) u s)
    (hfinished : s.phase c = .finished call result) : s.deletions.committed.get? pk = none := by
  have hinv := purgeInv_of_reaches w (facesInv_of_reaches h) hbegin (fun _ _ hmet => hmet) hreach
  have hboth := hrun.preserves (fun v => PurgeInv K c now s₀ v ∧ DeletionDue v (v.phase c) pk)
    (fun _ a _ hv hmet hstep => by
      have heffect := GateEffect.of_step a hstep
      exact ⟨hv.1.step heffect hmet.1, hv.2.step hv.1 heffect hmet.1 hmet.2⟩)
    ⟨hinv, .inr ⟨⟨r, hqueued⟩, fun pks hpks => by rw [hlisted] at hpks; cases hpks⟩⟩
  rcases hboth.2 with hgone | ⟨-, hlist⟩
  · exact hgone.committed
  · rw [hfinished] at hlist
    cases hlist [] rfl

end Purge

/-! ## A photo that expires -/

/-- A photo is submitted, and its time passes. -/
def expiring : List (GateAction Bool) :=
  submitting false [1] "a" 5 ++ [.tick 100]

/-- The purge up to the first commit, and from there. -/
def droppingExpired : List (GateAction Bool) :=
  List.replicate 5 (.next true (taking "" [])) ++ [.commit true]

def drainingQueue : List (GateAction Bool) :=
  List.replicate 5 (.next true (taking "" []))

/-- The purge that spares itself, and whose storage deletes the object. -/
def sparingPurge : GateState Bool → GateAction Bool → Option (GateState Bool) :=
  guarded (GateState.step plainFaces) fun s a => sparesPurge true s a = true ∧
    refusesDeletion plainFaces true 1 s a = false

def hasReturned (s : GateState Bool) : Bool :=
  match s.phase true with
  | .finished _ _ => true
  | _ => false

theorem purged : ∃ s₀ s₁ u s : GateState Bool,
    Reaches (GateState.step plainFaces) Always (GateState.empty 0 fun _ _ => true) s₀ ∧
      s₀.step plainFaces (.begin true (.purge 100) (taking "" [1])) = some s₁ ∧
      Reaches (GateState.step plainFaces) (fun v a => sparesPurge true v a = true ∧
        refusesDeletion plainFaces true 1 v a = false) s₁ u ∧
      Reaches (GateState.step plainFaces) (fun v a => sparesPurge true v a = true ∧
        refusesDeletion plainFaces true 1 v a = false) u s ∧
      (s₀.photos.committed.get? 1).any (fun p => p.expiresAt ≤ 100) = true ∧
      listed (u.phase true) = none ∧ (u.deletions.committed.get? 1).isSome = true ∧
      hasReturned s = true := by
  obtain ⟨s₀, h₀, hexpired, h⟩ := exists_of_run (GateState.step plainFaces)
    (GateState.empty 0 (fun _ _ => true) : GateState Bool)
    (fun s₀ => (s₀.photos.committed.get? 1).any (fun p => p.expiresAt ≤ 100) = true ∧
      (s₀.step plainFaces (.begin true (.purge 100) (taking "" [1]))).any (fun s₁ =>
        (run sparingPurge s₁ droppingExpired).any fun u => listed (u.phase true) = none &&
          (u.deletions.committed.get? 1).isSome &&
            (run sparingPurge u drainingQueue).any hasReturned) = true)
    expiring (by decide +kernel)
  obtain ⟨s₁, hbegin, h⟩ := (Option.any_eq_true _ _).mp h
  obtain ⟨u, hu, h⟩ := (Option.any_eq_true _ _).mp h
  simp only [Bool.and_eq_true, decide_eq_true_eq] at h
  obtain ⟨⟨hlisted, hqueued⟩, h⟩ := h
  obtain ⟨s, hs, hreturned⟩ := (Option.any_eq_true _ _).mp h
  exact ⟨s₀, s₁, u, s, h₀, hbegin, (reaches_of_run _ hu).of_guarded,
    (reaches_of_run _ hs).of_guarded, hexpired, hlisted, hqueued, hreturned⟩

theorem hasReturned_eq_true {s : GateState Bool} (h : hasReturned s = true) :
    ∃ call result, s.phase true = .finished call result := by
  unfold hasReturned at h
  split at h
  · next call result hphase => exact ⟨call, result, hphase⟩
  · cases h

theorem purge_drains_expired : ∃ (u s : GateState Bool) (r : PhotoDeletion),
    u.deletions.committed.get? 1 = some r ∧ s.deletions.committed.get? 1 = none := by
  obtain ⟨s₀, s₁, u, s, h₀, hbegin, hu, hs, -, hlisted, hqueued, hreturned⟩ := purged
  obtain ⟨r, hr⟩ := Option.isSome_iff_exists.mp hqueued
  obtain ⟨call, result, hphase⟩ := hasReturned_eq_true hreturned
  exact ⟨u, s, r, hr, purge_drains plainFaces 0 100 _ s₀ s₁ u s true _ 1 r call result h₀ hbegin
    (hu.weaken fun _ _ hmet => hmet.1) hlisted hr hs hphase⟩

/-- The commit that takes the photo away. -/
theorem purge_touches_expired : ∃ s t : GateState Bool, PurgeTouches plainFaces 100 s t ∧
    (s.photos.committed.get? 1).isSome = true ∧ t.photos.committed.get? 1 = none := by
  obtain ⟨s₀, h₀, h⟩ := exists_of_run (GateState.step plainFaces)
    (GateState.empty 0 (fun _ _ => true) : GateState Bool)
    (fun s₀ => (s₀.step plainFaces (.begin true (.purge 100) (taking "" [1]))).any (fun s₁ =>
      (run sparingPurge s₁ (List.replicate 5 (.next true (taking "" [])))).any fun s =>
        (s.photos.committed.get? 1).isSome && (s.step plainFaces (.commit true)).any fun t =>
          (t.photos.committed.get? 1).isNone) = true)
    expiring (by decide +kernel)
  obtain ⟨s₁, hbegin, h⟩ := (Option.any_eq_true _ _).mp h
  obtain ⟨s, hs, h⟩ := (Option.any_eq_true _ _).mp h
  rw [Bool.and_eq_true] at h
  obtain ⟨t, ht, hgone⟩ := (Option.any_eq_true _ _).mp h.2
  refine ⟨s, t, ?_, h.1, Option.isNone_iff_eq_none.mp hgone⟩
  exact purge_touches plainFaces 0 100 _ s₀ s₁ s t true _ _ h₀ hbegin
    ((reaches_of_run _ hs).of_guarded.weaken fun _ _ hmet => hmet.1) rfl ht

end LamTo.Analysis
