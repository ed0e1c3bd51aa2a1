import LamTo.Analysis.FundConservation
import LamTo.Model.Announcements

/-!
# The feed shows the current text of an announcement

Calls that publish, edit and withdraw announcements run beside each other and beside the workers.
A call holds the lock of the one announcement it works on until it commits, and writes in-app
rows of that announcement only. So what it read under the lock is still committed when it
commits, and no row is added to the feed of the announcement behind its back.

The steps:

* the key of the in-app rows tells announcements apart, and from the notices of others;
* `BulletinInv` says what is committed, and what each open call has read and written;
* every step keeps it, one lemma for each;
* a step changes a committed announcement only by the commit of a call whose expected revision
  was the stored one, and a withdrawn announcement never.

SOURCE: src/lamto/notifications/announcements.py, services.py:145-158, services.py:226-250
-/

set_option autoImplicit false

namespace LamTo.Analysis

open LamTo.Library LamTo.Model

/-! ## The keys of the feed -/

theorem inAppEventKey_injective (m n : ℕ) (h : inAppEventKey m = inAppEventKey n) : m = n := by
  unfold inAppEventKey at h
  exact decimal_injective m n (List.append_cancel_left h)

theorem eventCodeFromKey_inAppEventKey (id : ℕ) :
    eventCodeFromKey (inAppEventKey id) = eventAnnouncement := by
  unfold eventCodeFromKey inAppEventKey
  rw [List.append_assoc, List.takeWhile_append_of_pos (List.all_eq_true.mp (by decide +kernel))]
  show eventAnnouncement ++ [] = eventAnnouncement
  exact List.append_nil _

/-- An in-app row of an announcement. -/
def InFeedOf (id : ℕ) (d : NotificationDelivery) : Prop :=
  d.channel = .inApp ∧ d.eventKey = inAppEventKey id

theorem InFeedOf.unique {m n : ℕ} {d : NotificationDelivery} (hm : InFeedOf m d)
    (hn : InFeedOf n d) : m = n := inAppEventKey_injective m n (hm.2.symm.trans hn.2)

/-- The row is what a resident should see of the announcement. -/
structure Shows (a : Announcement) (d : NotificationDelivery) : Prop where
  published : a.state = .published
  building : d.building = a.building
  available : d.status = .available
  subject : d.subject = a.title
  body : d.body = a.body

/-! ## What a call may change -/

/-- The request is for a new announcement. -/
def AnnouncementRequest.fresh : AnnouncementRequest → Bool
  | .publish .. => true
  | _ => false

/-- The announcement a request is about, if it is not for a new one. -/
def AnnouncementRequest.target? : AnnouncementRequest → Option ℕ
  | .publish .. => none
  | .edit _ id _ _ _ | .withdraw _ id _ => some id

/-- What an edit or a withdrawal makes of an announcement, and the condition under which it
does. -/
def Revises (request : AnnouncementRequest) (a b : Announcement) : Prop :=
  a.state = .published ∧
    match request with
    | .publish .. => False
    | .edit actor _ expectedRevision title body =>
      expectedRevision = some (a.revision : ℤ) ∧ ∃ now, b = { a with
        title := title, body := body, revision := a.revision + 1, updatedBy := actor,
        updatedAt := now }
    | .withdraw actor _ expectedRevision =>
      expectedRevision = some (a.revision : ℤ) ∧ ∃ now, b = { a with
        revision := a.revision + 1, state := .withdrawn, withdrawnAt := some now,
        updatedBy := actor, updatedAt := now }

theorem Revises.building_eq {request : AnnouncementRequest} {a b : Announcement}
    (h : Revises request a b) : b.building = a.building := by
  cases request with
  | publish => exact h.2.elim
  | edit => obtain ⟨-, -, now, rfl⟩ := h; rfl
  | withdraw => obtain ⟨-, -, now, rfl⟩ := h; rfl

theorem Revises.not_fresh {request : AnnouncementRequest} {a b : Announcement}
    (h : Revises request a b) : AnnouncementRequest.fresh request = false := by
  cases request with
  | publish => exact h.2.elim
  | edit => rfl
  | withdraw => rfl

theorem Revises.state_eq {request : AnnouncementRequest} {a b : Announcement}
    (h : Revises request a b) (hkeeps : request.withdraws = false) : b.state = .published := by
  cases request with
  | publish => exact h.2.elim
  | edit => obtain ⟨hpublished, -, now, rfl⟩ := h; exact hpublished
  | withdraw => cases hkeeps

variable {C : Type}

/-- The row a call on a locked announcement saves is a revision of it. -/
theorem revises_of_revised (s : Bulletin C) (d : AnnouncementDraft) (row : Announcement)
    (h : s.revised d = some row) : Revises d.request d.row row := by
  unfold Bulletin.revised at h
  cases hrequest : d.request with
  | publish =>
    rw [hrequest] at h
    cases h
  | edit actor id expectedRevision title body =>
    rw [hrequest] at h
    dsimp only at h
    unfold Bulletin.edited at h
    split at h
    · cases h
    split at h
    · cases h
    next hcheck =>
    simp only [ne_eq, Bool.or_eq_true, decide_eq_true_eq, not_or, not_not] at hcheck
    dsimp only at h
    split at h
    · cases h
      exact ⟨hcheck.1, hcheck.2, s.now, rfl⟩
    · cases h
  | withdraw actor id expectedRevision =>
    rw [hrequest] at h
    dsimp only at h
    unfold Bulletin.withdrawn at h
    split at h
    · cases h
    split at h
    · cases h
    next hcheck =>
    simp only [ne_eq, Bool.or_eq_true, decide_eq_true_eq, not_or, not_not] at hcheck
    split at h
    · cases h
    · cases h
      exact ⟨hcheck.1, hcheck.2, s.now, rfl⟩

/-! ## The invariant -/

def draft? : AnnouncementPhase → Option AnnouncementDraft
  | .idle => none
  | .locked d | .saved d | .cleared d | .queueing d _ | .settled d => some d

/-- What a call that has saved its row found committed. -/
def SavedOver (t : Table Announcement) (d : AnnouncementDraft) : Prop :=
  match d.request with
  | .publish .. => t.get? d.id = none ∧ d.row.state = .published
  | _ => AnnouncementRequest.target? d.request = some d.id ∧
    ∃ a, t.get? d.id = some a ∧ Revises d.request a d.row

/-- What is committed under the lock of a call. -/
def Based (t : Table Announcement) : AnnouncementPhase → Prop
  | .idle => True
  | .locked d => t.get? d.id = some d.row ∧ AnnouncementRequest.target? d.request = some d.id
  | .saved d => SavedOver t d
  | .cleared d => SavedOver t d ∧ d.request.withdraws = true
  | .queueing d _ => SavedOver t d
  | .settled d => SavedOver t d ∧ d.request.withdraws = false

theorem savedOver_of_revises (t : Table Announcement) (d : AnnouncementDraft) (a : Announcement)
    (htarget : AnnouncementRequest.target? d.request = some d.id) (ha : t.get? d.id = some a)
    (h : Revises d.request a d.row) : SavedOver t d := by
  unfold SavedOver
  split
  · next hrequest =>
    rw [hrequest] at h
    exact h.2.elim
  · exact ⟨htarget, a, ha, h⟩

theorem savedOver_congr (t u : Table Announcement) (d : AnnouncementDraft)
    (h : u.get? d.id = t.get? d.id) (hsaved : SavedOver t d) : SavedOver u d := by
  unfold SavedOver at hsaved ⊢
  rw [h]
  exact hsaved

theorem based_congr (t u : Table Announcement) (phase : AnnouncementPhase)
    (h : ∀ d, draft? phase = some d → u.get? d.id = t.get? d.id) (hbased : Based t phase) :
    Based u phase := by
  cases phase with
  | idle => trivial
  | locked d => exact ⟨(h d rfl).trans hbased.1, hbased.2⟩
  | saved d => exact savedOver_congr t u d (h d rfl) hbased
  | cleared d => exact ⟨savedOver_congr t u d (h d rfl) hbased.1, hbased.2⟩
  | queueing d rest => exact savedOver_congr t u d (h d rfl) hbased
  | settled d => exact ⟨savedOver_congr t u d (h d rfl) hbased.1, hbased.2⟩

/-- What a call that has saved its row sees of an in-app row of its announcement. -/
def Shown : AnnouncementPhase → NotificationDelivery → Prop
  | .idle, _ | .locked _, _ => True
  | .saved d, e => AnnouncementRequest.fresh d.request = true → e.subject = d.row.title ∧ e.body = d.row.body
  | .queueing d _, e =>
    d.request.withdraws = false ∧ (AnnouncementRequest.fresh d.request = true → e.subject = d.row.title ∧ e.body = d.row.body)
  | .cleared _, _ => False
  | .settled d, e => e.status = .available ∧ e.subject = d.row.title ∧ e.body = d.row.body

variable [DecidableEq C]

/-- What an open call has read and written. -/
structure CallInv (s : Bulletin C) (c : C) : Prop where
  /-- It has written one announcement, which it has in its variable. -/
  holder : ∀ id p, s.announcements.pending id = some p → p.owner = c →
    ∃ d, draft? (s.phase c) = some d ∧ d.id = id ∧ p.row = some d.row
  holds : ∀ d, draft? (s.phase c) = some d →
    s.announcements.pending d.id = some ⟨c, some d.row⟩
  based : Based s.announcements.committed (s.phase c)
  /-- It writes rows of the feed of its own announcement only. -/
  own : ∀ pk p, s.deliveries.pending pk = some p → p.owner = c →
    ∃ d, draft? (s.phase c) = some d ∧
      (∀ e id, p.row = some e → InFeedOf id e → id = d.id ∧ e.building = d.row.building) ∧
      ∀ e id, s.deliveries.committed.get? pk = some e → InFeedOf id e → id = d.id
  shown : ∀ d pk e, draft? (s.phase c) = some d → s.deliveries.seen c pk = some e →
    InFeedOf d.id e → Shown (s.phase c) e

/-- What is committed, and what the open calls have read and written. -/
structure BulletinInv (s : Bulletin C) : Prop where
  /-- The feed of every announcement shows it. -/
  feed : ∀ id pk d, s.deliveries.committed.get? pk = some d → InFeedOf id d →
    ∃ a, s.announcements.committed.get? id = some a ∧ Shows a d
  calls : ∀ c, CallInv s c

/-- A call that does nothing has written nothing. -/
theorem CallInv.idle {s : Bulletin C} {c : C} (hphase : s.phase c = .idle)
    (hannouncements : ∀ id p, s.announcements.pending id = some p → p.owner ≠ c)
    (hdeliveries : ∀ pk p, s.deliveries.pending pk = some p → p.owner ≠ c) : CallInv s c where
  holder := fun id p hp howner => absurd howner (hannouncements id p hp)
  holds := by
    intro d hd
    rw [hphase] at hd
    cases hd
  based := by
    rw [hphase]
    trivial
  own := fun pk p hp howner => absurd howner (hdeliveries pk p hp)
  shown := by
    intro d pk e hd
    rw [hphase] at hd
    cases hd

/-- A call whose only announcement is the one in its variable. -/
theorem CallInv.held {s : Bulletin C} {c : C} (d : AnnouncementDraft)
    (hd : draft? (s.phase c) = some d)
    (hholds : s.announcements.pending d.id = some ⟨c, some d.row⟩)
    (honly : ∀ id p, s.announcements.pending id = some p → p.owner = c → id = d.id)
    (hbased : Based s.announcements.committed (s.phase c))
    (hown : ∀ pk p, s.deliveries.pending pk = some p → p.owner = c →
      (∀ e id, p.row = some e → InFeedOf id e → id = d.id ∧ e.building = d.row.building) ∧
        ∀ e id, s.deliveries.committed.get? pk = some e → InFeedOf id e → id = d.id)
    (hshown : ∀ pk e, s.deliveries.seen c pk = some e → InFeedOf d.id e → Shown (s.phase c) e) :
    CallInv s c where
  holder := by
    intro id p hp howner
    have hid := honly id p hp howner
    rw [hid, hholds] at hp
    cases hp
    exact ⟨d, hd, hid.symm, rfl⟩
  holds := by
    intro e he
    rw [hd] at he
    cases he
    exact hholds
  based := hbased
  own := fun pk p hp howner => ⟨d, hd, hown pk p hp howner⟩
  shown := by
    intro e pk r he hr hin
    rw [hd] at he
    cases he
    exact hshown pk r hr hin

/-- **What a call has read stays so** as long as others leave its rows, and the rows of the feed
of its announcement, as they are. -/
theorem CallInv.frame {s t : Bulletin C} {c : C} (h : CallInv s c) (hphase : t.phase c = s.phase c)
    (hannouncements : ∀ id p, p.owner = c →
      (t.announcements.pending id = some p ↔ s.announcements.pending id = some p))
    (hcommitted : ∀ d, draft? (s.phase c) = some d →
      t.announcements.committed.get? d.id = s.announcements.committed.get? d.id)
    (hdeliveries : ∀ pk p, p.owner = c →
      (t.deliveries.pending pk = some p ↔ s.deliveries.pending pk = some p))
    (hwritten : ∀ pk p, s.deliveries.pending pk = some p → p.owner = c →
      t.deliveries.committed.get? pk = s.deliveries.committed.get? pk)
    (hfeed : ∀ d pk e, draft? (s.phase c) = some d → InFeedOf d.id e →
      t.deliveries.committed.get? pk = some e →
      ∃ e', s.deliveries.committed.get? pk = some e' ∧ InFeedOf d.id e' ∧
        (Shown (s.phase c) e' → Shown (s.phase c) e)) : CallInv t c where
  holder := by
    intro id p hp howner
    rw [hphase]
    exact h.holder id p ((hannouncements id p howner).mp hp) howner
  holds := by
    intro d hd
    rw [hphase] at hd
    exact (hannouncements _ _ rfl).mpr (h.holds d hd)
  based := by
    rw [hphase]
    exact based_congr _ _ _ hcommitted h.based
  own := by
    intro pk p hp howner
    have hp' := (hdeliveries pk p howner).mp hp
    rw [hphase, hwritten pk p hp' howner]
    exact h.own pk p hp' howner
  shown := by
    intro d pk e hd he hin
    rw [hphase] at hd ⊢
    rcases t.deliveries.seen_cases c pk with ⟨row, hrow, hseen⟩ | ⟨hnone, hseen⟩
    · have hown := s.deliveries.seen_own c pk row ((hdeliveries _ _ rfl).mp hrow)
      exact h.shown d pk e hd (hown.trans (hseen.symm.trans he)) hin
    · obtain ⟨e', he', hin', hshown⟩ := hfeed d pk e hd hin (hseen.symm.trans he)
      rcases s.deliveries.seen_cases c pk with ⟨row, hrow, -⟩ | ⟨-, hseen'⟩
      · exact absurd rfl (hnone _ ((hdeliveries _ _ rfl).mpr hrow))
      · exact hshown (h.shown d pk e' hd (hseen'.trans he') hin')

namespace BulletinInv

variable {s : Bulletin C}

theorem empty : BulletinInv (Bulletin.empty : Bulletin C) where
  feed := by
    intro id pk d h
    cases h
  calls := fun c => .idle rfl (fun id p h => (nomatch h)) fun pk p h => (nomatch h)

/-- Two open calls work on two announcements. -/
theorem drafts_distinct (h : BulletinInv s) (c c' : C) (d d' : AnnouncementDraft)
    (hc : draft? (s.phase c) = some d) (hc' : draft? (s.phase c') = some d')
    (hid : d.id = d'.id) : c = c' := by
  have hp := (h.calls c).holds d hc
  rw [hid, (h.calls c').holds d' hc'] at hp
  exact congrArg Pending.owner (Option.some.inj hp).symm

/-- A step of one call that commits nothing. -/
theorem of_call {t : Bulletin C} (h : BulletinInv s) (c : C)
    (hphase : ∀ c', c' ≠ c → t.phase c' = s.phase c')
    (hcommitted : ∀ id, t.announcements.committed.get? id = s.announcements.committed.get? id)
    (hannouncements : ∀ id p, p.owner ≠ c →
      (t.announcements.pending id = some p ↔ s.announcements.pending id = some p))
    (hrows : ∀ pk, t.deliveries.committed.get? pk = s.deliveries.committed.get? pk)
    (hdeliveries : ∀ pk p, p.owner ≠ c →
      (t.deliveries.pending pk = some p ↔ s.deliveries.pending pk = some p))
    (hc : CallInv t c) : BulletinInv t where
  feed := by
    intro id pk d hd hin
    rw [hcommitted]
    exact h.feed id pk d ((hrows pk).symm.trans hd) hin
  calls := by
    intro c'
    by_cases hne : c' = c
    · rw [hne]
      exact hc
    · refine (h.calls c').frame (hphase c' hne)
        (fun id p howner => hannouncements id p (by rw [howner]; exact hne))
        (fun d _ => hcommitted d.id)
        (fun pk p howner => hdeliveries pk p (by rw [howner]; exact hne))
        (fun pk p _ _ => hrows pk) ?_
      intro d pk e _ hin he
      exact ⟨e, (hrows pk).symm.trans he, hin, id⟩

/-- An idle call has written nothing. -/
theorem idle_writes (h : BulletinInv s) (c : C) (hphase : s.phase c = .idle) :
    (∀ id p, s.announcements.pending id = some p → p.owner ≠ c) ∧
      ∀ pk p, s.deliveries.pending pk = some p → p.owner ≠ c := by
  constructor
  · intro id p hp howner
    obtain ⟨d, hd, -⟩ := (h.calls c).holder id p hp howner
    rw [hphase] at hd
    cases hd
  · intro pk p hp howner
    obtain ⟨d, hd, -⟩ := (h.calls c).own pk p hp howner
    rw [hphase] at hd
    cases hd

/-- What a call holds over a committed row is of the building of that row. -/
theorem building_committed (h : BulletinInv s) (c : C) (d : AnnouncementDraft)
    (hd : draft? (s.phase c) = some d) (a : Announcement)
    (ha : s.announcements.committed.get? d.id = some a) : d.row.building = a.building := by
  have hsaved : ∀ e : AnnouncementDraft, s.announcements.committed.get? e.id = some a →
      SavedOver s.announcements.committed e → e.row.building = a.building := by
    intro e ha he
    unfold SavedOver at he
    split at he
    · rw [ha] at he
      cases he.1
    · obtain ⟨-, b, hb, hrevises⟩ := he
      rw [ha] at hb
      cases hb
      exact hrevises.building_eq
  have hbased := (h.calls c).based
  generalize s.phase c = phase at hd hbased
  cases phase with
  | idle => cases hd
  | locked e =>
    cases hd
    exact congrArg Announcement.building (Option.some.inj (hbased.1.symm.trans ha))
  | saved e => cases hd; exact hsaved _ ha hbased
  | cleared e => cases hd; exact hsaved _ ha hbased.1
  | queueing e rest => cases hd; exact hsaved _ ha hbased
  | settled e => cases hd; exact hsaved _ ha hbased.1

/-- The rows a call sees in the feed of its announcement are of its building. -/
theorem building_seen (h : BulletinInv s) (c : C) (d : AnnouncementDraft)
    (hd : draft? (s.phase c) = some d) (pk : ℕ) (e : NotificationDelivery)
    (he : s.deliveries.seen c pk = some e) (hin : InFeedOf d.id e) :
    e.building = d.row.building := by
  rcases s.deliveries.seen_cases c pk with ⟨row, hrow, hseen⟩ | ⟨-, hseen⟩
  · obtain ⟨d', hd', hown, -⟩ := (h.calls c).own pk _ hrow rfl
    rw [hd] at hd'
    cases hd'
    exact (hown e d.id (hseen.symm.trans he) hin).2
  · obtain ⟨a, ha, hshows⟩ := h.feed d.id pk e (hseen.symm.trans he) hin
    rw [h.building_committed c d hd a ha]
    exact hshows.building

/-! ## The steps -/

theorem of_fail (h : BulletinInv s) (c : C) : BulletinInv (s.fail c) := by
  refine h.of_call c (fun c' hne => Function.update_of_ne hne _ _) (fun _ => rfl) ?_
    (fun _ => rfl) ?_ ?_
  · intro id p howner
    exact (Versions.pending_rollback _ _ _ _).trans (and_iff_left howner)
  · intro pk p howner
    exact (Versions.pending_rollback _ _ _ _).trans (and_iff_left howner)
  · refine .idle (Function.update_self _ _ _) ?_ ?_
    · intro id p hp
      exact ((Versions.pending_rollback _ _ _ _).mp hp).2
    · intro pk p hp
      exact ((Versions.pending_rollback _ _ _ _).mp hp).2

theorem of_publish (h : BulletinInv s) (c : C) (hphase : s.phase c = .idle) (row : Announcement)
    (request : AnnouncementRequest) (hfresh : AnnouncementRequest.fresh request = true)
    (hrow : row.state = .published) :
    BulletinInv ({ s with announcements := s.announcements.insert c row }.setPhase c
      (.saved ⟨request, s.announcements.committed.next, row⟩)) := by
  obtain ⟨hnoann, hnodel⟩ := h.idle_writes c hphase
  refine h.of_call c (fun c' hne => Function.update_of_ne hne _ _) (fun _ => rfl) ?_
    (fun _ => rfl) (fun _ _ _ => Iff.rfl) ?_
  · intro id p howner
    exact s.announcements.pending_insert_other c row id p howner
  · refine .held ⟨request, s.announcements.committed.next, row⟩
      (congrArg draft? (Bulletin.phase_setPhase_self _ _ _)) ?_ ?_ ?_
      (fun pk p hp howner => absurd howner (hnodel pk p hp)) ?_
    · exact (Versions.pending_insert _ _ _ _).trans (if_pos rfl)
    · intro id p hp howner
      by_cases hid : id = s.announcements.committed.next
      · exact hid
      · have hp' := (Versions.pending_insert _ _ _ _).symm.trans hp
        rw [if_neg hid] at hp'
        exact absurd howner (hnoann id p hp')
    · rw [Bulletin.phase_setPhase_self]
      cases request with
      | publish => exact ⟨s.announcements.committed.get?_next, hrow⟩
      | edit => cases hfresh
      | withdraw => cases hfresh
    · intro pk e he hin
      rcases s.deliveries.seen_cases c pk with ⟨r, hr, -⟩ | ⟨-, hseen⟩
      · exact absurd rfl (hnodel pk _ hr)
      · obtain ⟨a, ha, -⟩ := h.feed _ pk e (hseen.symm.trans he) hin
        rw [Table.get?_next] at ha
        cases ha

theorem of_lock (h : BulletinInv s) (c : C) (hphase : s.phase c = .idle) (id : ℕ)
    (row : Announcement) (request : AnnouncementRequest)
    (hfree : s.announcements.locked c id = false)
    (hrow : s.announcements.committed.get? id = some row)
    (htarget : AnnouncementRequest.target? request = some id) :
    BulletinInv ({ s with announcements := s.announcements.write c id (some row) }.setPhase c
      (.locked ⟨request, id, row⟩)) := by
  obtain ⟨hnoann, hnodel⟩ := h.idle_writes c hphase
  have hbounds : 0 < id ∧ id < s.announcements.committed.next :=
    ⟨Table.pos_of_get? _ _ _ hrow, Table.lt_next_of_get? _ _ _ hrow⟩
  refine h.of_call c (fun c' hne => Function.update_of_ne hne _ _) ?_ ?_
    (fun _ => rfl) (fun _ _ _ => Iff.rfl) ?_
  · intro q
    exact Versions.get?_write_committed _ _ _ _ q
  · intro q p howner
    exact s.announcements.pending_write_other c id _ hfree q p howner
  · refine .held ⟨request, id, row⟩ (congrArg draft? (Bulletin.phase_setPhase_self _ _ _)) ?_ ?_ ?_
      (fun pk p hp howner => absurd howner (hnodel pk p hp)) ?_
    · exact (Versions.pending_write _ _ _ _ hbounds _).trans (if_pos rfl)
    · intro q p hp howner
      by_cases hq : q = id
      · exact hq
      · have hp' := (Versions.pending_write _ _ _ _ hbounds _).symm.trans hp
        rw [if_neg hq] at hp'
        exact absurd howner (hnoann q p hp')
    · rw [Bulletin.phase_setPhase_self]
      exact ⟨(Versions.get?_write_committed _ _ _ _ _).trans hrow, htarget⟩
    · intro pk e _ _
      rw [Bulletin.phase_setPhase_self]
      trivial

theorem of_save (h : BulletinInv s) (c : C) (d : AnnouncementDraft) (hphase : s.phase c = .locked d)
    (row : Announcement) (hrevised : s.revised d = some row) :
    BulletinInv ({ s with announcements := s.announcements.write c d.id (some row) }.setPhase c
      (.saved { d with row := row })) := by
  have hrevises := revises_of_revised s d row hrevised
  have hd : draft? (s.phase c) = some d := by rw [hphase]; rfl
  obtain ⟨hrow, htarget⟩ : s.announcements.committed.get? d.id = some d.row ∧
      AnnouncementRequest.target? d.request = some d.id := by
    have hbased := (h.calls c).based
    rw [hphase] at hbased
    exact hbased
  have hbounds : 0 < d.id ∧ d.id < s.announcements.committed.next :=
    ⟨Table.pos_of_get? _ _ _ hrow, Table.lt_next_of_get? _ _ _ hrow⟩
  have hfree : s.announcements.locked c d.id = false := by
    rw [Versions.locked_eq_false, (h.calls c).holds d hd]
    intro p hp
    cases hp
    rfl
  have hcommitted : ∀ id, (s.announcements.write c d.id (some row)).committed.get? id =
      s.announcements.committed.get? id := fun id => Versions.get?_write_committed _ _ _ _ id
  refine h.of_call c (fun c' hne => Function.update_of_ne hne _ _) hcommitted ?_ (fun _ => rfl)
    (fun _ _ _ => Iff.rfl) ?_
  · intro q p howner
    exact s.announcements.pending_write_other c d.id _ hfree q p howner
  · refine .held { d with row := row } (congrArg draft? (Bulletin.phase_setPhase_self _ _ _))
      ?_ ?_ ?_ ?_ ?_
    · exact (Versions.pending_write _ _ _ _ hbounds _).trans (if_pos rfl)
    · intro q p hp howner
      by_cases hq : q = d.id
      · exact hq
      · have hp' := (Versions.pending_write _ _ _ _ hbounds _).symm.trans hp
        rw [if_neg hq] at hp'
        obtain ⟨e, he, heq, -⟩ := (h.calls c).holder q p hp' howner
        rw [hd] at he
        cases he
        exact heq.symm
    · rw [Bulletin.phase_setPhase_self]
      exact savedOver_of_revises _ { d with row := row } d.row htarget
        ((hcommitted d.id).trans hrow) hrevises
    · intro pk p hp howner
      obtain ⟨e, he, hown, hover⟩ := (h.calls c).own pk p hp howner
      rw [hd] at he
      cases he
      refine ⟨fun e id he hin => ?_, hover⟩
      obtain ⟨hid, hbuilding⟩ := hown e id he hin
      exact ⟨hid, hbuilding.trans hrevises.building_eq.symm⟩
    · intro pk e _ _
      rw [Bulletin.phase_setPhase_self]
      intro hfresh
      exact absurd (hfresh.symm.trans hrevises.not_fresh) (by decide)

/-- A call goes on with the same variable. -/
theorem of_phase (h : BulletinInv s) (c : C) (phase : AnnouncementPhase)
    (hdraft : draft? phase = draft? (s.phase c))
    (hbased : Based s.announcements.committed (s.phase c) → Based s.announcements.committed phase)
    (hshown : ∀ e, Shown (s.phase c) e → Shown phase e) : BulletinInv (s.setPhase c phase) := by
  refine h.of_call c (fun c' hne => Function.update_of_ne hne _ _) (fun _ => rfl)
    (fun _ _ _ => Iff.rfl) (fun _ => rfl) (fun _ _ _ => Iff.rfl) ?_
  constructor
  · rw [Bulletin.phase_setPhase_self, hdraft]
    exact (h.calls c).holder
  · rw [Bulletin.phase_setPhase_self, hdraft]
    exact (h.calls c).holds
  · rw [Bulletin.phase_setPhase_self]
    exact hbased (h.calls c).based
  · rw [Bulletin.phase_setPhase_self, hdraft]
    exact (h.calls c).own
  · rw [Bulletin.phase_setPhase_self, hdraft]
    intro d pk e hd he hin
    exact hshown e ((h.calls c).shown d pk e hd he hin)

/-- A call inserts a row that is none of an in-app feed, or one that shows its announcement. -/
theorem of_insert (h : BulletinInv s) (c : C) (d : AnnouncementDraft)
    (hd : draft? (s.phase c) = some d) (row : NotificationDelivery)
    (hrow : ∀ id, InFeedOf id row →
      id = d.id ∧ row.building = d.row.building ∧ Shown (s.phase c) row) :
    BulletinInv { s with deliveries := s.deliveries.insert c row } := by
  refine h.of_call c (fun _ _ => rfl) (fun _ => rfl) (fun _ _ _ => Iff.rfl) (fun _ => rfl) ?_ ?_
  · intro pk p howner
    exact s.deliveries.pending_insert_other c row pk p howner
  · refine ⟨(h.calls c).holder, (h.calls c).holds, (h.calls c).based, ?_, ?_⟩
    · intro pk p hp howner
      change (s.deliveries.insert c row).pending pk = some p at hp
      rw [Versions.pending_insert] at hp
      split at hp
      · next hpk =>
        cases hp
        refine ⟨d, hd, ?_, ?_⟩
        · intro e id he hin
          cases he
          exact ⟨(hrow id hin).1, (hrow id hin).2.1⟩
        · intro e id he
          rw [hpk] at he
          have hnone := s.deliveries.committed.get?_next
          exact absurd (he.symm.trans hnone) (by simp)
      · exact (h.calls c).own pk p hp howner
    · intro e pk r he hr hin
      rw [hd] at he
      cases he
      have hseen := (Versions.seen_insert s.deliveries c row c pk).symm.trans hr
      split at hseen
      · cases hseen
        exact (hrow _ hin).2.2
      · exact (h.calls c).shown d pk r hd hseen hin

theorem of_queueChannel {t : Bulletin C} (h : BulletinInv s) (c : C) (d : AnnouncementDraft)
    (hd : draft? (s.phase c) = some d) (recipient : ℕ) (notice : Notice) (channel : Channel)
    (hrow : ∀ id, InFeedOf id (Bulletin.delivery recipient notice channel) → id = d.id ∧
      notice.building = d.row.building ∧
        Shown (s.phase c) (Bulletin.delivery recipient notice channel))
    (hstep : s.queueChannel c recipient notice channel = some t) :
    BulletinInv t ∧ t.phase = s.phase := by
  unfold Bulletin.queueChannel at hstep
  split at hstep
  · obtain ⟨deliveries, hget, rfl⟩ := Option.map_eq_some_iff.mp hstep
    rcases Versions.getOrInsert_eq_some _ _ _ _ _ hget with rfl | ⟨rfl, -⟩
    · exact ⟨h, rfl⟩
    · exact ⟨h.of_insert c d hd _ hrow, rfl⟩
  · cases hstep
    exact ⟨h, rfl⟩

theorem of_queue {t : Bulletin C} (h : BulletinInv s) (c : C) (hstep : s.queue c = some t) :
    BulletinInv t := by
  unfold Bulletin.queue at hstep
  split at hstep
  · next d recipient rest hphase =>
    have hd : draft? (s.phase c) = some d := by rw [hphase]; rfl
    have hpush : ∀ id key, ¬ InFeedOf id
        (Bulletin.delivery recipient (Bulletin.noticeOf d key) .push) := fun id key hin =>
      nomatch hin.1
    -- The loop goes on once the rows of the resident are there.
    have hnext : ∀ u : Bulletin C, BulletinInv u → u.phase = s.phase →
        BulletinInv (u.setPhase c (.queueing d rest)) := by
      intro u hu hsame
      have hphase' : u.phase c = .queueing d (recipient :: rest) := by rw [hsame, hphase]
      refine hu.of_phase c _ (by rw [hphase']; rfl) ?_ ?_
      · rw [hphase']
        exact id
      · rw [hphase']
        exact fun _ => id
    split at hstep
    · obtain ⟨u, hu, rfl⟩ := Option.map_eq_some_iff.mp hstep
      obtain ⟨hinv, hsame⟩ := h.of_queueChannel c d hd _ _ _
        (fun id hin => absurd hin (hpush id _)) hu
      exact hnext u hinv hsame
    · next hkeeps =>
      obtain ⟨u, hu, hrest⟩ := Option.bind_eq_some_iff.mp hstep
      obtain ⟨w, hw, rfl⟩ := Option.map_eq_some_iff.mp hrest
      obtain ⟨hinv, hsame⟩ := h.of_queueChannel c d hd recipient
        (Bulletin.noticeOf d (inAppEventKey d.id)) .inApp (by
          intro id hin
          refine ⟨(inAppEventKey_injective d.id id hin.2).symm, rfl, ?_⟩
          rw [hphase]
          exact ⟨by simpa using hkeeps, fun _ => ⟨rfl, rfl⟩⟩) hu
      obtain ⟨hinv', hsame'⟩ := hinv.of_queueChannel c d (by rw [hsame]; exact hd) _ _ _
        (fun id hin => absurd hin (hpush id _)) hw
      exact hnext w hinv' (hsame'.trans hsame)
  · cases hstep

/-- The statement over the feed reaches every row a call sees there. -/
theorem inFeed_of_seen (h : BulletinInv s) (c : C) (d : AnnouncementDraft)
    (hd : draft? (s.phase c) = some d) (pk : ℕ) (e : NotificationDelivery)
    (he : s.deliveries.seen c pk = some e) (hin : InFeedOf d.id e) :
    Bulletin.inFeed d e = true := by
  have hbuilding := h.building_seen c d hd pk e he hin
  simp [Bulletin.inFeed, hbuilding, hin.1, hin.2]

theorem of_bulk (h : BulletinInv s) (c : C) (d : AnnouncementDraft)
    (hd : draft? (s.phase c) = some d) (phase : AnnouncementPhase) (hphase : draft? phase = some d)
    (hfree : s.deliveries.lockedWhere c (Bulletin.inFeed d) = false)
    (hbased : Based s.announcements.committed phase)
    (hshown : ∀ e r, Shown (s.phase c) e → Bulletin.settle d.request d.row e = some r →
      Shown phase r) :
    BulletinInv ({ s with
      deliveries := s.deliveries.updateWhere c (Bulletin.inFeed d)
        (Bulletin.settle d.request d.row) }.setPhase c phase) := by
  -- The statement rewrites a row in place.
  have hsettle : ∀ a e, Bulletin.settle d.request d.row a = some e →
      e.eventKey = a.eventKey ∧ e.channel = a.channel ∧ e.building = a.building := by
    intro a e he
    unfold Bulletin.settle at he
    split at he
    · cases he; exact ⟨rfl, rfl, rfl⟩
    · cases he; exact ⟨rfl, rfl, rfl⟩
    · cases he
  have hinFeed : ∀ a, Bulletin.inFeed d a = true →
      a.building = d.row.building ∧ InFeedOf d.id a := by
    intro a ha
    simp only [Bulletin.inFeed, Bool.and_eq_true, decide_eq_true_eq] at ha
    exact ⟨ha.1.1, ha.2, ha.1.2⟩
  refine h.of_call c (fun c' hne => Function.update_of_ne hne _ _) (fun _ => rfl)
    (fun _ _ _ => Iff.rfl) (fun _ => rfl) ?_ ?_
  · intro pk p howner
    exact s.deliveries.pending_updateWhere_other c _ _ hfree pk p howner
  · refine .held d (by rw [Bulletin.phase_setPhase_self, hphase])
      ((h.calls c).holds d hd) ?_ (by rw [Bulletin.phase_setPhase_self]; exact hbased) ?_ ?_
    · intro id p hp howner
      obtain ⟨e, he, heq, -⟩ := (h.calls c).holder id p hp howner
      rw [hd] at he
      cases he
      exact heq.symm
    · intro pk p hp howner
      rcases Versions.pending_updateWhere _ _ _ _ _ _ hp with hold | ⟨a, ha, hfeed, rfl⟩
      · obtain ⟨e, he, hown⟩ := (h.calls c).own pk p hold howner
        rw [hd] at he
        cases he
        exact hown
      · obtain ⟨hbuilding, hin⟩ := hinFeed a hfeed
        constructor
        · intro e id he hid
          obtain ⟨hkey, -, hsame⟩ := hsettle a e he
          refine ⟨?_, hsame.trans hbuilding⟩
          exact inAppEventKey_injective id d.id (hid.2.symm.trans (hkey.trans hin.2))
        · intro e id he hid
          rcases s.deliveries.seen_cases c pk with ⟨row, hrow, -⟩ | ⟨-, hseen⟩
          · obtain ⟨d', hd', -, hover⟩ := (h.calls c).own pk _ hrow rfl
            rw [hd] at hd'
            cases hd'
            exact hover e id he hid
          · cases ha.symm.trans (hseen.trans he)
            exact hid.unique hin
    · intro pk e he hin
      rw [Bulletin.phase_setPhase_self]
      have hseen := (Versions.seen_updateWhere _ _ _ _ _).symm.trans he
      obtain ⟨a, ha, hrow⟩ := Option.bind_eq_some_iff.mp hseen
      split at hrow
      · next hfeed =>
        exact hshown a e ((h.calls c).shown d pk a hd ha (hinFeed a hfeed).2) hrow
      · next hfeed =>
        cases hrow
        exact absurd (h.inFeed_of_seen c d hd pk e ha hin) hfeed

/-- **A commit** makes what the call sees of its announcement what everyone sees. -/
theorem of_commit (h : BulletinInv s) (c : C) (d : AnnouncementDraft)
    (hd : draft? (s.phase c) = some d)
    (hshows : ∀ pk e, s.deliveries.seen c pk = some e → InFeedOf d.id e → Shows d.row e) :
    BulletinInv ({ s with
      announcements := s.announcements.commit c
      deliveries := s.deliveries.commit c }.setPhase c .idle) where
  feed := by
    intro id pk e he hin
    have hseen : s.deliveries.seen c pk = some e :=
      (Versions.get?_commit _ _ _).symm.trans he
    show ∃ a, (s.announcements.commit c).committed.get? id = some a ∧ Shows a e
    rw [Versions.get?_commit]
    by_cases hid : id = d.id
    · subst hid
      exact ⟨d.row, s.announcements.seen_own c d.id _ ((h.calls c).holds d hd),
        hshows pk e hseen hin⟩
    · have hcommitted : s.deliveries.committed.get? pk = some e := by
        rcases s.deliveries.seen_cases c pk with ⟨row, hrow, hown⟩ | ⟨-, hother⟩
        · obtain ⟨d', hd', hfeed, -⟩ := (h.calls c).own pk _ hrow rfl
          rw [hd] at hd'
          cases hd'
          exact absurd (hfeed e id (hown.symm.trans hseen) hin).1 hid
        · exact hother.symm.trans hseen
      obtain ⟨a, ha, hshown⟩ := h.feed id pk e hcommitted hin
      refine ⟨a, ?_, hshown⟩
      rcases s.announcements.seen_cases c id with ⟨row, hrow, -⟩ | ⟨-, hother⟩
      · obtain ⟨d', hd', hid', -⟩ := (h.calls c).holder id _ hrow rfl
        rw [hd] at hd'
        cases hd'
        exact absurd hid'.symm hid
      · rw [hother]
        exact ha
  calls := by
    intro c'
    by_cases hne : c' = c
    · subst hne
      refine .idle (Bulletin.phase_setPhase_self _ _ _) ?_ ?_
      · intro id p hp
        exact ((Versions.pending_commit _ _ _ _).mp hp).2
      · intro pk p hp
        exact ((Versions.pending_commit _ _ _ _).mp hp).2
    · refine (h.calls c').frame (Function.update_of_ne hne _ _) ?_ ?_ ?_ ?_ ?_
      · intro id p howner
        exact (Versions.pending_commit _ _ _ _).trans (and_iff_left (by rw [howner]; exact hne))
      · intro d' hd'
        refine (Versions.get?_commit _ _ _).trans ?_
        exact s.announcements.seen_other c d'.id _ ((h.calls c').holds d' hd') hne
      · intro pk p howner
        exact (Versions.pending_commit _ _ _ _).trans (and_iff_left (by rw [howner]; exact hne))
      · intro pk p hp howner
        refine (Versions.get?_commit _ _ _).trans ?_
        exact s.deliveries.seen_other c pk p hp (by rw [howner]; exact hne)
      · intro d' pk e hd' hin he
        have hseen : s.deliveries.seen c pk = some e :=
          (Versions.get?_commit _ _ _).symm.trans he
        rcases s.deliveries.seen_cases c pk with ⟨row, hrow, hown⟩ | ⟨-, hother⟩
        · obtain ⟨e', he', hfeed, -⟩ := (h.calls c).own pk _ hrow rfl
          rw [hd] at he'
          cases he'
          have hid := (hfeed e d'.id (hown.symm.trans hseen) hin).1
          exact absurd (h.drafts_distinct c' c d' d hd' hd hid) hne
        · exact ⟨e, hother.symm.trans hseen, hin, id⟩

/-- **A worker** finds the in-app rows of announcements available and leaves them alone. -/
theorem of_process (h : BulletinInv s) (pk : ℕ) (outcome : DeliveryStatus)
    (hfree : s.deliveries.pending pk = none) (d : NotificationDelivery)
    (hd : s.deliveries.committed.get? pk = some d) (hopen : Bulletin.final d = false) :
    BulletinInv { s with
      deliveries := s.deliveries.updateNow pk (Bulletin.processed outcome) } := by
  have hrow : ∀ id q e, InFeedOf id e →
      (s.deliveries.committed.update pk (Bulletin.processed outcome)).get? q = some e →
      s.deliveries.committed.get? q = some e := by
    intro id q e hin he
    rw [Table.get?_update] at he
    split at he
    · next hq =>
      subst hq
      rw [hd] at he
      cases he
      obtain ⟨a, -, hshows⟩ := h.feed id q d hd hin
      have havailable := hshows.available
      simp [Bulletin.final, havailable] at hopen
    · exact he
  constructor
  · intro id q e he hin
    exact h.feed id q e (hrow id q e hin he) hin
  · intro c
    refine (h.calls c).frame rfl (fun _ _ _ => Iff.rfl) (fun _ _ => rfl) (fun _ _ _ => Iff.rfl)
      ?_ ?_
    · intro q p hp _
      refine Table.get?_update_ne _ _ _ _ ?_
      rintro rfl
      rw [hfree] at hp
      cases hp
    · intro e q r _ hin hr
      exact ⟨r, hrow _ q r hin hr, hin, id⟩

/-- **Another service** queues rows of other feeds. -/
theorem of_notify (h : BulletinInv s) (row : NotificationDelivery)
    (hrow : ∀ id, ¬ InFeedOf id row) :
    BulletinInv { s with deliveries := s.deliveries.insertNow row } := by
  have hold : ∀ id q e, InFeedOf id e →
      (s.deliveries.committed.insert row).get? q = some e →
      s.deliveries.committed.get? q = some e := by
    intro id q e hin he
    rw [Table.get?_insert] at he
    split at he
    · cases he
      exact absurd hin (hrow id)
    · exact he
  constructor
  · intro id q e he hin
    exact h.feed id q e (hold id q e hin he) hin
  · intro c
    refine (h.calls c).frame rfl (fun _ _ _ => Iff.rfl) (fun _ _ => rfl) (fun _ _ _ => Iff.rfl)
      ?_ ?_
    · intro q p hp _
      refine (Table.get?_insert _ _ _).trans (if_neg ?_)
      exact Nat.ne_of_lt (s.deliveries.drawn q p hp).2
    · intro e q r _ hin hr
      exact ⟨r, hold _ q r hin hr, hin, id⟩

theorem of_begin {t : Bulletin C} (h : BulletinInv s) (c : C) (request : AnnouncementRequest)
    (hstep : s.begin c request = some t) : BulletinInv t := by
  unfold Bulletin.begin at hstep
  split at hstep
  · next actor building title body hphase =>
    dsimp only at hstep
    split at hstep
    · cases hstep
      exact h
    · cases hstep
      exact h.of_publish c hphase _ _ rfl rfl
  case h_2 hphase | h_3 hphase =>
    split at hstep
    · cases hstep
    · next hfree =>
      split at hstep
      · cases hstep
        exact h
      · next row hrow =>
        cases hstep
        exact h.of_lock c hphase _ row _ (Bool.not_eq_true _ ▸ hfree) hrow rfl
  · cases hstep

/-- A call that has saved its row without withdrawing it leaves the announcement published. -/
theorem published_of_savedOver (t : Table Announcement) (d : AnnouncementDraft)
    (h : SavedOver t d) (hkeeps : d.request.withdraws = false) : d.row.state = .published := by
  unfold SavedOver at h
  split at h
  · exact h.2
  · obtain ⟨-, a, -, hrevises⟩ := h
    exact hrevises.state_eq hkeeps

/-- A call that may commit. -/
theorem finished_of_commit {t : Bulletin C} (c : C) (hstep : s.commit c = some t) :
    t = { s with
      announcements := s.announcements.commit c
      deliveries := s.deliveries.commit c }.setPhase c .idle ∧
      ∃ d, s.phase c = .settled d ∨ s.phase c = .queueing d [] ∧ d.request.withdraws = true := by
  unfold Bulletin.commit at hstep
  dsimp only at hstep
  split at hstep
  · next d hphase =>
    cases hstep
    exact ⟨rfl, d, .inl hphase⟩
  · next d hphase =>
    split at hstep
    · next hwithdraws =>
      cases hstep
      exact ⟨rfl, d, .inr ⟨hphase, hwithdraws⟩⟩
    · cases hstep
  · cases hstep

theorem of_commit_step {t : Bulletin C} (h : BulletinInv s) (c : C)
    (hstep : s.commit c = some t) : BulletinInv t := by
  obtain ⟨rfl, d, hfinished⟩ := finished_of_commit c hstep
  rcases hfinished with hphase | ⟨hphase, hwithdraws⟩
  · have hd : draft? (s.phase c) = some d := by rw [hphase]; rfl
    refine h.of_commit c d hd fun pk e he hin => ?_
    have hbased := (h.calls c).based
    have hshown := (h.calls c).shown d pk e hd he hin
    rw [hphase] at hbased hshown
    exact ⟨published_of_savedOver _ d hbased.1 hbased.2, h.building_seen c d hd pk e he hin,
      hshown.1, hshown.2.1, hshown.2.2⟩
  · have hd : draft? (s.phase c) = some d := by rw [hphase]; rfl
    refine h.of_commit c d hd fun pk e he hin => ?_
    have hshown := (h.calls c).shown d pk e hd he hin
    rw [hphase] at hshown
    exact absurd (hshown.1.symm.trans hwithdraws) (by decide)

theorem of_bulk_step {t : Bulletin C} (h : BulletinInv s) (c : C) (hstep : s.bulk c = some t) :
    BulletinInv t := by
  have hbased := (h.calls c).based
  unfold Bulletin.bulk at hstep
  dsimp only at hstep
  split at hstep
  · next d hphase =>
    split at hstep
    · next hwithdraws =>
      split at hstep
      · cases hstep
      · next hfree =>
        cases hstep
        rw [hphase] at hbased
        refine h.of_bulk c d (by rw [hphase]; rfl) _ rfl (Bool.not_eq_true _ ▸ hfree)
          ⟨hbased, hwithdraws⟩ ?_
        intro e r _ hr
        cases hrequest : d.request with
        | withdraw => rw [hrequest] at hr; cases hr
        | publish => rw [hrequest] at hwithdraws; cases hwithdraws
        | edit => rw [hrequest] at hwithdraws; cases hwithdraws
    · cases hstep
  · next d hphase =>
    split at hstep
    · cases hstep
    · next hkeeps =>
      split at hstep
      · cases hstep
      · next hfree =>
        cases hstep
        rw [hphase] at hbased
        refine h.of_bulk c d (by rw [hphase]; rfl) _ rfl (Bool.not_eq_true _ ▸ hfree)
          ⟨hbased, Bool.not_eq_true _ ▸ hkeeps⟩ ?_
        intro e r hshown hr
        rw [hphase] at hshown
        cases hrequest : d.request with
        | withdraw => rw [hrequest] at hkeeps; exact absurd rfl hkeeps
        | publish =>
          rw [hrequest] at hr
          cases hr
          exact ⟨rfl, hshown.2 (by rw [hrequest]; rfl)⟩
        | edit =>
          rw [hrequest] at hr
          cases hr
          exact ⟨rfl, rfl, rfl⟩
  · cases hstep

theorem of_residents {t : Bulletin C} (h : BulletinInv s) (c : C) (users : List ℕ)
    (hstep : s.residents c users = some t) : BulletinInv t := by
  unfold Bulletin.residents at hstep
  split at hstep
  · next d hphase =>
    split at hstep
    · cases hstep
    · next hkeeps =>
      cases hstep
      refine h.of_phase c _ (by rw [hphase]; rfl) ?_ ?_
      · rw [hphase]
        exact id
      · rw [hphase]
        exact fun e he => ⟨Bool.not_eq_true _ ▸ hkeeps, he⟩
  · next d hphase =>
    cases hstep
    refine h.of_phase c _ (by rw [hphase]; rfl) ?_ ?_
    · rw [hphase]
      exact fun hbased => hbased.1
    · rw [hphase]
      exact fun _ he => he.elim
  · cases hstep

theorem of_save_step {t : Bulletin C} (h : BulletinInv s) (c : C) (hstep : s.save c = some t) :
    BulletinInv t := by
  unfold Bulletin.save at hstep
  split at hstep
  · next d hphase =>
    split at hstep
    · cases hstep
      exact h.of_fail c
    · next row hrevised =>
      cases hstep
      exact h.of_save c d hphase row hrevised
  · cases hstep

/-- A key with another code is none of a feed. -/
theorem not_inFeedOf_of_code (row : NotificationDelivery)
    (h : eventCodeFromKey row.eventKey ≠ eventAnnouncement) (id : ℕ) : ¬ InFeedOf id row := by
  intro hin
  rw [hin.2] at h
  exact h (eventCodeFromKey_inAppEventKey id)

/-- The surroundings change. -/
theorem of_tables {t : Bulletin C} (h : BulletinInv s) (ha : t.announcements = s.announcements)
    (hd : t.deliveries = s.deliveries) (hphase : t.phase = s.phase) : BulletinInv t := by
  constructor
  · rw [ha, hd]
    exact h.feed
  · intro c
    refine ⟨?_, ?_, ?_, ?_, ?_⟩
    · rw [ha, hphase]
      exact (h.calls c).holder
    · rw [ha, hphase]
      exact (h.calls c).holds
    · rw [ha, hphase]
      exact (h.calls c).based
    · rw [hd, hphase]
      exact (h.calls c).own
    · rw [hd, hphase]
      exact (h.calls c).shown

/-- **Every step keeps the invariant.** -/
theorem of_step {t : Bulletin C} (h : BulletinInv s) (action : BulletinAction C)
    (hstep : Bulletin.step s action = some t) : BulletinInv t := by
  cases action with
  | tick => cases hstep; exact h.of_tables rfl rfl rfl
  | setManagers => cases hstep; exact h.of_tables rfl rfl rfl
  | setPreferences => cases hstep; exact h.of_tables rfl rfl rfl
  | begin c request => exact h.of_begin c request hstep
  | save c => exact h.of_save_step c hstep
  | residents c users => exact h.of_residents c users hstep
  | queue c => exact h.of_queue c hstep
  | bulk c => exact h.of_bulk_step c hstep
  | commit c => exact h.of_commit_step c hstep
  | fail c => cases hstep; exact h.of_fail c
  | process pk outcome =>
    simp only [Bulletin.step, Bulletin.process] at hstep
    split at hstep
    · cases hstep
    next hfree =>
    split at hstep
    · cases hstep
      exact h
    next d hd =>
    split at hstep
    · cases hstep
      exact h
    · next hopen =>
      cases hstep
      exact h.of_process pk outcome (by simpa using hfree) d hd (Bool.not_eq_true _ ▸ hopen)
  | notify recipient notice channel =>
    simp only [Bulletin.step, Bulletin.notify] at hstep
    split at hstep
    · cases hstep
    next hcode =>
    split at hstep
    · cases hstep
      exact h
    · cases hstep
      exact h.of_notify _ (not_inFeedOf_of_code _ hcode)

theorem of_reaches {t : Bulletin C} (h : BulletinInv s) (hreach : Reaches Bulletin.step Always s t) :
    BulletinInv t :=
  hreach.preserves BulletinInv (fun _ action _ hu _ hstep => of_step hu action hstep) h

end BulletinInv

/-! ## What changes an announcement -/

theorem announcements_queueChannel (s t : Bulletin C) (c : C) (recipient : ℕ) (notice : Notice)
    (channel : Channel) (h : s.queueChannel c recipient notice channel = some t) :
    t.announcements = s.announcements := by
  unfold Bulletin.queueChannel at h
  split at h
  · obtain ⟨deliveries, -, rfl⟩ := Option.map_eq_some_iff.mp h
    rfl
  · cases h
    rfl

theorem announcements_queue (s t : Bulletin C) (c : C) (h : s.queue c = some t) :
    t.announcements = s.announcements := by
  unfold Bulletin.queue at h
  split at h
  · split at h
    · obtain ⟨u, hu, rfl⟩ := Option.map_eq_some_iff.mp h
      exact announcements_queueChannel s u c _ _ _ hu
    · obtain ⟨u, hu, hrest⟩ := Option.bind_eq_some_iff.mp h
      obtain ⟨w, hw, rfl⟩ := Option.map_eq_some_iff.mp hrest
      exact (announcements_queueChannel u w c _ _ _ hw).trans
        (announcements_queueChannel s u c _ _ _ hu)
  · cases h

/-- Only a commit changes a committed announcement. -/
theorem announcement_kept (s t : Bulletin C) (action : BulletinAction C)
    (hstep : Bulletin.step s action = some t) (hcommit : ∀ c, action ≠ .commit c) (id : ℕ) :
    t.announcements.committed.get? id = s.announcements.committed.get? id := by
  cases action with
  | tick => cases hstep; rfl
  | setManagers => cases hstep; rfl
  | setPreferences => cases hstep; rfl
  | begin c request =>
    simp only [Bulletin.step, Bulletin.begin] at hstep
    repeat' split at hstep
    all_goals first | cases hstep; rfl | skip
    all_goals first | (cases hstep; exact Versions.get?_write_committed _ _ _ _ _) | cases hstep
  | save c =>
    simp only [Bulletin.step, Bulletin.save] at hstep
    repeat' split at hstep
    · cases hstep
      rfl
    · cases hstep
      exact Versions.get?_write_committed _ _ _ _ _
    · cases hstep
  | residents c users =>
    simp only [Bulletin.step, Bulletin.residents] at hstep
    repeat' split at hstep
    all_goals cases hstep
    all_goals rfl
  | queue c => rw [announcements_queue s t c hstep]
  | bulk c =>
    simp only [Bulletin.step, Bulletin.bulk] at hstep
    repeat' split at hstep
    all_goals cases hstep
    all_goals rfl
  | commit c => exact absurd rfl (hcommit c)
  | fail c => cases hstep; rfl
  | process pk outcome =>
    simp only [Bulletin.step, Bulletin.process] at hstep
    repeat' split at hstep
    all_goals cases hstep
    all_goals rfl
  | notify recipient notice channel =>
    simp only [Bulletin.step, Bulletin.notify] at hstep
    repeat' split at hstep
    all_goals cases hstep
    all_goals rfl

/-- **A commit revises the announcement of its call**, and no other. -/
theorem announcement_committed (s t : Bulletin C) (h : BulletinInv s) (c : C)
    (hstep : s.commit c = some t) :
    ∃ d, draft? (s.phase c) = some d ∧ t.announcements.committed.get? d.id = some d.row ∧
      SavedOver s.announcements.committed d ∧
      ∀ id, id ≠ d.id →
        t.announcements.committed.get? id = s.announcements.committed.get? id := by
  obtain ⟨rfl, d, hfinished⟩ := BulletinInv.finished_of_commit c hstep
  have hbased := (h.calls c).based
  obtain ⟨hd, hsaved⟩ : draft? (s.phase c) = some d ∧ SavedOver s.announcements.committed d := by
    rcases hfinished with hphase | ⟨hphase, -⟩
    · rw [hphase] at hbased ⊢
      exact ⟨rfl, hbased.1⟩
    · rw [hphase] at hbased ⊢
      exact ⟨rfl, hbased⟩
  refine ⟨d, hd, ?_, hsaved, ?_⟩
  · exact (Versions.get?_commit _ _ _).trans
      (s.announcements.seen_own c d.id _ ((h.calls c).holds d hd))
  · intro id hid
    refine (Versions.get?_commit _ _ _).trans ?_
    rcases s.announcements.seen_cases c id with ⟨row, hrow, -⟩ | ⟨-, hother⟩
    · obtain ⟨d', hd', hid', -⟩ := (h.calls c).holder id _ hrow rfl
      rw [hd] at hd'
      cases hd'
      exact absurd hid'.symm hid
    · exact hother

/-- A step leaves a committed announcement as it is, or commits a revision of it. -/
theorem announcement_step (s t : Bulletin C) (h : BulletinInv s) (action : BulletinAction C)
    (hstep : Bulletin.step s action = some t) (id : ℕ) (a : Announcement)
    (ha : s.announcements.committed.get? id = some a) :
    t.announcements.committed.get? id = some a ∨
      ∃ c d, action = .commit c ∧ draft? (s.phase c) = some d ∧ d.id = id ∧
        t.announcements.committed.get? id = some d.row ∧ Revises d.request a d.row := by
  by_cases hcommit : ∃ c, action = .commit c
  · obtain ⟨c, rfl⟩ := hcommit
    obtain ⟨d, hd, hrow, hsaved, hothers⟩ := announcement_committed s t h c hstep
    by_cases hid : id = d.id
    · subst hid
      refine .inr ⟨c, d, rfl, hd, rfl, hrow, ?_⟩
      unfold SavedOver at hsaved
      split at hsaved
      · rw [ha] at hsaved
        cases hsaved.1
      · obtain ⟨-, b, hb, hrevises⟩ := hsaved
        rw [ha] at hb
        cases hb
        exact hrevises
    · exact .inl ((hothers id hid).trans ha)
  · refine .inl ((announcement_kept s t action hstep ?_ id).trans ha)
    intro c hc
    exact hcommit ⟨c, hc⟩

/-- **A withdrawn announcement stays as it is** along every run. -/
theorem withdrawn_kept (s t : Bulletin C) (h : BulletinInv s)
    (hreach : Reaches Bulletin.step Always s t) (id : ℕ) (a : Announcement)
    (ha : s.announcements.committed.get? id = some a) (hwithdrawn : a.state = .withdrawn) :
    t.announcements.committed.get? id = some a := by
  have hboth : BulletinInv t ∧ t.announcements.committed.get? id = some a := by
    refine hreach.preserves (fun u => BulletinInv u ∧ u.announcements.committed.get? id = some a)
      ?_ ⟨h, ha⟩
    rintro u action v ⟨hu, hsame⟩ _ hstep
    refine ⟨hu.of_step action hstep, ?_⟩
    rcases announcement_step u v hu action hstep id a hsame with hkept | ⟨-, d, -, -, -, -, hrevises⟩
    · exact hkept
    · have hpublished := hrevises.1
      rw [hwithdrawn] at hpublished
      cases hpublished
  exact hboth.2

/-- **The feed shows the current text of every announcement.** In every state that calls and
workers reach: the in-app rows of an announcement show it, and it is published; an edit or a
withdrawal that commits revises the announcement it was made for, whose revision was the expected
one; nothing else changes an announcement, and nothing a withdrawn one. -/
theorem announcement_feed_current (s : Bulletin C)
    (hreach : Reaches Bulletin.step Always Bulletin.empty s) :
    (∀ id a, s.announcements.committed.get? id = some a →
      ∀ pk d, s.deliveries.committed.get? pk = some d → d.channel = .inApp →
        d.eventKey = inAppEventKey id →
        a.state = .published ∧ d.status = .available ∧ d.subject = a.title ∧ d.body = a.body) ∧
    (∀ c t d, Bulletin.step s (.commit c) = some t → draft? (s.phase c) = some d →
      ∀ id, AnnouncementRequest.target? d.request = some id →
      ∃ a b, s.announcements.committed.get? id = some a ∧
        t.announcements.committed.get? id = some b ∧ Revises d.request a b) ∧
    (∀ action t, Bulletin.step s action = some t →
      ∀ id a, s.announcements.committed.get? id = some a →
      t.announcements.committed.get? id = some a ∨
        ∃ c d, action = .commit c ∧ draft? (s.phase c) = some d ∧
          AnnouncementRequest.target? d.request = some id ∧
          ∃ b, t.announcements.committed.get? id = some b ∧ Revises d.request a b) ∧
    ∀ id a, s.announcements.committed.get? id = some a → a.state = .withdrawn →
      ∀ t, Reaches Bulletin.step Always s t → t.announcements.committed.get? id = some a := by
  have h : BulletinInv s := BulletinInv.empty.of_reaches hreach
  refine ⟨?_, ?_, ?_, ?_⟩
  · intro id a ha pk d hd hchannel hkey
    obtain ⟨b, hb, hshows⟩ := h.feed id pk d hd ⟨hchannel, hkey⟩
    rw [ha] at hb
    cases hb
    exact ⟨hshows.published, hshows.available, hshows.subject, hshows.body⟩
  · intro c t d hstep hd id htarget
    obtain ⟨e, he, hrow, hsaved, -⟩ := announcement_committed s t h c hstep
    rw [hd] at he
    cases he
    unfold SavedOver at hsaved
    split at hsaved
    · next hrequest =>
      rw [hrequest] at htarget
      cases htarget
    · obtain ⟨hid, a, ha, hrevises⟩ := hsaved
      cases hid.symm.trans htarget
      exact ⟨a, d.row, ha, hrow, hrevises⟩
  · intro action t hstep id a ha
    rcases announcement_step s t h action hstep id a ha with
      hkept | ⟨c, d, rfl, hd, hid, hrow, hrevises⟩
    · exact .inl hkept
    · refine .inr ⟨c, d, rfl, hd, ?_, d.row, hrow, hrevises⟩
      obtain ⟨e, he, -, hsaved, -⟩ := announcement_committed s t h c hstep
      rw [hd] at he
      cases he
      unfold SavedOver at hsaved
      split at hsaved
      · next hrequest =>
        rw [hrequest] at hrevises
        exact hrevises.2.elim
      · rw [hsaved.1, hid]
  · intro id a ha hwithdrawn t ht
    exact withdrawn_kept s t h ht id a ha hwithdrawn

/-- A manager publishes an announcement; the edit of one session commits while another, with the
same expected revision, waits for the row. -/
def editedTwice : List (BulletinAction Bool) :=
  [.setManagers fun _ _ => true,
    .begin true (.publish 1 1 "Water".toList "off at noon".toList), .residents true [2, 3],
    .queue true, .queue true, .bulk true, .commit true,
    .begin true (.edit 1 1 (some 1) "Water".toList "off at one".toList), .save true,
    .residents true [3, 4], .queue true, .queue true, .bulk true, .commit true,
    .begin false (.edit 1 1 (some 1) "Water".toList "off at two".toList), .save false]

theorem announcement_feed_current_edited :
    ∃ s : Bulletin Bool, Reaches Bulletin.step Always Bulletin.empty s ∧
      ∃ a d, s.announcements.committed.get? 1 = some a ∧ a.revision = 2 ∧
        s.deliveries.committed.get? 3 = some d ∧ d.recipient = 4 ∧ d.body = a.body := by
  obtain ⟨s, hreach, hP⟩ := exists_of_run Bulletin.step Bulletin.empty
    (fun s => (s.announcements.committed.get? 1).any (·.revision = 2) ∧
      (s.deliveries.committed.get? 3).any fun d =>
        d.recipient = 4 && d.channel = .inApp && d.eventKey = inAppEventKey 1)
    editedTwice (by decide)
  obtain ⟨a, ha, hrevision⟩ := (Option.any_eq_true _ _).mp hP.1
  obtain ⟨d, hd, hrow⟩ := (Option.any_eq_true _ _).mp hP.2
  simp only [Bool.and_eq_true, decide_eq_true_eq] at hrow hrevision
  have hshown := (announcement_feed_current s hreach).1 1 a ha 3 d hd hrow.1.2 hrow.2
  exact ⟨s, hreach, a, d, ha, hrevision, hd, hrow.1.1, hshown.2.2.2⟩

end LamTo.Analysis
