import LamTo.Library.Transition
import LamTo.Library.Versions
import LamTo.Model.Deliveries

/-!
# Announcements of the management

Calls of `publish_announcement`, `edit_announcement` and `withdraw_announcement` run as database
transactions beside each other and beside the workers that send notifications. A step is one
statement of one call: the row taken under its lock, the checks and the save, the query of the
residents, the rows of one resident, the statement over all in-app rows, the commit. Between two
steps the residents, the memberships, the preferences and the devices may change; a call may
fail at any point, which rolls its transaction back.

A statement of a worker on a row (`process_delivery`) and the notices of other services are one
step each: their transactions hold no row that a call of this module reads. What a delivery keeps
for its sending, the time it was read, and the audit trail are left out. The keys in the texts are
64-bit integers, whose texts are far below the limit of the column.

SOURCE: src/lamto/notifications/announcements.py, services.py:109-158, services.py:226-250
-/

set_option autoImplicit false

namespace LamTo.Model

open LamTo.Library

/-- `Announcement.State` -/
inductive AnnouncementState where
  | published
  | withdrawn
deriving DecidableEq

structure Announcement where
  building : ℕ
  title : Text
  body : Text
  revision : ℕ
  state : AnnouncementState
  createdBy : ℕ
  updatedBy : ℕ
  createdAt : ℕ
  updatedAt : ℕ
  withdrawnAt : Option ℕ
deriving DecidableEq

/-- `EVENT_ANNOUNCEMENT` -/
def eventAnnouncement : Text := "building.announcement".toList

/-- `in_app_event_key` -/
def inAppEventKey (announcement : ℕ) : Text :=
  eventAnnouncement ++ ":announcement:".toList ++ decimal announcement

/-- `push_event_key` -/
def pushEventKey (announcement revision : ℕ) (action : Text) : Text :=
  eventAnnouncement ++ ":announcement:".toList ++ decimal announcement ++ ":revision:".toList ++
    decimal revision ++ ":".toList ++ action

/-- The largest value of a `PositiveIntegerField`. -/
def maxPositiveInteger : ℕ := 2147483647

/-- `full_clean`, and that the columns take the texts. SOURCE: notifications/models.py:13-22 -/
def Announcement.clean (a : Announcement) : Bool :=
  a.title ≠ [] && a.title.length ≤ 160 && a.body ≠ [] && a.body.length ≤ 2000 &&
    a.revision ≤ maxPositiveInteger && !a.title.contains nul && !a.body.contains nul

/-! ## Calls -/

inductive AnnouncementRequest where
  | publish (actor building : ℕ) (title body : Text)
  | edit (actor id : ℕ) (expectedRevision : Option ℤ) (title body : Text)
  | withdraw (actor id : ℕ) (expectedRevision : Option ℤ)
deriving DecidableEq

/-- The word for the action in the key of a push message. -/
def AnnouncementRequest.action : AnnouncementRequest → Text
  | .publish .. => "published".toList
  | .edit .. => "updated".toList
  | .withdraw .. => "withdrawn".toList

def AnnouncementRequest.withdraws : AnnouncementRequest → Bool
  | .withdraw .. => true
  | _ => false

/-- A call and its variable `announcement`. -/
structure AnnouncementDraft where
  request : AnnouncementRequest
  id : ℕ
  row : Announcement
deriving DecidableEq

/-- How far a call is. A publication and an edit save the row, ask for the residents, queue their
rows and bring all in-app rows up to date; a withdrawal saves the row, deletes the in-app rows and
then asks for the residents. -/
inductive AnnouncementPhase where
  | idle
  | locked (d : AnnouncementDraft)
  | saved (d : AnnouncementDraft)
  | cleared (d : AnnouncementDraft)
  | queueing (d : AnnouncementDraft) (recipients : List ℕ)
  | settled (d : AnnouncementDraft)
deriving DecidableEq

/-- `manages` says that a user is an active member of the management of a building; the other
fields beside the tables are those of `Notices`. -/
structure Bulletin (C : Type) where
  now : ℕ
  announcements : Versions C Announcement
  deliveries : Versions C NotificationDelivery
  preferences : Table NotificationPreference
  activeDevice : ℕ → Bool
  pushEnabled : Bool
  manages : ℕ → ℕ → Bool
  phase : C → AnnouncementPhase

inductive BulletinAction (C : Type) where
  | tick (elapsed : ℕ)
  | setManagers (manages : ℕ → ℕ → Bool)
  | setPreferences (preferences : Table NotificationPreference) (activeDevice : ℕ → Bool)
  | begin (c : C) (request : AnnouncementRequest)
  | save (c : C)
  | residents (c : C) (users : List ℕ)
  | queue (c : C)
  | bulk (c : C)
  | commit (c : C)
  | fail (c : C)
  | process (pk : ℕ) (outcome : DeliveryStatus)
  | notify (recipient : ℕ) (notice : Notice) (channel : Channel)

namespace Bulletin

variable {C : Type} [DecidableEq C]

def empty : Bulletin C where
  now := 0
  announcements := .empty
  deliveries := .empty
  preferences := .empty
  activeDevice _ := false
  pushEnabled := true
  manages _ _ := false
  phase _ := .idle

def setPhase (s : Bulletin C) (c : C) (phase : AnnouncementPhase) : Bulletin C :=
  { s with phase := Function.update s.phase c phase }

@[simp] theorem phase_setPhase_self (s : Bulletin C) (c : C) (phase : AnnouncementPhase) :
    (s.setPhase c phase).phase c = phase := Function.update_self _ _ _

/-- A call raises: its transaction is rolled back. -/
def fail (s : Bulletin C) (c : C) : Bulletin C :=
  { s with
    announcements := s.announcements.rollback c
    deliveries := s.deliveries.rollback c }.setPhase c .idle

/-- The notification tables as a call sees them. -/
def notices (s : Bulletin C) (c : C) : Notices where
  deliveries := s.deliveries.view c
  preferences := s.preferences
  activeDevice := s.activeDevice
  pushEnabled := s.pushEnabled

/-- The row of a new announcement. SOURCE: announcements.py:49-57 -/
def drafted (s : Bulletin C) (actor building : ℕ) (title body : Text) : Announcement where
  building := building
  title := title
  body := body
  revision := 1
  state := .published
  createdBy := actor
  updatedBy := actor
  createdAt := s.now
  updatedAt := s.now
  withdrawnAt := none

/-- The start of a call: `publish_announcement` up to its `save`, the others up to the row under
its lock. A row that another call holds is waited for. SOURCE: announcements.py:48-57, 103-107,
158-162 -/
def begin (s : Bulletin C) (c : C) (request : AnnouncementRequest) : Option (Bulletin C) :=
  match s.phase c, request with
  | .idle, .publish actor building title body =>
    let row := s.drafted actor building title body
    if !s.manages actor building || !row.clean then some s
    else some ({ s with announcements := s.announcements.insert c row }.setPhase c
      (.saved ⟨request, s.announcements.committed.next, row⟩))
  | .idle, .edit _ id _ _ _ | .idle, .withdraw _ id _ =>
    if s.announcements.locked c id then none
    else match s.announcements.committed.get? id with
      | none => some s
      | some row => some ({ s with
          announcements := s.announcements.write c id (some row) }.setPhase c
            (.locked ⟨request, id, row⟩))
  | _, _ => none

/-- The checks of `edit_announcement` and its row. SOURCE: announcements.py:108-119 -/
def edited (s : Bulletin C) (row : Announcement) (actor : ℕ) (expectedRevision : Option ℤ)
    (title body : Text) : Option Announcement :=
  if !s.manages actor row.building then none
  else if row.state ≠ .published || expectedRevision ≠ some (row.revision : ℤ) then none
  else
    let row := { row with
      title := title
      body := body
      revision := row.revision + 1
      updatedBy := actor
      updatedAt := s.now }
    if row.clean then some row else none

/-- The checks of `withdraw_announcement` and its row. SOURCE: announcements.py:163-174 -/
def withdrawn (s : Bulletin C) (row : Announcement) (actor : ℕ) (expectedRevision : Option ℤ) :
    Option Announcement :=
  if !s.manages actor row.building then none
  else if row.state ≠ .published || expectedRevision ≠ some (row.revision : ℤ) then none
  else if maxPositiveInteger < row.revision + 1 then none
  else some { row with
    revision := row.revision + 1
    state := .withdrawn
    withdrawnAt := some s.now
    updatedBy := actor
    updatedAt := s.now }

/-- The row a call on a locked announcement saves. -/
def revised (s : Bulletin C) (d : AnnouncementDraft) : Option Announcement :=
  match d.request with
  | .publish .. => none
  | .edit actor _ expectedRevision title body => s.edited d.row actor expectedRevision title body
  | .withdraw actor _ expectedRevision => s.withdrawn d.row actor expectedRevision

/-- The checks and the `save` of a call on a locked row; a call that fails them raises. -/
def save (s : Bulletin C) (c : C) : Option (Bulletin C) :=
  match s.phase c with
  | .locked d =>
    match s.revised d with
    | none => some (s.fail c)
    | some row => some ({ s with
        announcements := s.announcements.write c d.id (some row) }.setPhase c
          (.saved { d with row := row }))
  | _ => none

/-- The query of the residents, who are any users. SOURCE: announcements.py:26-31 -/
def residents (s : Bulletin C) (c : C) (users : List ℕ) : Option (Bulletin C) :=
  match s.phase c with
  | .saved d => if d.request.withdraws then none else some (s.setPhase c (.queueing d users))
  | .cleared d => some (s.setPhase c (.queueing d users))
  | _ => none

/-- A new row for a resident on one channel. SOURCE: services.py:145-157 -/
def delivery (recipient : ℕ) (notice : Notice) (channel : Channel) : NotificationDelivery where
  recipient := recipient
  building := notice.building
  eventKey := notice.eventKey
  eventCode := notice.eventCode
  subject := notice.subject
  body := notice.body
  channel := channel
  status := .pending

/-- The rows `get_or_create` looks for. -/
def sameDelivery (recipient : ℕ) (notice : Notice) (channel : Channel)
    (d : NotificationDelivery) : Bool :=
  d.recipient = recipient && d.eventKey = notice.eventKey && d.channel = channel

/-- `queue_notification` on one channel, inside the transaction of a call.
SOURCE: services.py:127-158 -/
def queueChannel (s : Bulletin C) (c : C) (recipient : ℕ) (notice : Notice) (channel : Channel) :
    Option (Bulletin C) :=
  if channel.enabled (s.notices c) recipient notice.eventCode then
    (s.deliveries.getOrInsert c (sameDelivery recipient notice channel)
      (delivery recipient notice channel)).map fun deliveries => { s with deliveries }
  else some s

/-- What a call queues for a resident, under the given key. -/
def noticeOf (d : AnnouncementDraft) (eventKey : Text) : Notice where
  eventKey := eventKey
  subject := d.row.title
  body := d.row.body
  eventCode := eventAnnouncement
  building := d.row.building

/-- The in-app row of a resident. -/
def queueInApp (s : Bulletin C) (c : C) (d : AnnouncementDraft) (recipient : ℕ) :
    Option (Bulletin C) :=
  s.queueChannel c recipient (noticeOf d (inAppEventKey d.id)) .inApp

/-- `_queue_push` -/
def queuePush (s : Bulletin C) (c : C) (d : AnnouncementDraft) (recipient : ℕ) :
    Option (Bulletin C) :=
  s.queueChannel c recipient
    (noticeOf d (pushEventKey d.id d.row.revision d.request.action)) .push

/-- One round of the loop over the residents. SOURCE: announcements.py:60-70, 121-131, 181-182 -/
def queue (s : Bulletin C) (c : C) : Option (Bulletin C) :=
  match s.phase c with
  | .queueing d (recipient :: rest) =>
    if d.request.withdraws then
      (s.queuePush c d recipient).map fun s => s.setPhase c (.queueing d rest)
    else
      (s.queueInApp c d recipient).bind fun s =>
        (s.queuePush c d recipient).map fun s => s.setPhase c (.queueing d rest)
  | _ => none

/-- The rows of the statements over all in-app rows. SOURCE: announcements.py:72-76 -/
def inFeed (d : AnnouncementDraft) (row : NotificationDelivery) : Bool :=
  row.building = d.row.building && row.eventKey = inAppEventKey d.id && row.channel = .inApp

/-- What the statement makes of a row. SOURCE: announcements.py:76, 137-142, 180 -/
def settle (request : AnnouncementRequest) (announcement : Announcement)
    (row : NotificationDelivery) : Option NotificationDelivery :=
  match request with
  | .publish .. => some { row with status := .available }
  | .edit .. => some { row with
      subject := announcement.title, body := announcement.body, status := .available }
  | .withdraw .. => none

/-- The statement over all in-app rows of the announcement: after the loop for a publication and
an edit, before the query of the residents for a withdrawal. -/
def bulk (s : Bulletin C) (c : C) : Option (Bulletin C) :=
  let settled (d : AnnouncementDraft) (phase : AnnouncementPhase) : Option (Bulletin C) :=
    if s.deliveries.lockedWhere c (inFeed d) then none
    else
      let deliveries := s.deliveries.updateWhere c (inFeed d) (settle d.request d.row)
      some ({ s with deliveries }.setPhase c phase)
  match s.phase c with
  | .saved d => if d.request.withdraws then settled d (.cleared d) else none
  | .queueing d [] => if d.request.withdraws then none else settled d (.settled d)
  | _ => none

/-- The end of a call that returns. -/
def commit (s : Bulletin C) (c : C) : Option (Bulletin C) :=
  let finished : Bulletin C := { s with
    announcements := s.announcements.commit c
    deliveries := s.deliveries.commit c }.setPhase c .idle
  match s.phase c with
  | .settled _ => some finished
  | .queueing d [] => if d.request.withdraws then some finished else none
  | _ => none

/-- The statuses `process_delivery` leaves alone. SOURCE: services.py:236-241 -/
def final (d : NotificationDelivery) : Bool :=
  d.status = .sent || d.status = .available || d.status = .dead

/-- What `process_delivery` saves: an in-app row is made available, another has been sent or not.
SOURCE: services.py:243-297 -/
def processed (outcome : DeliveryStatus) (d : NotificationDelivery) : NotificationDelivery :=
  { d with status := if d.channel = .inApp then .available else outcome }

/-- `process_delivery` on a row that no open transaction holds. -/
def process (s : Bulletin C) (pk : ℕ) (outcome : DeliveryStatus) : Option (Bulletin C) :=
  if (s.deliveries.pending pk).isSome then none
  else match s.deliveries.committed.get? pk with
    | none => some s
    | some d =>
      if final d then some s
      else some { s with deliveries := s.deliveries.updateNow pk (processed outcome) }

/-- `queue_notification` of another service; its keys begin with other codes. -/
def notify (s : Bulletin C) (recipient : ℕ) (notice : Notice) (channel : Channel) :
    Option (Bulletin C) :=
  if eventCodeFromKey notice.eventKey = eventAnnouncement then none
  else if s.deliveries.committed.any (sameDelivery recipient notice channel) then some s
  else some { s with deliveries := s.deliveries.insertNow (delivery recipient notice channel) }

def step (s : Bulletin C) : BulletinAction C → Option (Bulletin C)
  | .tick elapsed => some { s with now := s.now + elapsed }
  | .setManagers manages => some { s with manages }
  | .setPreferences preferences activeDevice => some { s with preferences, activeDevice }
  | .begin c request => s.begin c request
  | .save c => s.save c
  | .residents c users => s.residents c users
  | .queue c => s.queue c
  | .bulk c => s.bulk c
  | .commit c => s.commit c
  | .fail c => some (s.fail c)
  | .process pk outcome => s.process pk outcome
  | .notify recipient notice channel => s.notify recipient notice channel

end Bulletin

end LamTo.Model
