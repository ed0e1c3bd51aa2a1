import LamTo.Model.Integrity

/-!
# Alerts about a mismatch

The embedding of the queue of `notifications/services.py` and of the hook
`notify_integrity_mismatch`. The hook runs inside the transaction of the check and only
registers what to queue; the rows are queued after the commit. An exception of the hook is
swallowed by the check.

The notification tables are a state of their own (`Notices`): no other modelled service reads
them. What a delivery holds for its sending (attempts, retries, errors) is left out. A member
of the management is a user that exists, so the look-up of the recipient finds it. The keys in
the texts are 64-bit integers, whose texts are far below the limits of the columns.

SOURCE: src/lamto/notifications/services.py, src/lamto/notifications/hooks.py
-/

set_option autoImplicit false

namespace LamTo.Model

open LamTo.Library

/-! ## The queue -/

/-- `NotificationDelivery.Channel`. -/
inductive Channel where
  | inApp
  | email
  | push
deriving DecidableEq

/-- `NotificationDelivery.Status`. -/
inductive DeliveryStatus where
  | pending
  | available
  | sent
  | failed
  | dead
deriving DecidableEq

structure NotificationDelivery where
  recipient : ℕ
  building : ℕ
  eventKey : Text
  eventCode : Text
  subject : Text
  body : Text
  channel : Channel
  status : DeliveryStatus
deriving DecidableEq

structure NotificationPreference where
  user : ℕ
  eventCode : Text
  emailEnabled : Bool
  pushEnabled : Bool
deriving DecidableEq

/-- The notification tables and the setting `PUSH_ENABLED`; `activeDevice` says that a user
has an active device. -/
structure Notices where
  deliveries : Table NotificationDelivery
  preferences : Table NotificationPreference
  activeDevice : ℕ → Bool
  pushEnabled : Bool

/-- `RESIDENT_PUSH_EVENT_CODES`. SOURCE: services.py:68-77 -/
def residentPushEventCodes : List Text :=
  ["report.receipt".toList, "triage.status".toList, "work.completed".toList,
    "ledger.publication".toList, "building.announcement".toList, "building.bill_issued".toList]

/-- `DEFAULT_CHANNELS`. SOURCE: services.py:79-83 -/
def defaultChannels : List Channel := [.inApp, .email, .push]

/-- The preference of a user for an event code, on by default. SOURCE: services.py:93-106 -/
def preference (n : Notices) (user : ℕ) (eventCode : Text) (f : NotificationPreference → Bool) :
    Bool :=
  ((n.preferences.first? fun p => p.user = user && p.eventCode = eventCode).map fun p =>
    f p.2).getD true

/-- `email_enabled_for` -/
def emailEnabledFor (n : Notices) (user : ℕ) (eventCode : Text) : Bool :=
  preference n user eventCode (·.emailEnabled)

/-- `push_enabled_for` -/
def pushEnabledFor (n : Notices) (user : ℕ) (eventCode : Text) : Bool :=
  preference n user eventCode (·.pushEnabled)

/-- The tests of a channel. SOURCE: services.py:128-144 -/
def Channel.enabled (n : Notices) (user : ℕ) (eventCode : Text) : Channel → Bool
  | .inApp => true
  | .email => emailEnabledFor n user eventCode
  | .push => n.pushEnabled && residentPushEventCodes.contains eventCode &&
      pushEnabledFor n user eventCode && n.activeDevice user

/-- What is queued for a recipient. -/
structure Notice where
  eventKey : Text
  subject : Text
  body : Text
  eventCode : Text
  building : ℕ
deriving DecidableEq

/-- `NotificationDelivery.objects.get_or_create`, unique on recipient, key and channel.
SOURCE: services.py:145-157 -/
def getOrCreateDelivery (n : Notices) (recipient : ℕ) (notice : Notice) (channel : Channel) :
    Notices :=
  if n.deliveries.any fun d => d.recipient = recipient && d.eventKey = notice.eventKey &&
    d.channel = channel then n
  else
    { n with deliveries := n.deliveries.insert {
        recipient, building := notice.building, eventKey := notice.eventKey,
        eventCode := notice.eventCode, subject := notice.subject, body := notice.body, channel,
        status := .pending } }

/-- `queue_notification` over the default channels. SOURCE: services.py:109-158 -/
def queueNotification (n : Notices) (recipient : ℕ) (notice : Notice) : Notices :=
  defaultChannels.foldl (fun n channel =>
    if channel.enabled n recipient notice.eventCode then getOrCreateDelivery n recipient notice channel
    else n) n

/-- What is registered to run after the commit. -/
structure Alert where
  recipient : ℕ
  notice : Notice
deriving DecidableEq

/-- `notify_users`: one alert for each user, in order. SOURCE: services.py:308-333 -/
def notifyUsers (users : List ℕ) (notice : Notice) : List Alert :=
  users.eraseDups.map fun user => ⟨user, notice⟩

/-- The callbacks of the commit, in order. SOURCE: services.py:161-195 -/
def runAfterCommit (n : Notices) (alerts : List Alert) : Notices :=
  alerts.foldl (fun n a => queueNotification n a.recipient a.notice) n

/-! ## The hook -/

/-- `_management_users`: the users of the active memberships. SOURCE: hooks.py:19-27 -/
def managementUsers (db : Db) (building : ℕ) : List ℕ :=
  (db.memberships.select fun m => m.building = building && m.active).map fun r => r.2.user

/-- The key of the alert about an observation. SOURCE: hooks.py:151 -/
def mismatchKey (entry observation : ℕ) : Text :=
  "integrity.mismatch:entry:".toList ++ decimal entry ++ ":obs:".toList ++ decimal observation

/-- `notify_integrity_mismatch`: what it registers. The building is that of the entry's case.
SOURCE: hooks.py:146-156 -/
def notifyIntegrityMismatch (db : Db) (entry observation : ℕ) (row : PublishedLedgerEntry) :
    Except ServiceError (List Alert) := do
  let case ← orRaise row.case (.attribute "'NoneType' object has no attribute 'building_id'")
  let c ← getRow "MaintenanceCase" db.cases case
  return notifyUsers (managementUsers db c.building) {
    eventKey := mismatchKey entry observation
    subject := "Integrity mismatch detected".toList
    body := "Published ledger entry #".toList ++ decimal entry ++
      " failed integrity verification.".toList
    eventCode := "integrity.mismatch".toList
    building := c.building }

/-- What the check registers: nothing unless it observed a mismatch, and nothing when the hook
raises. SOURCE: integrity.py:328-333 -/
def registeredAlerts (db : Db) (entry observation : ℕ) : List Alert :=
  match db.ledger.get? entry, db.observations.get? observation with
  | some row, some o =>
    if o.result = .mismatch then
      match notifyIntegrityMismatch db entry observation row with
      | .ok alerts => alerts
      | .error _ => []
    else []
  | _, _ => []

/-- `verify_published_entry`, its commit and the callbacks of the commit. -/
def verifyAndNotify (C : EvidenceConfig) (db : Db) (n : Notices) (now entry : ℕ)
    (storage : Storage) (chain : ChainAccess) : Except ServiceError (ℕ × Db × Notices) := do
  let (observation, db) ← verifyPublishedEntry C db now entry storage chain
  return (observation, db, runAfterCommit n (registeredAlerts db entry observation))

end LamTo.Model
