import LamTo.Library.Transition
import LamTo.Model.Notifications
import Mathlib.Data.List.Infix
import Mathlib.Data.List.Perm.Basic
import Mathlib.Data.List.Sort

/-!
# Sending the notifications

Any number of workers run `process_due_notifications` over one table of deliveries. A claim
reads the rows that are due and lets their locks go; `process_delivery` takes a row again under
its lock, looks at the status, sends, and saves. A step is what other workers may come between:
a claim, taking a row, one send, the save. While a row is taken no other worker takes it, and
rows in its place are skipped by a claim. Between two steps the clock may advance, devices come
and go, and rows are queued; a worker may stop at any point, which rolls its transaction back.

What the mail server and the push provider accepted, and which attempts were made, is kept in the
state (`mailed`, `pushed`, `attempted`); no step reads it. The text of a message is left out. The
classes of the provider's errors, the calendar of the time zone and `str.lower` are parameters.

SOURCE: src/lamto/notifications/services.py:198-487, push.py:79-105, devices.py:12-66
-/

set_option autoImplicit false

namespace LamTo.Model

open LamTo.Library

/-! ## Rows -/

/-- `NotificationDelivery`, as far as its sending reads and writes it. -/
structure DeliveryRow where
  recipient : ℕ
  building : Option ℕ
  eventKey : Text
  eventCode : Text
  channel : Channel
  status : DeliveryStatus
  attempts : ℕ
  nextRetryAt : Option ℕ
  lastError : Text
  pushSentDeviceIds : List ℕ
  createdAt : ℕ
  updatedAt : ℕ
deriving DecidableEq

structure Device where
  user : ℕ
  installId : Text
  fcmToken : Text
  active : Bool
deriving DecidableEq

/-- `MAX_EMAIL_ATTEMPTS`, `MAX_PUSH_ATTEMPTS` -/
def maxEmailAttempts : ℕ := 8

def maxPushAttempts : ℕ := 5

/-- The wait after a failed attempt, with `BASE_BACKOFF_SECONDS = 30`. -/
def backoff (attempts : ℕ) : ℕ := 30 * 2 ^ min (attempts - 1) 6 * second

/-- The statuses `process_delivery` leaves alone. SOURCE: services.py:236-241 -/
def DeliveryRow.final (r : DeliveryRow) : Bool :=
  r.status = .sent || r.status = .available || r.status = .dead

/-- The rows a claim takes. SOURCE: services.py:212-218 -/
def DeliveryRow.due (now : ℕ) (r : DeliveryRow) : Bool :=
  r.status = .pending || r.status = .failed && r.nextRetryAt.any (· ≤ now)

/-- `_event_code_from_key` -/
def eventCodeFromKey (eventKey : Text) : Text := eventKey.takeWhile (· ≠ ':')

/-- `delivery.event_code or _event_code_from_key(delivery.event_key)` -/
def DeliveryRow.code (r : DeliveryRow) : Text :=
  if r.eventCode = [] then eventCodeFromKey r.eventKey else r.eventCode

/-- `claim_pending_deliveries`: oldest first, without the rows other transactions hold.
SOURCE: services.py:205-223 -/
def claimPendingDeliveries (rows : Table DeliveryRow) (held : ℕ → Bool) (now limit : ℕ) :
    List (ℕ × DeliveryRow) :=
  (((rows.select (·.due now)).filter fun r => !held r.1).insertionSort fun a b =>
    a.2.createdAt < b.2.createdAt ∨ a.2.createdAt = b.2.createdAt ∧ a.1 ≤ b.1).take limit

/-! ## What an attempt saves -/

/-- The mail server took the message. SOURCE: services.py:286-297 -/
def DeliveryRow.mailSent (now : ℕ) (r : DeliveryRow) : DeliveryRow :=
  { r with status := .sent, attempts := r.attempts + 1, lastError := [], nextRetryAt := none,
           updatedAt := now }

/-- `send_mail` raised at `failedAt`. SOURCE: services.py:265-284 -/
def DeliveryRow.mailFailed (failedAt now : ℕ) (error : Text) (r : DeliveryRow) : DeliveryRow :=
  if maxEmailAttempts ≤ r.attempts + 1 then
    { r with status := .dead, attempts := r.attempts + 1, lastError := error.take 2000,
             nextRetryAt := none, updatedAt := now }
  else
    { r with status := .failed, attempts := r.attempts + 1, lastError := error.take 2000,
             nextRetryAt := some (failedAt + backoff (r.attempts + 1)), updatedAt := now }

/-- An in-app notice is made available. SOURCE: services.py:243-250 -/
def DeliveryRow.makeAvailable (now : ℕ) (r : DeliveryRow) : DeliveryRow :=
  { r with status := .available, attempts := r.attempts + 1, lastError := [], updatedAt := now }

/-- A push that is not sent. SOURCE: services.py:410-428 -/
def DeliveryRow.suppress (reason : Text) (now : ℕ) (r : DeliveryRow) : DeliveryRow :=
  { r with status := .sent, lastError := "suppressed:".toList ++ reason, updatedAt := now }

/-- The end of a push attempt that began at `startedAt`: `sent` are the devices that have it, and
`transient` is the text of the last transient error. SOURCE: services.py:456-486 -/
def DeliveryRow.pushed (startedAt now : ℕ) (sent : List ℕ) (transient : Option Text)
    (r : DeliveryRow) : DeliveryRow :=
  let r := { r with attempts := r.attempts + 1, pushSentDeviceIds := sent, updatedAt := now }
  match transient with
  | some error =>
    if maxPushAttempts ≤ r.attempts then
      { r with status := .failed, lastError := error, nextRetryAt := none }
    else
      { r with status := .failed, lastError := error,
               nextRetryAt := some (startedAt + backoff r.attempts) }
  | none =>
    if sent ≠ [] then { r with status := .sent, lastError := [], nextRetryAt := none }
    else
      { r with status := .sent, lastError := "suppressed:all_tokens_terminal".toList,
               nextRetryAt := none }

/-! ## The push provider -/

/-- The errors of `firebase_admin` that `classify_push_error` tells apart, with their texts. -/
inductive PushError where
  | unregistered (message : Text)
  | senderIdMismatch (message : Text)
  | invalidArgument (message : Text)
  | other (message : Text)
deriving DecidableEq

def PushError.message : PushError → Text
  | .unregistered m | .senderIdMismatch m | .invalidArgument m | .other m => m

structure PushConfig where
  /-- `str.lower` -/
  lower : Text → Text
  /-- `timezone.localdate` of a time -/
  localDate : ℕ → ℤ
  /-- `PUSH_DAILY_CAP_PER_CATEGORY` -/
  dailyCap : ℕ

/-- `classify_push_error` answers `terminal`. SOURCE: push.py:79-105 -/
def PushError.terminal (P : PushConfig) : PushError → Bool
  | .unregistered _ | .senderIdMismatch _ => true
  | .invalidArgument m =>
    ["registration token", "not a valid fcm", "invalid registration",
      "requested entity was not found"].any fun needle => needle.toList <:+: P.lower m
  | .other _ => false

/-- `_daily_push_cap_reached`. SOURCE: services.py:379-402 -/
def dailyPushCapReached (P : PushConfig) (rows : Table DeliveryRow) (now : ℕ) (r : DeliveryRow) :
    Bool :=
  r.code = "ledger.publication".toList &&
    P.dailyCap ≤ (rows.select fun d => d.recipient = r.recipient && d.channel = .push &&
      d.eventCode = r.code && d.status = .sent && d.lastError = [] &&
      P.localDate d.updatedAt = P.localDate now).length

/-- The active devices of a user. -/
def activeDevices (devices : Table Device) (user : ℕ) : List ℕ :=
  (devices.select fun d => d.user = user && d.active).map Prod.fst

/-- `register_device`. SOURCE: devices.py:12-54 -/
def registerDevice (devices : Table Device) (user : ℕ) (installId token : Text) : Table Device :=
  let devices := devices.mapRows fun _ d =>
    if d.fcmToken = token && d.active && !(d.user = user && d.installId = installId) then
      { d with active := false } else d
  match devices.first? fun d => d.user = user && d.installId = installId with
  | some (pk, _) => devices.update pk fun d => { d with fcmToken := token, active := true }
  | none => devices.insert ⟨user, installId, token, true⟩

/-- The devices of a list are deactivated: a logout, or a token the provider refuses for good. -/
def deactivateDevices (devices : Table Device) (pks : List ℕ) : Table Device :=
  devices.mapRows fun pk d => if pk ∈ pks then { d with active := false } else d

/-! ## Workers -/

/-- How far a worker is with the row it has taken, which it holds as it read it. -/
inductive Job where
  | idle
  | mailing (pk : ℕ) (row : DeliveryRow)
  | mailed (pk : ℕ) (row : DeliveryRow) (endedAt : ℕ) (error : Option Text)
  | pushing (pk : ℕ) (row : DeliveryRow) (startedAt : ℕ) (devices sent terminal : List ℕ)
      (transient : Option Text)
deriving DecidableEq

/-- The row a job holds. -/
def Job.pk? : Job → Option ℕ
  | .idle => none
  | .mailing pk _ | .mailed pk _ _ _ | .pushing pk _ _ _ _ _ _ => some pk

/-- The rows of the last claim that are still to be processed, and the row in work. -/
structure Sender where
  claimed : List (ℕ × DeliveryRow)
  job : Job

/-- An attempt on a row, which was as `row` says. -/
structure Attempt where
  pk : ℕ
  startedAt : ℕ
  row : DeliveryRow
deriving DecidableEq

/-- `holder` is the worker whose transaction has the lock of a row; `eligible` says that a user may
get push messages about a building (`_recipient_can_receive_push`). -/
structure DeliverySystem (W : Type) where
  now : ℕ
  rows : Table DeliveryRow
  devices : Table Device
  eligible : ℕ → Option ℕ → Bool
  holder : ℕ → Option W
  worker : W → Sender
  attempted : List Attempt
  mailed : List ℕ
  pushed : List (ℕ × ℕ)

inductive SendAction (W : Type) where
  | tick (elapsed : ℕ)
  | queue (recipient : ℕ) (building : Option ℕ) (eventKey eventCode : Text) (channel : Channel)
  | publishInApp (pk : ℕ)
  | withdrawInApp (pk : ℕ)
  | registerDevice (user : ℕ) (installId token : Text)
  | deactivateDevices (pks : List ℕ)
  | setEligible (eligible : ℕ → Option ℕ → Bool)
  | claim (w : W) (limit : ℕ)
  | take (w : W) (order : List ℕ)
  | mail (w : W) (error : Option Text)
  | push (w : W) (error : Option PushError)
  | save (w : W)
  | stop (w : W)

namespace DeliverySystem

variable {W : Type} [DecidableEq W]

def empty : DeliverySystem W where
  now := 0
  rows := .empty
  devices := .empty
  eligible _ _ := true
  holder _ := none
  worker _ := ⟨[], .idle⟩
  attempted := []
  mailed := []
  pushed := []

def setWorker (s : DeliverySystem W) (w : W) (sender : Sender) : DeliverySystem W :=
  { s with worker := Function.update s.worker w sender }

/-- A new row of `queue_notification`. SOURCE: services.py:145-157 -/
def queued (s : DeliverySystem W) (recipient : ℕ) (building : Option ℕ) (eventKey eventCode : Text)
    (channel : Channel) : DeliveryRow where
  recipient := recipient
  building := building
  eventKey := eventKey
  eventCode := eventCode
  channel := channel
  status := .pending
  attempts := 0
  nextRetryAt := none
  lastError := []
  pushSentDeviceIds := []
  createdAt := s.now
  updatedAt := s.now

/-- The row is saved in one transaction without a send. -/
def rewrite (s : DeliverySystem W) (w : W) (rest : List (ℕ × DeliveryRow)) (pk : ℕ)
    (f : DeliveryRow → DeliveryRow) : DeliverySystem W :=
  { s with rows := s.rows.update pk f }.setWorker w ⟨rest, .idle⟩

/-- An attempt on the row begins. -/
def begin (s : DeliverySystem W) (w : W) (rest : List (ℕ × DeliveryRow)) (pk : ℕ) (row : DeliveryRow)
    (job : Job) : DeliverySystem W :=
  { s with
    holder := Function.update s.holder pk (some w)
    attempted := ⟨pk, s.now, row⟩ :: s.attempted }.setWorker w ⟨rest, job⟩

/-- `_process_push_delivery` up to the first send. SOURCE: services.py:405-436 -/
def takePush (P : PushConfig) (s : DeliverySystem W) (w : W) (rest : List (ℕ × DeliveryRow))
    (pk : ℕ) (row : DeliveryRow) (order : List ℕ) : Option (DeliverySystem W) :=
  let devices := activeDevices s.devices row.recipient
  if !s.eligible row.recipient row.building then
    some (s.rewrite w rest pk (·.suppress "recipient_ineligible".toList s.now))
  else if devices = [] then
    some (s.rewrite w rest pk (·.suppress "no_active_devices".toList s.now))
  else if dailyPushCapReached P s.rows s.now row then
    some (s.rewrite w rest pk (·.suppress "daily_cap".toList s.now))
  -- The query has no order: the devices come in any.
  else if order.Perm devices then
    some (s.begin w rest pk row (.pushing pk row s.now order row.pushSentDeviceIds [] none))
  else none

/-- `process_delivery` up to the first send, for the next row of the claim. The row is looked up
again under its lock. SOURCE: services.py:226-262 -/
def take (P : PushConfig) (s : DeliverySystem W) (w : W) (order : List ℕ) :
    Option (DeliverySystem W) :=
  match s.worker w with
  | ⟨(pk, _) :: rest, .idle⟩ =>
    match s.rows.get? pk with
    | none => some (s.setWorker w ⟨rest, .idle⟩)
    | some row =>
      if s.holder pk ≠ none then none
      else if row.final then some (s.setWorker w ⟨rest, .idle⟩)
      else match row.channel with
        | .inApp =>
          some ({ s with attempted := ⟨pk, s.now, row⟩ :: s.attempted }.rewrite w rest pk
            (·.makeAvailable s.now))
        | .push => s.takePush P w rest pk row order
        | .email => some (s.begin w rest pk row (.mailing pk row))
  | _ => none

/-- `send_mail` returns or raises. -/
def mail (s : DeliverySystem W) (w : W) (error : Option Text) : Option (DeliverySystem W) :=
  match s.worker w with
  | ⟨rest, .mailing pk row⟩ =>
    some ({ s with mailed := if error = none then pk :: s.mailed else s.mailed }.setWorker w
      ⟨rest, .mailed pk row s.now error⟩)
  | _ => none

/-- One round of the loop over the devices. SOURCE: services.py:436-454 -/
def push (P : PushConfig) (s : DeliverySystem W) (w : W) (error : Option PushError) :
    Option (DeliverySystem W) :=
  match s.worker w with
  | ⟨rest, .pushing pk row startedAt (d :: devices) sent terminal transient⟩ =>
    if d ∈ sent then
      some (s.setWorker w ⟨rest, .pushing pk row startedAt devices sent terminal transient⟩)
    else match error with
      | none =>
        some ({ s with pushed := (pk, d) :: s.pushed }.setWorker w
          ⟨rest, .pushing pk row startedAt devices (sent ++ [d]) terminal transient⟩)
      | some e =>
        if e.terminal P then
          some (s.setWorker w
            ⟨rest, .pushing pk row startedAt devices sent (d :: terminal) transient⟩)
        else
          some (s.setWorker w
            ⟨rest, .pushing pk row startedAt devices sent terminal (some (e.message.take 2000))⟩)
  | _ => none

/-- The row is saved, and the transaction ends. -/
def finish (s : DeliverySystem W) (w : W) (rest : List (ℕ × DeliveryRow)) (pk : ℕ)
    (f : DeliveryRow → DeliveryRow) : DeliverySystem W :=
  { s with holder := Function.update s.holder pk none }.rewrite w rest pk f

/-- The save at the end of an attempt. -/
def save (s : DeliverySystem W) (w : W) : Option (DeliverySystem W) :=
  match s.worker w with
  | ⟨rest, .mailed pk _ _ none⟩ => some (s.finish w rest pk (·.mailSent s.now))
  | ⟨rest, .mailed pk _ failedAt (some error)⟩ =>
    some (s.finish w rest pk (·.mailFailed failedAt s.now error))
  | ⟨rest, .pushing pk _ startedAt [] sent terminal transient⟩ =>
    some ({ s with devices := deactivateDevices s.devices terminal }.finish w rest pk
      (·.pushed startedAt s.now sent transient))
  | _ => none

/-- The worker stops; the transaction it is in is rolled back. -/
def stop (s : DeliverySystem W) (w : W) : DeliverySystem W :=
  match (s.worker w).job.pk? with
  | none => s.setWorker w ⟨[], .idle⟩
  | some pk => { s with holder := Function.update s.holder pk none }.setWorker w ⟨[], .idle⟩

/-- One step. A row is unique for its recipient, key and channel; the in-app rows of announcements
and bills are also written by the services that publish them. -/
def step (P : PushConfig) (s : DeliverySystem W) : SendAction W → Option (DeliverySystem W)
  | .tick elapsed => some { s with now := s.now + elapsed }
  | .queue recipient building eventKey eventCode channel =>
    if s.rows.any fun r => r.recipient = recipient && r.eventKey = eventKey && r.channel = channel
    then none
    else some { s with
      rows := s.rows.insert (s.queued recipient building eventKey eventCode channel) }
  | .publishInApp pk =>
    some { s with rows := s.rows.update pk fun r =>
      if r.channel = .inApp then { r with status := .available } else r }
  | .withdrawInApp pk =>
    some { s with rows := s.rows.remove fun key r => key = pk && r.channel = .inApp }
  | .registerDevice user installId token =>
    some { s with devices := LamTo.Model.registerDevice s.devices user installId token }
  | .deactivateDevices pks =>
    some { s with devices := LamTo.Model.deactivateDevices s.devices pks }
  | .setEligible eligible => some { s with eligible }
  | .claim w limit =>
    match s.worker w with
    | ⟨[], .idle⟩ => some (s.setWorker w
        ⟨claimPendingDeliveries s.rows (fun pk => (s.holder pk).isSome) s.now limit, .idle⟩)
    | _ => none
  | .take w order => s.take P w order
  | .mail w error => s.mail w error
  | .push w error => s.push P w error
  | .save w => s.save w
  | .stop w => some (s.stop w)

end DeliverySystem

end LamTo.Model
