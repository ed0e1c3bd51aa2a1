import LamTo.Library.Holding
import LamTo.Library.Transition
import LamTo.Model.Announcements
import LamTo.Model.Archive

/-!
# Bills under concurrent calls

Calls of `issue_bill`, `confirm_payment` and `void_bill` run as database transactions beside each
other. A step is one statement of one call, or a group of statements that only read: the row
inserted or taken under its lock, the checks and the save, the notices, the audit event, the
commit. Between two steps time passes and the rest of the archive changes, and a call may fail at
any point, which rolls its transaction back.

* The bills are the versions of this module; the bills of the archive beside them are not used.
* The version of the document that a bill names keeps its kind.
* The notices of other services, and what a worker makes of a notice, are left out.

SOURCE: src/lamto/billing/services.py, src/lamto/audit/services.py
-/

set_option autoImplicit false

namespace LamTo.Model

open LamTo.Library

/-! ## Notices and audit events -/

/-- `EVENT_BILL_ISSUED` -/
def eventBillIssued : Text := "building.bill_issued".toList

/-- `in_app_event_key` -/
def billInAppKey (bill : ℕ) : Text := eventBillIssued ++ ":bill:".toList ++ decimal bill

/-- `push_event_key` -/
def billPushKey (bill : ℕ) : Text := billInAppKey bill ++ ":issued".toList

/-- The digits in groups of three from the right. -/
def groupThousands : Text → Text
  | a :: b :: c :: d :: rest => a :: b :: c :: ',' :: groupThousands (d :: rest)
  | digits => digits

/-- `f"{title} — {amount_vnd:,}đ"` -/
def billSubject (b : Bill) : Text :=
  b.title ++ " — ".toList ++ (groupThousands (decimal b.amountVnd).reverse).reverse ++ "đ".toList

/-- What is queued for the resident of a bill, under the given key. -/
def billNotice (b : Bill) (eventKey : Text) : Notice where
  eventKey := eventKey
  subject := billSubject b
  body := b.note
  eventCode := eventBillIssued
  building := b.building

/-- The rows of the statements over the in-app notices of a bill. SOURCE: services.py:97-100 -/
def inBillFeed (bill : ℕ) (d : NotificationDelivery) : Bool :=
  d.eventKey = billInAppKey bill && d.channel = .inApp

/-- The row of an audit event about a bill. -/
def billEvent (actor : ℕ) (membership : Option ℕ) (action : String) (bill : ℕ)
    (metadata : List (Text × Json)) : AuditEvent where
  actor := actor
  membership := membership
  action := action
  targetType := "Bill"
  targetId := bill
  metadata := .obj (("bill_id".toList, .int bill) :: metadata)
  result := "accepted"

/-! ## Calls -/

inductive BillRequest where
  | issue (actor building resident document : ℕ) (terms : BillTerms)
  | confirm (bill actor : ℕ) (source : PaymentSource) (reference : Text)
  | void (actor bill : ℕ) (reason : Option Text)

/-- A call and its variables: the row it holds, its key, and the membership it acts under. -/
structure BillDraft where
  request : BillRequest
  id : ℕ
  row : Bill
  membership : Option ℕ

/-- How far a call is; `closing` has only its commit before it. -/
inductive BillPhase where
  | idle
  | locked (d : BillDraft)
  | saved (d : BillDraft)
  | noticed (d : BillDraft)
  | closing (d : BillDraft)
  | finished (request : BillRequest) (result : Except ServiceError ℕ)

/-- The request of an open call. -/
def BillPhase.request? : BillPhase → Option BillRequest
  | .idle | .finished _ _ => none
  | .locked d | .saved d | .noticed d | .closing d => some d.request

structure BillState (C : Type) where
  now : ℕ
  archive : Archive
  preferences : Table NotificationPreference
  activeDevice : ℕ → Bool
  pushEnabled : Bool
  bills : Versions C Bill
  deliveries : Versions C NotificationDelivery
  audit : Versions C AuditEvent
  phase : C → BillPhase

inductive BillAction (C : Type) where
  | tick (elapsed : ℕ)
  | others (archive : Archive)
  | setPreferences (preferences : Table NotificationPreference) (activeDevice : ℕ → Bool)
    (pushEnabled : Bool)
  | begin (c : C) (request : BillRequest)
  | next (c : C)
  | commit (c : C)
  | disconnect (c : C)

/-- The kind of the document that a version belongs to. -/
def versionKind (s : Archive) (version : ℕ) : Option DocumentKind :=
  (s.db.documentVersions.get? version).bind fun v =>
    (s.db.documents.get? v.document).map fun d => d.kind

namespace BillState

variable {C : Type} [DecidableEq C]

def empty (archive : Archive) : BillState C where
  now := 0
  archive := archive
  preferences := .empty
  activeDevice _ := false
  pushEnabled := true
  bills := .empty
  deliveries := .empty
  audit := .empty
  phase _ := .idle

def setPhase (s : BillState C) (c : C) (phase : BillPhase) : BillState C :=
  { s with phase := Function.update s.phase c phase }

/-- A call raises: its transaction is rolled back. -/
def raise (s : BillState C) (c : C) (request : BillRequest) (e : ServiceError) : BillState C :=
  { s with
    bills := s.bills.rollback c
    deliveries := s.deliveries.rollback c
    audit := s.audit.rollback c }.setPhase c (.finished request (.error e))

/-- The archive as a request of a resident sees it. -/
def committed (s : BillState C) : Archive := { s.archive with bills := s.bills.committed }

/-! ## The first statements -/

/-- The checks of `issue_bill`, the membership and the row. SOURCE: services.py:52-78 -/
def issued (s : BillState C) (actor building resident document : ℕ) (terms : BillTerms) :
    Except ServiceError (ℕ × Bill) := do
  let db := s.archive.db
  let (membership, _) ← requireManagement db actor building
  require (db.occupancies.any (fun o => o.user = resident && o.active && o.building = building)
      = true)
    (ServiceError.validation "Resident has no active occupancy in this building.")
  let version ← getRow "DocumentVersion" db.documentVersions document
  let d ← getRow "Document" db.documents version.document
  require (d.kind = .residentBill) (ServiceError.validation "Document must be a resident bill.")
  require (d.building = building)
    (ServiceError.validation "Document must belong to the target building.")
  let title ← textColumn "title" (some 160) terms.title
  let note ← textColumn "note" none terms.note
  let period ← textColumn "period" (some 64) terms.period
  let amountVnd ← positiveBigInt "amount_vnd" "bill_amount_positive" terms.amountVnd
  return (membership, {
    building, resident, title, note, period, dueDate := terms.dueDate, amountVnd, document,
    reference := terms.reference, status := .issued, paymentSource := none, issuedBy := actor,
    paidAt := none, paidConfirmedBy := none, voidBy := none, voidAt := none, voidReason := [] })

/-- `Bill.objects.select_for_update().get(pk=…)`: a row that another call holds is waited for. -/
def lock (s : BillState C) (c : C) (request : BillRequest) (bill : ℕ) : Option (BillState C) :=
  if s.bills.locked c bill then none
  else
    match s.bills.committed.get? bill with
    | none => some (s.raise c request (.doesNotExist "Bill"))
    | some row => some ({ s with bills := s.bills.write c bill (some row) }.setPhase c
        (.locked ⟨request, bill, row, none⟩))

/-- `(reason or "").strip()` -/
def voidReason (U : Unicode) (reason : Option Text) : Text := strip U (reason.getD [])

/-- The start of a call: `issue_bill` up to its insertion, the others up to the row under its lock.
SOURCE: services.py:52-78, 115, 150-153 -/
def begin (U : Unicode) (s : BillState C) (c : C) (request : BillRequest) :
    Option (BillState C) :=
  match s.phase c, request with
  | .idle, .issue actor building resident document terms =>
    match s.issued actor building resident document terms with
    | .error e => some (s.raise c request e)
    | .ok (membership, row) => some ({ s with bills := s.bills.insert c row }.setPhase c
        (.saved ⟨request, s.bills.committed.next, row, some membership⟩))
  | .idle, .confirm bill _ _ _ => s.lock c request bill
  | .idle, .void _ bill reason =>
    if voidReason U reason = [] then
      some (s.raise c request (.validation "A void reason is required."))
    else s.lock c request bill
  | _, _ => none

/-! ## The checks and the save -/

/-- The checks of `confirm_payment`, and its row: none when the bill is paid already.
SOURCE: services.py:116-135 -/
def confirmed (s : BillState C) (row : Bill) (actor : ℕ) (source : PaymentSource)
    (reference : Text) : Except ServiceError (Option Bill) := do
  require (row.status ≠ .void) (ServiceError.validation "BillVoidedError")
  require (reference = row.reference) (ServiceError.validation "BillReferenceError")
  require (source = .selfAttestedDemo → actor = row.resident)
    (ServiceError.validation "Self-attested payment must be confirmed by the bill resident.")
  if row.status = .paid then return none
  else
    return some { row with
      status := .paid, paymentSource := some source, paidAt := some s.now,
      paidConfirmedBy := some actor }

/-- The checks of `void_bill`, the membership and the row. SOURCE: services.py:154-161 -/
def voided (U : Unicode) (s : BillState C) (row : Bill) (actor : ℕ) (reason : Option Text) :
    Except ServiceError (ℕ × Bill) := do
  let (membership, _) ← requireManagement s.archive.db actor row.building
  require (row.status = .issued)
    (ServiceError.validation "Only an issued bill can be voided.")
  let reason ← textColumn "void_reason" none (voidReason U reason)
  return (membership, { row with
    status := .void, voidBy := some actor, voidAt := some s.now, voidReason := reason })

/-- The row of a call is written over the one it holds. -/
def save (s : BillState C) (c : C) (d : BillDraft) : BillState C :=
  { s with bills := s.bills.write c d.id (some d.row) }.setPhase c (.saved d)

/-- What a call on a locked bill does. -/
def settle (U : Unicode) (s : BillState C) (c : C) (d : BillDraft) : Option (BillState C) :=
  match d.request with
  | .issue .. => none
  | .confirm _ actor source reference =>
    match s.confirmed d.row actor source reference with
    | .error e => some (s.raise c d.request e)
    | .ok none => some (s.setPhase c (.closing d))
    | .ok (some row) => some (s.save c { d with row })
  | .void actor _ reason =>
    match s.voided U d.row actor reason with
    | .error e => some (s.raise c d.request e)
    | .ok (membership, row) => some (s.save c { d with row, membership := some membership })

/-! ## The notices -/

/-- The notification tables as a call sees them. -/
def notices (s : BillState C) (c : C) : Notices where
  deliveries := s.deliveries.view c
  preferences := s.preferences
  activeDevice := s.activeDevice
  pushEnabled := s.pushEnabled

/-- `queue_notification` on one channel. SOURCE: notifications/services.py:127-158 -/
def queueChannel (s : BillState C) (c : C) (recipient : ℕ) (notice : Notice) (channel : Channel) :
    Option (BillState C) :=
  if channel.enabled (s.notices c) recipient notice.eventCode then
    (s.deliveries.getOrInsert c (Bulletin.sameDelivery recipient notice channel)
      (Bulletin.delivery recipient notice channel)).map fun deliveries => { s with deliveries }
  else some s

/-- A statement over the in-app notices of a bill, which waits for a row that is held. -/
def overFeed (s : BillState C) (c : C) (bill : ℕ)
    (f : NotificationDelivery → Option NotificationDelivery) : Option (BillState C) :=
  if s.deliveries.lockedWhere c (inBillFeed bill) then none
  else some { s with deliveries := s.deliveries.updateWhere c (inBillFeed bill) f }

/-- The notices of a call: two are queued and the one in the app made available, or the one in the
app is deleted. SOURCE: services.py:79-100, 162-165 -/
def notify (s : BillState C) (c : C) (d : BillDraft) : Option (BillState C) :=
  match d.request with
  | .issue .. =>
    (s.queueChannel c d.row.resident (billNotice d.row (billInAppKey d.id)) .inApp).bind fun s =>
      (s.queueChannel c d.row.resident (billNotice d.row (billPushKey d.id)) .push).bind fun s =>
        s.overFeed c d.id fun row => some { row with status := .available }
  | .confirm .. => some s
  | .void .. => s.overFeed c d.id fun _ => none

/-! ## The audit event and the commit -/

/-- The event of a call. SOURCE: services.py:101-109, 136-144, 166-174 -/
def event (d : BillDraft) : AuditEvent :=
  match d.request with
  | .issue actor .. => billEvent actor d.membership "bill.issued" d.id
      [("amount_vnd".toList, .int d.row.amountVnd)]
  | .confirm _ actor source _ => billEvent actor d.membership "bill.payment_recorded" d.id
      [("source".toList, .str source.code)]
  | .void actor .. => billEvent actor d.membership "bill.voided" d.id []

/-- `record_audit`: a membership has to be the actor's and active, and without one only a payment
is recorded. SOURCE: audit/services.py:8-40 -/
def attributed (s : BillState C) (e : AuditEvent) : Bool :=
  match e.membership with
  | some membership =>
    (s.archive.db.memberships.get? membership).any fun m => m.user = e.actor && m.active
  | none => e.action = "bill.payment_recorded" && e.targetType = "Bill"

def recordEvent (s : BillState C) (c : C) (d : BillDraft) : BillState C :=
  if s.attributed (event d) then
    { s with audit := s.audit.insert c (event d) }.setPhase c (.closing d)
  else
    s.raise c d.request (.permissionDenied "Audit membership attribution is invalid.")

/-- The next statement of a call. -/
def next (U : Unicode) (s : BillState C) (c : C) : Option (BillState C) :=
  match s.phase c with
  | .locked d => s.settle U c d
  | .saved d => (s.notify c d).map fun s => s.setPhase c (.noticed d)
  | .noticed d => some (s.recordEvent c d)
  | .idle | .closing _ | .finished _ _ => none

/-- The end of a call that returns. -/
def commit (s : BillState C) (c : C) : Option (BillState C) :=
  match s.phase c with
  | .closing d => some ({ s with
      bills := s.bills.commit c
      deliveries := s.deliveries.commit c
      audit := s.audit.commit c }.setPhase c (.finished d.request (.ok d.id)))
  | _ => none

/-- The connection of a call breaks. -/
def disconnect (s : BillState C) (c : C) : Option (BillState C) :=
  (s.phase c).request?.map fun request => s.raise c request (.value "connection")

/-- The documents of the bills keep their kind. -/
def keepsKinds (s : BillState C) (archive : Archive) : Bool :=
  let kept (b : Bill) : Bool :=
    versionKind archive b.document = versionKind s.archive b.document
  (List.range s.bills.committed.next).all fun pk =>
    (s.bills.committed.get? pk).all kept && (s.bills.pending pk).all fun p => p.row.all kept

def step (U : Unicode) (s : BillState C) : BillAction C → Option (BillState C)
  | .tick elapsed => some { s with now := s.now + elapsed }
  | .others archive => if s.keepsKinds archive then some { s with archive } else none
  | .setPreferences preferences activeDevice pushEnabled =>
    some { s with preferences, activeDevice, pushEnabled }
  | .begin c request => s.begin U c request
  | .next c => s.next U c
  | .commit c => s.commit c
  | .disconnect c => s.disconnect c

end BillState

end LamTo.Model
