import LamTo.Library.Constraint
import LamTo.Model.Login

/-!
# Registrations of residents

Any number of calls of the five functions run beside each other, each in a transaction of its own.
A step is a statement, or a group of statements that read, and rewrite what the call has locked.
Between two steps time passes, buildings and managers change, and other accounts are made.

A request past its time expires when somebody looks: the worker, a new submission, a status query,
a decision. A call that raises leaves nothing, so what it has expired by then is pending again.

Audit events are left out, and so are the locks that a decision takes on the unit and its building:
they only keep calls apart.

SOURCE: src/lamto/accounts/registration.py, models.py:13-35, 84-131
-/

set_option autoImplicit false

namespace LamTo.Model

open LamTo.Library

/-- What registrations take from elsewhere beside what the login does: `str.casefold`, and the
hash of a password under a salt, which is not empty. -/
structure RegistrationConfig extends LoginConfig where
  casefold : Text → Text
  makePassword : Text → Text → Text
  makePassword_ne : ∀ salt password, makePassword salt password ≠ []

/-! ## Rows -/

/-- `RegistrationRequest.Status`. -/
inductive RegistrationStatus where
  | pending
  | approved
  | rejected
  | expired
deriving DecidableEq

structure RegistrationRequest where
  fullName : Text
  phone : Text
  email : Option Text
  building : ℕ
  unit : ℕ
  passwordHash : Text
  statusTokenDigest : Text
  status : RegistrationStatus
  rejectionReason : Text
  decidedBy : Option ℕ
  decidedAt : Option ℕ
  updatedAt : ℕ
  expiresAt : ℕ
deriving DecidableEq

/-- `ResidentOccupancy`. -/
structure UnitOccupancy where
  user : ℕ
  unit : ℕ
  active : Bool
deriving DecidableEq

namespace RegistrationRequest

/-- The request is pending, and its time is over. -/
def overdue (now : ℕ) (r : RegistrationRequest) : Bool := r.status = .pending && r.expiresAt ≤ now

/-- What `_expire_requests` makes of a request. SOURCE: registration.py:40-48 -/
def expire (now : ℕ) (r : RegistrationRequest) : RegistrationRequest :=
  { r with status := .expired, passwordHash := [], decidedAt := some now, updatedAt := now }

/-- SOURCE: registration.py:166-178 -/
def approve (actor now : ℕ) (r : RegistrationRequest) : RegistrationRequest :=
  { r with
    status := .approved, passwordHash := [], decidedBy := some actor, decidedAt := some now,
    updatedAt := now }

/-- SOURCE: registration.py:215-229 -/
def reject (actor now : ℕ) (reason : Text) (r : RegistrationRequest) : RegistrationRequest :=
  { r with
    status := .rejected, passwordHash := [], rejectionReason := reason, decidedBy := some actor,
    decidedAt := some now, updatedAt := now }

/-- `unique_pending_registration_phone` and `unique_pending_registration_email`. -/
def clashes (a b : RegistrationRequest) : Bool :=
  a.status = .pending && b.status = .pending &&
    (a.phone = b.phone || (a.email.isSome && a.email = b.email))

/-- The unique constraint on `status_token_digest`. -/
def sameToken (a b : RegistrationRequest) : Bool := a.statusTokenDigest = b.statusTokenDigest

end RegistrationRequest

/-- The unique columns of `User`. -/
def sameAccount (a b : LoginUser) : Bool :=
  (a.email.isSome && a.email = b.email) || (a.phone.isSome && a.phone = b.phone)

/-- The account of a request, as `User.save` stores it. SOURCE: registration.py:156-163,
models.py:27-35 -/
def accountOf (L : LoginConfig) (r : RegistrationRequest) : LoginUser where
  email := r.email
  phone := some ((normalizePhone L r.phone).getD r.phone)
  password := r.passwordHash
  isActive := true

/-! ## Calls -/

structure Submission where
  fullName : Text
  phone : Text
  email : Option Text
  password : Text
  building : ℕ
  unit : ℕ
deriving DecidableEq

inductive RegistrationCall where
  | submit (submission : Submission)
  | expire (limit : ℕ) (now : Option ℕ)
  | status (token : Text)
  | approve (request actor : ℕ)
  | reject (request actor : ℕ) (reason : Text)
deriving DecidableEq

inductive RegistrationResult where
  | submitted (request : ℕ) (token : Text)
  | expired (count : ℕ)
  | found (request : ℕ)
  | approved (user : ℕ)
  | rejected
  | conflict
  | doesNotExist
  | permissionDenied
  | missingReason
  | integrity
  | database
  | connection
deriving DecidableEq

/-- What a submission has worked out: the phone in its two forms, and the email. -/
structure Contact where
  userPhone : Text
  phone : Text
  email : Option Text
deriving DecidableEq

/-- How far a call is; `closing` has only its commit before it. -/
inductive RegistrationPhase where
  | idle
  | releasing (submission : Submission) (contact : Contact)
  | sweeping (submission : Submission) (contact : Contact)
  | comparing (submission : Submission) (contact : Contact)
  | inserting (submission : Submission) (contact : Contact)
  | approving (request actor now : ℕ) (row : RegistrationRequest)
  | enrolled (request actor now : ℕ) (row : RegistrationRequest) (user : ℕ)
  | closing (call : RegistrationCall) (result : RegistrationResult)
  | finished (call : RegistrationCall) (result : RegistrationResult)
deriving DecidableEq

/-- The call that a phase belongs to. -/
def RegistrationPhase.call? : RegistrationPhase → Option RegistrationCall
  | .idle | .finished _ _ => none
  | .releasing submission _ | .sweeping submission _ | .comparing submission _
  | .inserting submission _ => some (.submit submission)
  | .approving request actor _ _ | .enrolled request actor _ _ _ => some (.approve request actor)
  | .closing call _ => some call

structure RegistrationState (C : Type) where
  now : ℕ
  unitBuilding : Table ℕ
  manages : ℕ → ℕ → Bool
  requests : Versions C RegistrationRequest
  users : Versions C LoginUser
  occupancies : Versions C UnitOccupancy
  phase : C → RegistrationPhase

inductive RegistrationAction (C : Type) where
  | tick (elapsed : ℕ)
  | setPremises (unitBuilding : Table ℕ) (manages : ℕ → ℕ → Bool)
  | otherUser (user : LoginUser)
  | begin (c : C) (call : RegistrationCall)
  | next (c : C) (salt token : Text)
  | disconnect (c : C)

/-- The email of a submission. SOURCE: registration.py:69-73 -/
def submittedEmail (R : RegistrationConfig) (email : Option Text) : Option Text :=
  email.bind fun email =>
    if strip R.unicode email = [] then none
    else some (R.casefold (normalizeEmail R.toLoginConfig (strip R.unicode email)))

/-- `"+84" + user_phone[1:]` -/
def internationalPhone (userPhone : Text) : Text := "+84".toList ++ userPhone.drop 1

/-- `status_token_digest`. SOURCE: registration.py:36-37 -/
def statusTokenDigest (L : LoginConfig) (token : Text) : Text :=
  L.hashing.sha256hex ⟨(Utf8.encode token).toArray⟩

/-- `timedelta(days=30)` -/
def registrationLifetime : ℕ := 30 * 86400 * second

/-- The row of a submission. SOURCE: registration.py:104-115 -/
def submittedRow (R : RegistrationConfig) (submission : Submission) (contact : Contact)
    (salt token : Text) (now : ℕ) : RegistrationRequest where
  fullName := strip R.unicode submission.fullName
  phone := contact.phone
  email := contact.email
  building := submission.building
  unit := submission.unit
  passwordHash := R.makePassword salt submission.password
  statusTokenDigest := statusTokenDigest R.toLoginConfig token
  status := .pending
  rejectionReason := []
  decidedBy := none
  decidedAt := none
  updatedAt := now
  expiresAt := now + registrationLifetime

/-- The text columns of a request hold it. -/
def RegistrationRequest.fits (r : RegistrationRequest) : Bool :=
  r.fullName.length ≤ 150 && !r.fullName.contains nul &&
    r.email.all fun email => email.length ≤ 254 && !email.contains nul

namespace RegistrationState

variable {C : Type} [DecidableEq C]

def empty (now : ℕ) (unitBuilding : Table ℕ) (manages : ℕ → ℕ → Bool) : RegistrationState C where
  now := now
  unitBuilding := unitBuilding
  manages := manages
  requests := .empty
  users := .empty
  occupancies := .empty
  phase _ := .idle

def setPhase (s : RegistrationState C) (c : C) (phase : RegistrationPhase) :
    RegistrationState C :=
  { s with phase := Function.update s.phase c phase }

def rollback (s : RegistrationState C) (c : C) : RegistrationState C :=
  { s with
    requests := s.requests.rollback c
    users := s.users.rollback c
    occupancies := s.occupancies.rollback c }

def commit (s : RegistrationState C) (c : C) : RegistrationState C :=
  { s with
    requests := s.requests.commit c
    users := s.users.commit c
    occupancies := s.occupancies.commit c }

/-- A call raises: its transaction is rolled back. -/
def raise (s : RegistrationState C) (c : C) (call : RegistrationCall)
    (result : RegistrationResult) : RegistrationState C :=
  (s.rollback c).setPhase c (.finished call result)

/-- `_expire_requests`. SOURCE: registration.py:40-48 -/
def expireRequests (s : RegistrationState C) (c : C) (now : ℕ)
    (rows : List (ℕ × RegistrationRequest)) : RegistrationState C :=
  { s with
    requests := rows.foldl (fun v r => v.write c r.1 (some (r.2.expire now))) s.requests }

/-- The overdue requests nobody holds, those first that are due first.
SOURCE: registration.py:53-62 -/
def expirable (s : RegistrationState C) (c : C) (now limit : ℕ) :
    List (ℕ × RegistrationRequest) :=
  (((s.requests.view c).rows.filter fun r =>
    r.2.overdue now && !s.requests.locked c r.1).mergeSort
      fun a b => decide (a.2.expiresAt ≤ b.2.expiresAt)).take limit

/-- The overdue requests with the phone or the email. SOURCE: registration.py:80-90 -/
def stale (s : RegistrationState C) (c : C) (contact : Contact) :
    List (ℕ × RegistrationRequest) :=
  (s.requests.view c).rows.filter fun r => r.2.overdue s.now &&
    (r.2.phone = contact.phone || (contact.email.isSome && r.2.email = contact.email))

/-- An account or a pending request has the phone or the email.
SOURCE: registration.py:93-103 -/
def taken (R : RegistrationConfig) (s : RegistrationState C) (c : C) (contact : Contact) : Bool :=
  ((s.users.view c).any fun u => u.phone = some contact.userPhone ||
    contact.email.any fun email => u.email.any fun e => R.fold e = R.fold email) ||
  (s.requests.view c).any fun r => r.status = .pending &&
    (r.phone = contact.phone || (contact.email.isSome && r.email = contact.email))

/-! ## The first statements -/

/-- SOURCE: registration.py:68-78 -/
def beginSubmit (R : RegistrationConfig) (s : RegistrationState C) (c : C)
    (submission : Submission) : RegistrationState C :=
  match normalizePhone R.toLoginConfig submission.phone with
  | none => s.raise c (.submit submission) .conflict
  | some userPhone =>
    if s.unitBuilding.get? submission.unit = some submission.building then
      s.setPhase c (.releasing submission
        ⟨userPhone, internationalPhone userPhone, submittedEmail R submission.email⟩)
    else s.raise c (.submit submission) .conflict

/-- `expire_registration_requests`. SOURCE: registration.py:51-64 -/
def beginExpire (s : RegistrationState C) (c : C) (limit : ℕ) (now : Option ℕ) :
    RegistrationState C :=
  let time := now.getD s.now
  let rows := s.expirable c time limit
  (s.expireRequests c time rows).setPhase c (.closing (.expire limit now) (.expired rows.length))

/-- `get_registration_status`. SOURCE: registration.py:125-136 -/
def beginStatus (R : RegistrationConfig) (s : RegistrationState C) (c : C) (token : Text) :
    Option (RegistrationState C) :=
  match s.requests.committed.first? fun r =>
      r.statusTokenDigest = statusTokenDigest R.toLoginConfig token with
  | none => some (s.raise c (.status token) .doesNotExist)
  | some (pk, row) =>
    if s.requests.locked c pk then none
    else if row.overdue s.now then
      some ((s.expireRequests c s.now [(pk, row)]).setPhase c (.closing (.status token) (.found pk)))
    else some (s.setPhase c (.closing (.status token) (.found pk)))

/-- The request of a decision, locked, with the manager and the status checked; a request past its
time expires. SOURCE: registration.py:142-155, 203-214 -/
def decideOn (s : RegistrationState C) (c : C) (call : RegistrationCall) (request actor : ℕ)
    (decision : RegistrationRequest → RegistrationState C) : Option (RegistrationState C) :=
  match s.requests.committed.get? request with
  | none => some (s.raise c call .doesNotExist)
  | some row =>
    if s.requests.locked c request then none
    else if !s.manages actor row.building then some (s.raise c call .permissionDenied)
    else if row.status ≠ .pending then some (s.raise c call .conflict)
    else if row.expiresAt ≤ s.now then
      some ((s.expireRequests c s.now [(request, row)]).setPhase c (.closing call .conflict))
    else some (decision row)

/-- SOURCE: registration.py:139-155 -/
def beginApprove (s : RegistrationState C) (c : C) (request actor : ℕ) :
    Option (RegistrationState C) :=
  s.decideOn c (.approve request actor) request actor fun row =>
    { s with requests := s.requests.write c request (some row) }.setPhase c
      (.approving request actor s.now row)

/-- SOURCE: registration.py:197-229 -/
def beginReject (R : RegistrationConfig) (s : RegistrationState C) (c : C) (request actor : ℕ)
    (reason : Text) : Option (RegistrationState C) :=
  let call := RegistrationCall.reject request actor reason
  let reason := strip R.unicode reason
  if reason = [] then some (s.raise c call .missingReason)
  else s.decideOn c call request actor fun row =>
    { s with
      requests := s.requests.write c request (some (row.reject actor s.now reason)) }.setPhase c
        (.closing call .rejected)

/-! ## The other statements -/

/-- The stale requests of the contact expire, when nobody holds one of them.
SOURCE: registration.py:80-91 -/
def releaseStale (s : RegistrationState C) (c : C) (submission : Submission)
    (contact : Contact) : Option (RegistrationState C) :=
  let rows := s.stale c contact
  if rows.any fun r => s.requests.locked c r.1 then none
  else some ((s.expireRequests c s.now rows).setPhase c (.sweeping submission contact))

/-- SOURCE: registration.py:92 -/
def sweep (s : RegistrationState C) (c : C) (submission : Submission) (contact : Contact) :
    RegistrationState C :=
  (s.expireRequests c s.now (s.expirable c s.now 100)).setPhase c (.comparing submission contact)

/-- SOURCE: registration.py:93-103 -/
def compare (R : RegistrationConfig) (s : RegistrationState C) (c : C) (submission : Submission)
    (contact : Contact) : RegistrationState C :=
  if s.taken R c contact then s.raise c (.submit submission) .conflict
  else s.setPhase c (.inserting submission contact)

/-- The insertion of the request, and what its constraints refuse.
SOURCE: registration.py:104-121 -/
def insertRequest (R : RegistrationConfig) (s : RegistrationState C) (c : C)
    (submission : Submission) (contact : Contact) (salt token : Text) :
    Option (RegistrationState C) :=
  let row := submittedRow R submission contact salt token s.now
  if !row.fits then some (s.raise c (.submit submission) .database)
  else if s.requests.awaits c row.sameToken || s.requests.awaits c row.clashes then none
  else if (s.requests.view c).any row.sameToken then some (s.raise c (.submit submission) .integrity)
  else if (s.requests.view c).any row.clashes then
    some (s.raise c (.submit submission) .conflict)
  else some ({ s with requests := s.requests.insert c row }.setPhase c
    (.closing (.submit submission) (.submitted s.requests.committed.next token)))

/-- `user.save()`. SOURCE: registration.py:156-163 -/
def insertUser (L : LoginConfig) (s : RegistrationState C) (c : C) (request actor now : ℕ)
    (row : RegistrationRequest) : Option (RegistrationState C) :=
  let user := accountOf L row
  if s.users.awaits c (sameAccount user) then none
  else if (s.users.view c).any (sameAccount user) then
    some (s.raise c (.approve request actor) .conflict)
  else some ({ s with users := s.users.insert c user }.setPhase c
    (.enrolled request actor now row s.users.committed.next))

/-- The occupancy and the decision. SOURCE: registration.py:164-178 -/
def settle (s : RegistrationState C) (c : C) (request actor now : ℕ) (row : RegistrationRequest)
    (user : ℕ) : RegistrationState C :=
  { s with
    occupancies := s.occupancies.insert c ⟨user, row.unit, true⟩
    requests := s.requests.write c request (some (row.approve actor now)) }.setPhase c
      (.closing (.approve request actor) (.approved user))

/-- The next statement of a call. -/
def next (R : RegistrationConfig) (s : RegistrationState C) (c : C) (salt token : Text) :
    Option (RegistrationState C) :=
  match s.phase c with
  | .idle | .finished _ _ => none
  | .releasing submission contact => s.releaseStale c submission contact
  | .sweeping submission contact => some (s.sweep c submission contact)
  | .comparing submission contact => some (s.compare R c submission contact)
  | .inserting submission contact => s.insertRequest R c submission contact salt token
  | .approving request actor now row => s.insertUser R.toLoginConfig c request actor now row
  | .enrolled request actor now row user => some (s.settle c request actor now row user)
  | .closing call result => some ((s.commit c).setPhase c (.finished call result))

/-- The connection of a call breaks. -/
def disconnect (s : RegistrationState C) (c : C) : Option (RegistrationState C) :=
  (s.phase c).call?.map fun call => s.raise c call .connection

def begin (R : RegistrationConfig) (s : RegistrationState C) (c : C) (call : RegistrationCall) :
    Option (RegistrationState C) :=
  if s.phase c = .idle then
    match call with
    | .submit submission => some (s.beginSubmit R c submission)
    | .expire limit now => some (s.beginExpire c limit now)
    | .status token => s.beginStatus R c token
    | .approve request actor => s.beginApprove c request actor
    | .reject request actor reason => s.beginReject R c request actor reason
  else none

def step (R : RegistrationConfig) (s : RegistrationState C) :
    RegistrationAction C → Option (RegistrationState C)
  | .tick elapsed => some { s with now := s.now + elapsed }
  | .setPremises unitBuilding manages => some { s with unitBuilding, manages }
  | .otherUser user =>
    -- A row another transaction is about to commit would be waited for.
    if s.users.committed.any (sameAccount user) ||
        (List.range s.users.committed.next).any fun pk => (s.users.pending pk).any fun w =>
          w.row.any (sameAccount user) then none
    else some { s with users := s.users.insertNow user }
  | .begin c call => s.begin R c call
  | .next c salt token => s.next R c salt token
  | .disconnect c => s.disconnect c

end RegistrationState

end LamTo.Model
