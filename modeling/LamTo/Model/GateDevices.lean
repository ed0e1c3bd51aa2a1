import LamTo.Model.Login

/-!
# Reader credentials

The embedding of how a gate reader gets its credential and shows it: issuing, rotating with a
grace period, revoking, and the authentication of a request.

* The token a call draws (`secrets.token_urlsafe`) is an argument of the call.
* Times are microseconds, a grace is in hours. An expiry past the year 9999 raises.
* A device may be switched off and on from outside; nothing in the source does it.

Only the columns these calls read or write are kept: a device's building, label and direction
are left out.

SOURCE: src/lamto/gate/devices.py, src/lamto/gate/models.py:147-204
-/

set_option autoImplicit false

namespace LamTo.Model

open LamTo.Library

/-- What issuing and rotating raise. -/
inductive CredentialError where
  | overflow
  | integrity (constraint : String)
deriving DecidableEq

structure GateDevice where
  active : Bool
  lastSeenHour : Option ℕ
deriving DecidableEq

structure GateDeviceCredential where
  device : ℕ
  tokenSha256 : Text
  createdAt : ℕ
  createdBy : ℕ
  expiresAt : Option ℕ
  revokedAt : Option ℕ
  revokedBy : Option ℕ
deriving DecidableEq

/-- The tables, the throttle and the clock. -/
structure ReaderState where
  now : ℕ
  devices : Table GateDevice
  credentials : Table GateDeviceCredential
  buckets : Buckets

/-- `_digest` -/
def tokenDigest (L : LoginConfig) (token : Text) : Text :=
  L.hashing.sha256hex ⟨(Utf8.encode token).toArray⟩

def hour : ℕ := 3600 * second

/-- `GateDeviceCredential.is_valid` -/
def GateDeviceCredential.isValid (c : GateDeviceCredential) (now : ℕ) : Bool :=
  if c.revokedAt ≠ none then false else c.expiresAt.all (now < ·)

/-! ## Issuing, rotating, revoking -/

/-- `issue_credential`: the key of the credential. SOURCE: devices.py:46-51 -/
def issueCredential (L : LoginConfig) (s : ReaderState) (device user : ℕ) (token : Text) :
    Except CredentialError (ℕ × ReaderState) := do
  require (s.credentials.any (fun c => c.tokenSha256 = tokenDigest L token) = false)
    (CredentialError.integrity "gate_gatedevicecredential_token_sha256_key")
  let credential : GateDeviceCredential := {
    device, tokenSha256 := tokenDigest L token, createdAt := s.now, createdBy := user,
    expiresAt := none, revokedAt := none, revokedBy := none }
  return (s.credentials.next, { s with credentials := s.credentials.insert credential })

/-- `timezone.now() + timedelta(hours=grace)` -/
def rotationExpiry (now graceHours : ℕ) : Except CredentialError ℕ := do
  require ((now + graceHours * hour) / second < 253402300800)
    CredentialError.overflow
  return now + graceHours * hour

/-- The bulk update of a rotation, on one row. SOURCE: devices.py:60-62 -/
def capExpiry (device expiry : ℕ) (c : GateDeviceCredential) : GateDeviceCredential :=
  if c.device = device ∧ c.revokedAt = none ∧ c.expiresAt.all (expiry < ·) = true then
    { c with expiresAt := some expiry }
  else c

/-- `rotate_credential`; `defaultGrace` is the setting, for a call without a grace.
SOURCE: devices.py:54-63 -/
def rotateCredential (L : LoginConfig) (defaultGrace : ℕ) (s : ReaderState) (device user : ℕ)
    (graceHours : Option ℕ) (token : Text) : Except CredentialError (ℕ × ReaderState) := do
  let expiry ← rotationExpiry s.now (graceHours.getD defaultGrace)
  let s := { s with credentials := s.credentials.mapRows fun _ => capExpiry device expiry }
  issueCredential L s device user token

/-- `revoke_credential`: the two columns, over whatever they held. SOURCE: devices.py:66-70 -/
def revokeCredential (s : ReaderState) (credential user : ℕ) : ReaderState :=
  { s with
    credentials := s.credentials.update credential fun c =>
      { c with revokedAt := some s.now, revokedBy := some user } }

/-! ## Authentication -/

/-- `timezone.now()` cut down to the hour. -/
def currentHour (now : ℕ) : ℕ := now / hour * hour

/-- `authenticate_device`. SOURCE: devices.py:73-95 -/
def authenticateReader (L : LoginConfig) (s : ReaderState) (ip token : Text) :
    GateResponse × ReaderState :=
  let digest := throttleDigest L gateThrottleAccount ip
  let failure := { s with buckets := recordAuthFailure s.buckets digest s.now }
  if throttled s.buckets digest s.now then (.throttled, s)
  else
    match s.credentials.first? fun c => c.tokenSha256 = tokenDigest L token with
    | none => (.failed, failure)
    | some (pk, c) =>
      if !(s.devices.get? c.device).any (fun d => d.active) then (.failed, failure)
      else if c.revokedAt ≠ none then (.revoked, failure)
      else if !c.isValid s.now then (.expired, failure)
      else
        let s := { s with buckets := resetAuthThrottle s.buckets digest }
        if (s.devices.get? c.device).any fun d => d.lastSeenHour ≠ some (currentHour s.now) then
          (.authenticated pk, { s with
            devices := s.devices.update c.device fun d =>
              { d with lastSeenHour := some (currentHour s.now) } })
        else (.authenticated pk, s)

/-! ## Histories -/

inductive ReaderAction where
  | tick (elapsed : ℕ)
  | issue (device user : ℕ) (token : Text)
  | rotate (device user : ℕ) (graceHours : Option ℕ) (token : Text)
  | revoke (credential user : ℕ)
  | setActive (device : ℕ) (active : Bool)
  | authenticate (ip token : Text)

/-- A call that returns; one that raises has written nothing. -/
def returnedReader (x : Except CredentialError (ℕ × ReaderState)) : Option ReaderState :=
  x.toOption.map Prod.snd

def readerStep (L : LoginConfig) (defaultGrace : ℕ) (s : ReaderState) :
    ReaderAction → Option ReaderState
  | .tick elapsed => some { s with now := s.now + elapsed }
  | .issue device user token => returnedReader (issueCredential L s device user token)
  | .rotate device user graceHours token =>
    returnedReader (rotateCredential L defaultGrace s device user graceHours token)
  | .revoke credential user => some (revokeCredential s credential user)
  | .setActive device active =>
    some { s with devices := s.devices.update device fun d => { d with active } }
  | .authenticate ip token => some (authenticateReader L s ip token).2

end LamTo.Model
