import LamTo.Library.Transition
import LamTo.Library.Utf8
import LamTo.Model.Maintenance

/-!
# Logging in

The login of the workspace (a form that authenticates while it is validated), the login of the
resident API and the authentication of gate readers, with the throttle they share. A bucket
counts the failures of an account and an address, and is found under a digest of the two; each
caller spells the account in its own way.

An attempt is one step at one time. The tables of Unicode, the comparison `iexact` of the
database and the check of a password hash are parameters. What a login issues (the session, the
token) and the audit trail are left out; a login is what its response says.

SOURCE: src/lamto/accounts/security.py:21-86, 126-146, accounts/backends.py,
api/services.py:25-37, web/views/security.py, api/views.py:145-200, gate/devices.py:73-95
-/

set_option autoImplicit false

namespace LamTo.Model

open LamTo.Library

/-- What the login takes from elsewhere: `str.lower`, `unicodedata.normalize` with form KC, the
fold under which the database compares with `iexact`, and the check of a password against its
stored hash. Lowering again changes nothing, an `@` parts what is lowered, and neither blanks nor
decimal digits have a case; a decimal digit is no blank. -/
structure LoginConfig where
  unicode : Unicode
  hashing : Hashing
  lower : Text → Text
  nfkc : Text → Text
  fold : Text → Text
  checkPassword : Text → Text → Bool
  lower_lower : ∀ t, lower (lower t) = lower t
  lower_at : ∀ a b, lower (a ++ '@' :: b) = lower a ++ '@' :: lower b
  lower_strip : ∀ t, strip unicode (lower t) = lower (strip unicode t)
  lower_decimal : ∀ t, (t.all fun c => (unicode.decimal c).isSome) = true ∨
    ((lower t).all fun c => (unicode.decimal c).isSome) = true → lower t = t
  decimal_not_space : ∀ c, (unicode.decimal c).isSome = true → unicode.isSpace c = false

/-- `\d` -/
def LoginConfig.isDecimal (L : LoginConfig) (c : Char) : Bool := (L.unicode.decimal c).isSome

/-! ## Accounts -/

structure LoginUser where
  email : Option Text
  phone : Option Text
  password : Text
  isActive : Bool
deriving DecidableEq

/-- What `_SEPARATORS` removes. -/
def isSeparator (L : LoginConfig) (c : Char) : Bool :=
  L.unicode.isSpace c || c = '.' || c = '-' || c = '(' || c = ')'

/-- `_VN_PHONE.fullmatch` -/
def isLocalPhone (L : LoginConfig) (value : Text) : Bool :=
  match value with
  | c :: rest => c = '0' && (rest.length = 9 || rest.length = 10) && rest.all L.isDecimal
  | [] => false

/-- The prefix of the country in place of the leading zero. SOURCE: backends.py:16-20 -/
def localPrefix (value : Text) : Text :=
  if "+84".toList.isPrefixOf value then '0' :: value.drop 3
  else if "84".toList.isPrefixOf value && 11 ≤ value.length then '0' :: value.drop 2
  else value

/-- `normalize_phone`. SOURCE: backends.py:12-23 -/
def normalizePhone (L : LoginConfig) (raw : Text) : Option Text :=
  let value := localPrefix (raw.filter fun c => !isSeparator L c)
  if isLocalPhone L value then some value else none

/-- `QuerySet.get`: the row, none, or `MultipleObjectsReturned`. -/
def getOne {α : Type} : List (ℕ × α) → Except Text (Option (ℕ × α))
  | [] => .ok none
  | [row] => .ok (some row)
  | _ => .error "MultipleObjectsReturned".toList

/-- The account of an identifier: by phone when it is one, else by email.
SOURCE: backends.py:34-39 -/
def lookUp (L : LoginConfig) (users : Table LoginUser) (username : Text) :
    Except Text (Option (ℕ × LoginUser)) :=
  match normalizePhone L username with
  | some phone => getOne (users.select fun u => u.phone = some phone)
  | none => getOne (users.select fun u => u.email.any fun e => L.fold e = L.fold username)

/-- `PhoneOrEmailBackend.authenticate`. SOURCE: backends.py:29-46 -/
def authenticate (L : LoginConfig) (users : Table LoginUser) (username password : Text) :
    Except Text (Option ℕ) :=
  match lookUp L users username with
  | .error e => .error e
  | .ok none => .ok none
  | .ok (some (pk, u)) =>
    .ok (if L.checkPassword u.password password && u.isActive then some pk else none)

/-- `normalize_email`: the domain in lower case. -/
def normalizeEmail (L : LoginConfig) (email : Text) : Text :=
  let email := strip L.unicode email
  if email.contains '@' then
    let domain := (email.reverse.takeWhile (· ≠ '@')).reverse
    email.take (email.length - domain.length) ++ L.lower domain
  else email

/-- `canonicalize_login_identifier`. SOURCE: api/services.py:25-37 -/
def canonicalizeLoginIdentifier (L : LoginConfig) (raw : Text) : Text :=
  let value := strip L.unicode raw
  match normalizePhone L value with
  | some phone => phone
  | none => L.lower (normalizeEmail L value)

/-! ## The throttle -/

/-- What a request says about its client. -/
structure Client where
  forwardedFor : Text
  remoteAddr : Text
deriving DecidableEq

/-- `client_ip`. SOURCE: security.py:26-30 -/
def clientIp (L : LoginConfig) (client : Client) : Text :=
  if client.forwardedFor ≠ [] then strip L.unicode (client.forwardedFor.takeWhile (· ≠ ','))
  else strip L.unicode client.remoteAddr

/-- The text `throttle_digest` hashes. -/
def throttleKey (L : LoginConfig) (account ip : Text) : Text :=
  L.lower (strip L.unicode account) ++ '|' :: strip L.unicode ip

/-- `throttle_digest`. SOURCE: security.py:21-23 -/
def throttleDigest (L : LoginConfig) (account ip : Text) : Text :=
  L.hashing.sha256hex ⟨(Utf8.encode (throttleKey L account ip)).toArray⟩

/-- `THROTTLE_MAX_FAILURES` -/
def throttleMaxFailures : ℕ := 5

/-- `THROTTLE_WINDOW_SECONDS` -/
def throttleWindow : ℕ := 15 * 60 * second

structure AuthThrottleBucket where
  failureCount : ℕ
  windowStartedAt : Option ℕ
  lockedUntil : Option ℕ
deriving DecidableEq

abbrev Buckets := Text → Option AuthThrottleBucket

/-- The bucket is locked at a time. -/
def AuthThrottleBucket.locked (b : AuthThrottleBucket) (now : ℕ) : Bool :=
  b.lockedUntil.any (now < ·)

/-- The window of the bucket is over, or was never opened. -/
def AuthThrottleBucket.windowOver (b : AuthThrottleBucket) (now : ℕ) : Bool :=
  b.windowStartedAt.all (· + throttleWindow < now)

/-- `assert_not_throttled` raises. SOURCE: security.py:37-54 -/
def throttled (buckets : Buckets) (digest : Text) (now : ℕ) : Bool :=
  (buckets digest).any (·.locked now)

/-- One more failure in a bucket. SOURCE: security.py:68-79 -/
def AuthThrottleBucket.fail (b : AuthThrottleBucket) (now : ℕ) : AuthThrottleBucket :=
  let b := if b.windowOver now then ⟨1, some now, none⟩
    else { b with failureCount := b.failureCount + 1 }
  if throttleMaxFailures ≤ b.failureCount then { b with lockedUntil := some (now + throttleWindow) }
  else b

/-- `record_auth_failure`. SOURCE: security.py:57-87 -/
def recordAuthFailure (buckets : Buckets) (digest : Text) (now : ℕ) : Buckets :=
  Function.update buckets digest
    (some (((buckets digest).getD ⟨0, some now, none⟩).fail now))

/-- `record_registration_attempt` on the bucket of the key; `none` is the refusal.
SOURCE: security.py:93-111 -/
def registrationAttempt (bucket : Option AuthThrottleBucket) (now : ℕ) :
    Option AuthThrottleBucket :=
  let b := bucket.getD ⟨0, some now, none⟩
  if b.locked now then none else some (b.fail now)

/-- `record_registration_attempt`; `none` is `PermissionDenied`, and the transaction leaves the
buckets as they were. SOURCE: security.py:89-119 -/
def recordRegistrationAttempt (buckets : Buckets) (digest : Text) (now : ℕ) : Option Buckets :=
  (registrationAttempt (buckets digest) now).map fun b => Function.update buckets digest (some b)

/-- `reset_auth_throttle`. SOURCE: security.py:126-143 -/
def resetAuthThrottle (buckets : Buckets) (digest : Text) : Buckets :=
  Function.update buckets digest ((buckets digest).map fun _ => ⟨0, none, none⟩)

/-! ## The state -/

structure GateCredential where
  tokenSha256 : Text
  deviceActive : Bool
  expiresAt : Option ℕ
  revokedAt : Option ℕ
deriving DecidableEq

/-- `resident` says that an account has an active occupancy. -/
structure LoginState where
  now : ℕ
  users : Table LoginUser
  resident : ℕ → Bool
  credentials : Table GateCredential
  buckets : Buckets

def LoginState.recordFailure (s : LoginState) (digest : Text) : LoginState :=
  { s with buckets := recordAuthFailure s.buckets digest s.now }

def LoginState.reset (s : LoginState) (digest : Text) : LoginState :=
  { s with buckets := resetAuthThrottle s.buckets digest }

/-! ## The login of the workspace -/

/-- What the form sends; a field that is missing is empty. -/
structure WebLogin where
  username : Text
  email : Text
  password : Text
deriving DecidableEq

/-- What the visitor sees: the next page, the form with its errors, or a server error. -/
inductive WebResponse where
  | loggedIn (user : ℕ)
  | form (username password general : List Text)
  | serverError
deriving DecidableEq

def requiredMessage : Text := "This field is required.".toList

def nullMessage : Text := "Null characters are not allowed.".toList

def invalidLoginMessage : Text :=
  "Please enter a correct email and password. Note that both fields may be case-sensitive.".toList

def tooManyMessage : Text := "Too many authentication attempts. Try again later.".toList

/-- The errors of a form field about its value. -/
def fieldErrors (value : Text) : List Text :=
  if value = [] then [requiredMessage] else if value.contains nul then [nullMessage] else []

/-- `UsernameField.to_python`: stripped and, unless it is too long for the column, in form KC. -/
def cleanedUsername (L : LoginConfig) (raw : Text) : Text :=
  let value := strip L.unicode raw
  if 254 < value.length then value else L.nfkc value

/-- The account whose failures the form counts. SOURCE: web/views/security.py:90-92 -/
def WebLogin.account (request : WebLogin) : Text :=
  if request.username ≠ [] then request.username else request.email

/-- `SecureLoginView.form_invalid`. SOURCE: web/views/security.py:88-117 -/
def formInvalid (L : LoginConfig) (s : LoginState) (ip : Text) (request : WebLogin)
    (username password general : List Text) : WebResponse × LoginState :=
  (.form username password general, s.recordFailure (throttleDigest L request.account ip))

/-- `SecureLoginView.form_valid`. SOURCE: web/views/security.py:64-86 -/
def formValid (L : LoginConfig) (s : LoginState) (ip : Text) (request : WebLogin) (user : ℕ) :
    WebResponse × LoginState :=
  let digest := throttleDigest L (cleanedUsername L request.username) ip
  if throttled s.buckets digest s.now then formInvalid L s ip request [] [] [tooManyMessage]
  else (.loggedIn user, s.reset digest)

/-- The login form: the fields are checked, then the password, then the lock. -/
def webLogin (L : LoginConfig) (s : LoginState) (client : Client) (request : WebLogin) :
    WebResponse × LoginState :=
  let ip := clientIp L client
  let username := cleanedUsername L request.username
  if fieldErrors username ≠ [] ∨ fieldErrors request.password ≠ [] then
    formInvalid L s ip request (fieldErrors username) (fieldErrors request.password) []
  else
    match authenticate L s.users username request.password with
    | .error _ => (.serverError, s)
    | .ok none => formInvalid L s ip request [] [] [invalidLoginMessage]
    | .ok (some user) => formValid L s ip request user

/-! ## The login of the API -/

structure ApiLogin where
  identifier : Text
  password : Text
deriving DecidableEq

inductive ApiResponse where
  | loggedIn (user : ℕ)
  | badRequest (identifier password : List Text)
  | throttled
  | unauthorized
  | serverError
deriving DecidableEq

def blankMessage : Text := "This field may not be blank.".toList

/-- The errors of a serializer field about its value. -/
def serializerErrors (value : Text) : List Text :=
  if value = [] then [blankMessage] else if value.contains nul then [nullMessage] else []

/-- `LoginView.post`. SOURCE: api/views.py:145-190 -/
def apiLogin (L : LoginConfig) (s : LoginState) (client : Client) (request : ApiLogin) :
    ApiResponse × LoginState :=
  let ip := clientIp L client
  let raw := strip L.unicode request.identifier
  if serializerErrors raw ≠ [] ∨ serializerErrors request.password ≠ [] then
    (.badRequest (serializerErrors raw) (serializerErrors request.password), s)
  else
    let identifier := canonicalizeLoginIdentifier L raw
    let digest := throttleDigest L identifier ip
    if throttled s.buckets digest s.now then (.throttled, s)
    else
      match authenticate L s.users identifier request.password with
      | .error _ => (.serverError, s)
      | .ok none => (.unauthorized, s.recordFailure digest)
      | .ok (some user) =>
        if s.resident user then (.loggedIn user, s.reset digest)
        else (.unauthorized, s.recordFailure digest)

/-! ## Gate readers -/

/-- `_THROTTLE_ACCOUNT` -/
def gateThrottleAccount : Text := "gate_device".toList

inductive GateResponse where
  | authenticated (credential : ℕ)
  | throttled
  | failed
  | revoked
  | expired
deriving DecidableEq

/-- `GateDeviceCredential.is_valid` -/
def GateCredential.isValid (c : GateCredential) (now : ℕ) : Bool :=
  c.revokedAt = none && c.expiresAt.all (now < ·)

/-- `authenticate_device`. SOURCE: gate/devices.py:73-95 -/
def authenticateDevice (L : LoginConfig) (s : LoginState) (ip token : Text) :
    GateResponse × LoginState :=
  let digest := throttleDigest L gateThrottleAccount ip
  if throttled s.buckets digest s.now then (.throttled, s)
  else
    match s.credentials.first? fun c =>
      c.tokenSha256 = L.hashing.sha256hex ⟨(Utf8.encode token).toArray⟩ with
    | none => (.failed, s.recordFailure digest)
    | some (pk, c) =>
      if !c.deviceActive then (.failed, s.recordFailure digest)
      else if c.revokedAt ≠ none then (.revoked, s.recordFailure digest)
      else if !c.isValid s.now then (.expired, s.recordFailure digest)
      else (.authenticated pk, s.reset digest)

/-! ## Attempts -/

inductive LoginAction where
  | tick (elapsed : ℕ)
  | web (client : Client) (request : WebLogin)
  | api (client : Client) (request : ApiLogin)
  | gate (ip token : Text)

/-- One attempt; time passes between attempts. -/
def loginStep (L : LoginConfig) (s : LoginState) : LoginAction → Option LoginState
  | .tick elapsed => some { s with now := s.now + elapsed }
  | .web client request => some (webLogin L s client request).2
  | .api client request => some (apiLogin L s client request).2
  | .gate ip token => some (authenticateDevice L s ip token).2

end LamTo.Model
