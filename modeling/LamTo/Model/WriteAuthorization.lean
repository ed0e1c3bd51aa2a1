import LamTo.Model.Evidence

/-!
# The authorization of an outbox write

The embedding of the two sides of an outbox insert: `_platform_write_authorization`, which the
service computes over the row it is about to write, and the database procedure that computes it
again from its arguments before it inserts.

Both hash a text of nine parts joined with `|`: Python joins the `str` of its arguments, the
procedure fills in a `format` template. SHA-256 is a parameter, and so is what PostgreSQL makes
of a text cast to `jsonb`.

SOURCE: src/lamto/evidence/services.py:63-67, 131-166,
evidence/migrations/0022_restore_platform_outbox_insert.py:6-42
-/

set_option autoImplicit false

namespace LamTo.Model

open LamTo.Library

/-- The bytes of a text in UTF-8. -/
def utf8Bytes (t : Text) : Bytes := (Utf8.encode t).map UInt8.toBitVec

/-! ## The service -/

/-- An argument of `_platform_write_authorization`. -/
inductive WritePart where
  | text (value : Text)
  | int (value : ℤ)

/-- `str(part)` -/
def WritePart.str : WritePart → Text
  | .text value => value
  | .int value => Json.renderInt value

/-- The values a write is authorized for. -/
structure WriteTuple where
  eventId : Text
  eventType : ℤ
  payloadHash : Text
  previousHash : Text
  signature : Text
  signerAddress : Text
  building : ℤ
  canonicalPayload : Text
deriving DecidableEq

/-- The arguments in the order they are passed. SOURCE: services.py:152-155 -/
def WriteTuple.parts (t : WriteTuple) : List WritePart :=
  [.text t.eventId, .int t.eventType, .text t.payloadHash, .text t.previousHash,
    .text t.signature, .text t.signerAddress, .int t.building, .text t.canonicalPayload]

/-- The message. SOURCE: services.py:64 -/
def platformWriteMessage (parts : List WritePart) : Text :=
  ['|'].intercalate ("platform-evidence-queue".toList :: parts.map WritePart.str)

/-- `_platform_write_authorization`. SOURCE: services.py:63-67 -/
def platformWriteAuthorization (sha256 : Bytes → Bytes) (writeSecret : Text)
    (parts : List WritePart) : Text :=
  let message := platformWriteMessage parts
  let secret := utf8Bytes writeSecret
  let inner := sha256 (secret ++ utf8Bytes message)
  byteText (sha256 (secret ++ inner))

/-- The tuple `queue_platform_event` asks an authorization for. SOURCE: services.py:126-155 -/
def authorizedWrite (C : EvidenceConfig) (now : ℕ) (eventId : Text) (eventType : ℕ)
    (payload : PyValue) (previousHash : Text) (building : ℕ) :
    Except ServiceError WriteTuple := do
  let fields ← platformIdentity C now eventId eventType payload previousHash building
  let bytes ← liftCanonical (canonicalBytes C.unicode (.ofJson fields.payload))
  let canonicalPayload ← orRaise (Utf8.decode bytes.data.toList) (.value "invalid start byte")
  return { eventId := fields.eventId, eventType := fields.eventType,
           payloadHash := fields.payloadHash, previousHash := fields.previousHash,
           signature := fields.signature, signerAddress := fields.signerAddress,
           building := fields.building, canonicalPayload }

/-! ## The procedure -/

/-- `format` with `%s` alone: each takes the next argument; `none` is its error. -/
def sqlFormat : Text → List Text → Option Text
  | [], _ => some []
  | '%' :: 's' :: template, a :: arguments => (sqlFormat template arguments).map (a ++ ·)
  | '%' :: '%' :: template, arguments => (sqlFormat template arguments).map ('%' :: ·)
  | '%' :: _, _ => none
  | c :: template, arguments => (sqlFormat template arguments).map (c :: ·)

/-- The arguments of the procedure; `J` are the values of `jsonb`. -/
structure InsertArguments (J : Type) where
  eventId : Text
  eventType : ℤ
  payload : J
  payloadHash : Text
  previousHash : Text
  signature : Text
  signerAddress : Text
  building : ℤ
  canonicalPayload : Text
  authorization : Text

/-- The row it inserts, without the columns that are the same for every new row. -/
structure InsertedRow (J : Type) where
  eventId : Text
  eventType : ℤ
  payload : J
  payloadHash : Text
  previousHash : Text
  signature : Text
  signerAddress : Text
  building : ℤ

/-- What the arguments say in the place of the tuple. -/
def InsertArguments.tuple {J : Type} (p : InsertArguments J) : WriteTuple where
  eventId := p.eventId
  eventType := p.eventType
  payloadHash := p.payloadHash
  previousHash := p.previousHash
  signature := p.signature
  signerAddress := p.signerAddress
  building := p.building
  canonicalPayload := p.canonicalPayload

/-- The authorization as the procedure computes it. SOURCE: migrations/0022:19-25 -/
def recomputedAuthorization {J : Type} (sha256 : Bytes → Bytes) (secret : Bytes)
    (p : InsertArguments J) : Option Text :=
  (sqlFormat "platform-evidence-queue|%s|%s|%s|%s|%s|%s|%s|%s".toList
    [p.eventId, Json.renderInt p.eventType, p.payloadHash, p.previousHash, p.signature,
      p.signerAddress, Json.renderInt p.building, p.canonicalPayload]).map fun message =>
    byteText (sha256 (secret ++ sha256 (secret ++ utf8Bytes message)))

/-- `evidence_insert_platform_outbox_event` up to its insert; `secret` is the row of
`write_authorization_secret`, if there is one. SOURCE: migrations/0022:6-42 -/
def evidenceInsertPlatformOutboxEvent {J : Type} [DecidableEq J] (sha256 : Bytes → Bytes)
    (castJsonb : Text → Option J) (secret : Option Bytes) (p : InsertArguments J) :
    Except ServiceError (InsertedRow J) := do
  let canonical ← orRaise (castJsonb p.canonicalPayload) (.data "p_canonical_payload")
  require (p.payload = canonical)
    (ServiceError.integrity "canonical evidence payload does not match the queued payload")
  require (some p.authorization = secret.bind fun secret => recomputedAuthorization sha256 secret p)
    (ServiceError.permissionDenied "platform evidence queue authorization is invalid")
  return { eventId := p.eventId, eventType := p.eventType, payload := p.payload,
           payloadHash := p.payloadHash, previousHash := p.previousHash,
           signature := p.signature, signerAddress := p.signerAddress, building := p.building }

end LamTo.Model
