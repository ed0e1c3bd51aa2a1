import LamTo.Library.Calendar
import LamTo.Model.Canonical
import LamTo.Model.ChainClient
import LamTo.Model.Signatures

/-!
# Queueing platform evidence

The embedding of `evidence/services.py`: the payload schemas with their value shapes, the
validation, and `queue_platform_event` down to the row the insert procedure stores.

Three things are outside the program and parameters here. `Jsonb` is the `jsonb` column:
it keeps the value of a payload, not the order of its keys, and may refuse a text it cannot
hold. `Platform` is the platform key of `evidence/signatures.py`, which may be missing from
the settings. `writeAuthorized` says that the service and the database share the write
secret, so that the authorization the procedure recomputes is the one it is given.

The unique violation of a concurrent insert under the same event id is not modelled: calls
are serial here, and the look-up before the insert has its outcome.

SOURCE: src/lamto/evidence/services.py, src/lamto/evidence/migrations/0022
-/

set_option autoImplicit false

namespace LamTo.Model

open LamTo.Library

/-- The exceptions of the services, with their messages. -/
inductive ServiceError where
  | validation (message : String)
  | permissionDenied (message : String)
  | value (message : String)
  | canonical (error : CanonicalError)
  | evidenceConflict (message : String)
  | improperlyConfigured (message : String)
  | integrity (constraint : String)
  | data (column : String)
  | doesNotExist (model : String)
  | attribute (message : String)
  | type (message : String)
deriving DecidableEq

/-! ## Parameters -/

/-- A `jsonb` column, written and read back. -/
structure Jsonb where
  column : Json → Option Json
  column_plain : ∀ j k, Json.Plain j → column j = some k → Json.Plain k
  column_denote : ∀ j k, Json.Plain j → column j = some k → Json.denote k = Json.denote j

/-- `0x` and forty hexadecimal digits of either case. -/
def isAddressText (t : Text) : Bool :=
  t.take 2 = ['0', 'x'] && (t.drop 2).length = 40
    && (t.drop 2).all fun c => (Json.hexValue c).isSome

/-- The platform account: its checksum address and its signature over the typed data of an
event, which the library that holds the key makes in canonical form. -/
structure Platform where
  address : Text
  signTypedData : Text → ℕ → Text → Text → Bytes
  address_ne : address ≠ []
  address_text : isAddressText address = true
  length_signTypedData : ∀ eventId eventType payloadHash previousHash,
    (signTypedData eventId eventType payloadHash previousHash).length = 65
  canonical_signTypedData : ∀ eventId eventType payloadHash previousHash,
    isCanonicalSecp256k1 (signTypedData eventId eventType payloadHash previousHash) = true

structure EvidenceConfig where
  unicode : Unicode
  hashing : Hashing
  jsonb : Jsonb
  platform : Option Platform
  writeAuthorized : Bool

/-! ## Payload shapes -/

/-- `EvidenceType`: the two types that may be anchored. -/
def proposalCreated : ℕ := 1
def settlementType : ℕ := 10

/-- The closed vocabulary of value shapes; `oneOf` is a set of texts. -/
inductive Shape where
  | id
  | positiveInt
  | money
  | bool
  | hash
  | hashes
  | bytes32
  | timestamp
  | text
  | oneOf (values : List Text)

/-- `HASH_RE`: `(?:0x)?[0-9a-f]{64}\Z` -/
def isHashText (t : Text) : Bool := isHash64 t || isBytes32Text t

/-- `utc_rfc3339` of an aware `datetime`, given by its time in UTC. SOURCE: services.py:47-50 -/
def utcRfc3339 (t : UtcTime) : Text := t.isoformat

/-- Two digits, the first of which is among `tens`; `strptime` wants that one in ASCII. -/
def twoDigits (U : Unicode) (tens : List Char) (a b : Char) : Option ℕ := do
  let x ← U.decimal a
  let y ← U.decimal b
  if a ∈ tens then some (10 * x + y) else none

/-- `UTC_RFC3339_RE` and `_is_valid_utc_timestamp`: the digits of the expression are any
Unicode decimals, and those `strptime` goes on to read make a date and a time of day.
SOURCE: services.py:20, 103-119 -/
def isValidUtcTimestamp (U : Unicode) : Text → Bool
  | [y₁, y₂, y₃, y₄, '-', m₁, m₂, '-', d₁, d₂, 'T', h₁, h₂, ':', i₁, i₂, ':', s₁, s₂, '.',
      f₁, f₂, f₃, f₄, f₅, f₆, 'Z'] =>
    ((do
      let year ← [y₁, y₂, y₃, y₄].foldlM (fun n c => (U.decimal c).map (10 * n + ·)) 0
      let month ← twoDigits U ['0', '1'] m₁ m₂
      let day ← twoDigits U ['0', '1', '2', '3'] d₁ d₂
      let hour ← twoDigits U ['0', '1', '2'] h₁ h₂
      let _minute ← twoDigits U ['0', '1', '2', '3', '4', '5'] i₁ i₂
      let _second ← twoDigits U ['0', '1', '2', '3', '4', '5'] s₁ s₂
      some (decide (1 ≤ year ∧ 1 ≤ month ∧ month ≤ 12 ∧ 1 ≤ day ∧ day ≤ daysInMonth year month
        ∧ hour ≤ 23) && m₂.isDigit && ((d₁ = '1' || d₁ = '2') || d₂.isDigit)
        && (h₁ ≠ '2' || h₂.isDigit) && [f₁, f₂, f₃, f₄, f₅, f₆].all Char.isDigit)) : Option Bool).getD
      false
  | _ => false

/-- The value test of one shape. SOURCE: services.py:91-109 -/
def Shape.accepts (U : Unicode) : Shape → PyValue → Bool
  | .id, .int i => 0 < i
  | .positiveInt, .int i => 0 < i
  | .money, .int i => 0 ≤ i
  | .bool, .bool _ => true
  | .text, .str s => s ≠ []
  | .hash, .str s => isHashText s
  | .bytes32, .str s => isBytes32Text s
  | .hashes, .list xs => !xs.isEmpty && xs.all fun
    | .str s => isHashText s
    | _ => false
  | .timestamp, .str s => isValidUtcTimestamp U s
  | .oneOf values, .str s => values.contains s
  | _, _ => false

/-- Required and optional fields of a payload. -/
structure Schema where
  required : List (Text × Shape)
  optional : List (Text × Shape)

def Schema.shape (s : Schema) (field : Text) : Option Shape :=
  ((s.required ++ s.optional).find? fun f => f.1 = field).map Prod.snd

/-- `EVIDENCE_PAYLOAD_SCHEMAS`. SOURCE: services.py:27-40 -/
def proposalSchema : Schema where
  required := [("proposal_id".toList, .id), ("proposal_version".toList, .positiveInt),
    ("record_id".toList, .id), ("amount_vnd".toList, .money),
    ("proposal_snapshot_hash".toList, .hash), ("quotation_hash".toList, .hash)]
  optional := [("building_id".toList, .id), ("case_id".toList, .id), ("report_id".toList, .id),
    ("case_snapshot_hash".toList, .hash), ("report_snapshot_hash".toList, .hash),
    ("estimated_amount_vnd".toList, .money), ("photo_hash".toList, .hash),
    ("photo_hashes".toList, .hashes)]

def settlementSchema : Schema where
  required := [("schema".toList, .oneOf ["settlement.v2".toList]), ("settlement_id".toList, .id),
    ("proposal_id".toList, .id), ("proposal_version".toList, .positiveInt),
    ("amount_vnd".toList, .money), ("transfer_sha256".toList, .hash),
    ("settled_at".toList, .timestamp)]
  optional := []

def payloadSchema (eventType : ℕ) : Option Schema :=
  if eventType = proposalCreated then some proposalSchema
  else if eventType = settlementType then some settlementSchema
  else none

/-- The string keys of a dictionary, `none` when one is no string. -/
def stringKeys (ms : List (PyKey × PyValue)) : Option (List (Text × PyValue)) :=
  ms.mapM fun
    | (.str k, v) => some (k, v)
    | (.other _, _) => none

/-- `_validate_payload`. SOURCE: services.py:70-111 -/
def validatePayload (U : Unicode) (eventType : ℕ) (payload : PyValue) :
    Except ServiceError Unit := do
  let schema ← orRaise (payloadSchema eventType)
    (.validation "Only proposal versions and settlements may be anchored.")
  let unknown := ServiceError.validation "Evidence payload must be an object with known fields."
  let members ← match payload with
    | .dict ms => orRaise (stringKeys ms) unknown
    | _ => .error unknown
  require (members.all fun m => (schema.shape m.1).isSome)
    (ServiceError.validation "Evidence payload contains fields outside its event schema.")
  let missing := schema.required.filter fun f => !(members.map Prod.fst).contains f.1
  require (missing.isEmpty = true) (ServiceError.validation
    ("Evidence payload is missing required fields: " ++ ", ".intercalate
      ((missing.map fun f => String.ofList f.1).mergeSort) ++ "."))
  members.forM fun m => require (((schema.shape m.1).map fun s => s.accepts U m.2) = some true)
    (ServiceError.validation ("Evidence payload field '" ++ String.ofList m.1 ++
      "' has an invalid value."))

/-! ## Signing -/

/-- A `ValueError` of `normalize_signature`, which `queue_platform_event` lets through. -/
def liftSignature {α : Type} : Except String α → Except ServiceError α
  | .ok a => .ok a
  | .error message => .error (.value message)

/-- `platform_sign_evidence` with the checks of `build_evidence_typed_data`.
SOURCE: signatures.py:13-20, 93-100 -/
def platformSignEvidence (P : Option Platform) (eventId : Text) (eventType : ℕ)
    (payloadHashHex previousHash : Text) : Except ServiceError Text := do
  let payloadHashHex :=
    if payloadHashHex.take 2 = ['0', 'x'] then payloadHashHex else '0' :: 'x' :: payloadHashHex
  require (isBytes32Text eventId ∧ isBytes32Text payloadHashHex ∧ isBytes32Text previousHash)
    (ServiceError.value "Evidence IDs and hashes must be lowercase 0x-prefixed bytes32 values.")
  require (1 ≤ eventType ∧ eventType ≤ 11)
    (ServiceError.value "Evidence event type must be an integer from 1 through 11.")
  let platform ← orRaise P
    (.improperlyConfigured "PLATFORM_SIGNER_PRIVATE_KEY is not configured.")
  liftSignature (normalizeSignature (.str (byteText
    (platform.signTypedData eventId eventType payloadHashHex previousHash))))

/-! ## Queueing -/

mutual
/-- Python's `==` on JSON values: a boolean equals the integer it is, and dictionaries are
equal when they have the same items in any order. -/
def pyEq : Json → Json → Bool
  | .null, .null => true
  | .bool a, .bool b => a = b
  | .bool a, .int i => i = if a then 1 else 0
  | .int i, .bool b => i = if b then 1 else 0
  | .int i, .int j => i = j
  | .float a, .float b => a = b
  | .str a, .str b => a = b
  | .arr xs, .arr ys => pyEqItems xs ys
  | .obj ms, .obj ns => ms.length = ns.length && pyEqMembers ms ns
  | _, _ => false
def pyEqItems : List Json → List Json → Bool
  | [], [] => true
  | x :: xs, y :: ys => pyEq x y && pyEqItems xs ys
  | _, _ => false
def pyEqMembers : List (Text × Json) → List (Text × Json) → Bool
  | [], _ => true
  | (k, v) :: ms, ns =>
    (match ns.find? fun n => n.1 = k with
      | some n => pyEq v n.2
      | none => false) && pyEqMembers ms ns
end

/-- What the insert procedure is given; the database checks the constraints of the table. -/
structure IdentityFields where
  eventId : Text
  eventType : ℕ
  payload : Json
  payloadHash : Text
  previousHash : Text
  signature : Text
  signerAddress : Text
  building : ℕ
  createdAt : ℕ

/-- The row's identity, or the violated constraint. SOURCE: models.py:64-86 -/
def IdentityFields.check (f : IdentityFields) : Except ServiceError Identity :=
  if h₁ : f.signerAddress = [] then .error (.integrity "outbox_signer_address_required")
  else if h₂ : isBytes32Text f.eventId = true then
    if h₃ : isHash64 f.payloadHash = true then
      if h₄ : isBytes32Text f.previousHash = true then
        if h₅ : 1 ≤ f.eventType ∧ f.eventType ≤ 11 then
          .ok ⟨f.eventId, f.eventType, f.payload, f.payloadHash, f.previousHash, f.signature,
            f.signerAddress, f.building, f.createdAt, h₁, h₂, h₃, h₄, h₅⟩
        else .error (.integrity "outbox_known_event_type")
      else .error (.integrity "outbox_previous_hash_bytes32")
    else .error (.integrity "outbox_payload_hash_sha256")
  else .error (.integrity "outbox_event_id_bytes32")

/-- The comparison with an existing row. SOURCE: services.py:139-150 -/
def sameIdentity (f : IdentityFields) (e : Identity) : Bool :=
  e.eventType = f.eventType && pyEq e.payload f.payload && e.payloadHash = f.payloadHash
    && e.previousHash = f.previousHash && e.signature = f.signature
    && e.signerAddress = f.signerAddress

def liftCanonical {α : Type} : Except CanonicalError α → Except ServiceError α
  | .ok a => .ok a
  | .error e => .error (.canonical e)

/-- The normalised payload with its digest, signed: what is compared with an existing row,
or stored. SOURCE: services.py:126-146 -/
def platformIdentity (C : EvidenceConfig) (now : ℕ) (eventId : Text) (eventType : ℕ)
    (payload : PyValue) (previousHash : Text) (building : ℕ) :
    Except ServiceError IdentityFields := do
  let eventId := lower eventId
  let previousHash := lower previousHash
  validatePayload C.unicode eventType payload
  require (isBytes32Text eventId ∧ isBytes32Text previousHash) (ServiceError.validation
    "Event ID and previous hash must be 0x-prefixed bytes32 values.")
  let bytes ← liftCanonical (canonicalBytes C.unicode payload)
  let normalized ← orRaise (loadsBytes bytes) (.value "Invalid JSON.")
  let digest ← liftCanonical (payloadHash C.unicode C.hashing (.ofJson normalized))
  let signature ← platformSignEvidence C.platform eventId eventType ('0' :: 'x' :: digest)
    previousHash
  let platform ← orRaise C.platform
    (.improperlyConfigured "PLATFORM_SIGNER_PRIVATE_KEY is not configured.")
  return { eventId, eventType, payload := normalized, payloadHash := digest, previousHash,
           signature, signerAddress := platform.address, building, createdAt := now }

/-- `queue_platform_event`: the key of the row and the table. SOURCE: services.py:122-170,
migrations/0022 -/
def queuePlatformEvent (C : EvidenceConfig) (now : ℕ) (eventId : Text) (eventType : ℕ)
    (payload : PyValue) (previousHash : Text) (building : ℕ) (rows : OutboxTable) :
    Except ServiceError (ℕ × OutboxTable) := do
  let fields ← platformIdentity C now eventId eventType payload previousHash building
  match rows.rows.find? fun r => r.2.eventId = fields.eventId with
  | some (pk, existing) =>
    require (sameIdentity fields existing.toIdentity) (ServiceError.evidenceConflict
      "Event ID already exists with different signed identity.")
    return (pk, rows)
  | none =>
    require (C.writeAuthorized = true)
      (ServiceError.permissionDenied "platform evidence queue authorization is invalid")
    let stored ← orRaise (C.jsonb.column fields.payload) (.data "payload")
    let identity ← { fields with payload := stored }.check
    return (rows.next, rows.insert ⟨identity, .fresh⟩)

end LamTo.Model
