import LamTo.Library.Hex
import LamTo.Library.Table
import LamTo.Model.Registry

/-!
# The outbox row and what is written to it

A row has a signed identity and a delivery state. The identity is fixed by a database
trigger, so every write of the worker is a function on the delivery state alone; the
check constraints of the table are fields of `Identity`.

Times are microseconds, texts are code point lists. Two columns the modelled code never
reads are left out: `updated_at`, and the fields of a stored receipt beyond its status and
block number.

SOURCE: src/lamto/evidence/models.py, src/lamto/evidence/worker.py
-/

set_option autoImplicit false

namespace LamTo.Model

open LamTo.Library

/-! ## Columns -/

/-- `BlockchainOutboxEvent.Status`; `localSettled` is `LOCAL`. -/
inductive Status where
  | pending
  | submitted
  | confirmed
  | localSettled
  | failed
  | mismatch
deriving DecidableEq

/-- `^[0-9a-f]{64}$` -/
def isHash64 (t : Text) : Bool := t.length = 64 && t.all isLowerHex

/-- `BYTES32_RE`: `0x[0-9a-f]{64}\Z` -/
def isBytes32Text (t : Text) : Bool := t.take 2 = ['0', 'x'] && isHash64 (t.drop 2)

/-- The columns the trigger `evidence_protect_outbox_identity` keeps, with the table's
check constraints. SOURCE: models.py:31-86 -/
structure Identity where
  eventId : Text
  eventType : ℕ
  payload : Json
  payloadHash : Text
  previousHash : Text
  signature : Text
  signerAddress : Text
  building : ℕ
  createdAt : ℕ
  signerAddress_required : signerAddress ≠ []
  eventId_bytes32 : isBytes32Text eventId = true
  payloadHash_sha256 : isHash64 payloadHash = true
  previousHash_bytes32 : isBytes32Text previousHash = true
  eventType_known : 1 ≤ eventType ∧ eventType ≤ 11

/-- A mined transaction's receipt, as far as it is read. -/
structure Receipt where
  status : ℕ
  blockNumber : ℕ
deriving DecidableEq

/-- The columns a worker writes. An empty `receipt` column is `none`. -/
structure Delivery where
  status : Status
  attempts : ℕ
  nextAttemptAt : Option ℕ
  leaseExpiresAt : Option ℕ
  lastAttemptAt : Option ℕ
  transactionHash : Text
  receiptStatus : Option ℕ
  receipt : Option Receipt
  lastError : Text
  chainConfirmedBlock : Option ℕ
  chainBlockTimestamp : Option ℕ
  submittedAt : Option ℕ
  confirmedAt : Option ℕ
deriving DecidableEq

/-- `BlockchainOutboxEvent`. -/
structure OutboxEvent extends Identity, Delivery

/-- What the insert procedure gives a new row. SOURCE: migrations/0022, `INSERT` -/
def Delivery.fresh : Delivery where
  status := .pending
  attempts := 0
  nextAttemptAt := none
  leaseExpiresAt := none
  lastAttemptAt := none
  transactionHash := []
  receiptStatus := none
  receipt := none
  lastError := []
  chainConfirmedBlock := none
  chainBlockTimestamp := none
  submittedAt := none
  confirmedAt := none

/-- A row with its delivery state rewritten. -/
def OutboxEvent.deliver (f : Delivery → Delivery) (e : OutboxEvent) : OutboxEvent :=
  { e with toDelivery := f e.toDelivery }

@[simp] theorem OutboxEvent.deliver_toIdentity (f : Delivery → Delivery) (e : OutboxEvent) :
    (e.deliver f).toIdentity = e.toIdentity := rfl

@[simp] theorem OutboxEvent.deliver_toDelivery (f : Delivery → Delivery) (e : OutboxEvent) :
    (e.deliver f).toDelivery = f e.toDelivery := rfl

/-- The states after which a row is never submitted again. SOURCE: worker.py:240-246 -/
def Status.Terminal (s : Status) : Prop :=
  s = .confirmed ∨ s = .mismatch ∨ s = .localSettled

instance (s : Status) : Decidable s.Terminal := inferInstanceAs (Decidable (_ ∨ _ ∨ _))

/-! ## The worker's writes -/

def second : ℕ := 1000000

/-- `LEASE_SECONDS`, `RETRY_BASE_SECONDS`, `RETRY_MAX_SECONDS`. -/
def leaseTime : ℕ := 180 * second
def retryBaseSeconds : ℕ := 30
def retryMaxSeconds : ℕ := 3600

/-- `_retry_delay`. SOURCE: worker.py:57-60 -/
def retryDelay (attempts : ℕ) : ℕ :=
  min (retryBaseSeconds * 2 ^ (attempts - 1)) retryMaxSeconds * second

/-- The filter of both claims. SOURCE: worker.py:90-97 -/
def Delivery.isDue (now : ℕ) (d : Delivery) : Bool :=
  match d.status with
  | .pending => d.nextAttemptAt.all (· ≤ now)
  | .submitted => d.leaseExpiresAt.any (· ≤ now)
  | _ => false

/-- What both claims write. SOURCE: worker.py:102-116 -/
def Delivery.claim (now : ℕ) (d : Delivery) : Delivery :=
  { d with
    status := .submitted
    leaseExpiresAt := some (now + leaseTime)
    submittedAt := d.submittedAt.or (some now)
    lastAttemptAt := some now
    lastError := [] }

/-- `datetime.fromtimestamp`: the last second of the year 9999 is the last it takes. -/
def fromTimestamp (seconds : ℕ) : Option ℕ :=
  if seconds < 253402300800 then some (seconds * second) else none

/-- `_mark_confirmed`; `none` when the block's time has no `datetime`.
SOURCE: worker.py:120-158 -/
def Delivery.markConfirmed (now : ℕ) (transactionHash : Text) (receipt : Option Receipt)
    (recordedAt : ℕ) (d : Delivery) : Option Delivery := do
  let d := { d with
    status := .confirmed
    leaseExpiresAt := none
    confirmedAt := some now
    lastError := []
    transactionHash := if transactionHash = [] then d.transactionHash else transactionHash }
  let d := match receipt with
    | some r => { d with
        receipt := some r
        receiptStatus := some r.status
        chainConfirmedBlock := some r.blockNumber }
    | none => d
  if recordedAt = 0 then some d
  else do
    let time ← fromTimestamp recordedAt
    some { d with chainBlockTimestamp := some time }

/-- `_mark_mismatch`; `error` is the text it builds. SOURCE: worker.py:161-172 -/
def Delivery.markMismatch (error : Text) (d : Delivery) : Delivery :=
  { d with status := .mismatch, leaseExpiresAt := none, lastError := error }

/-- `_mark_retry`. SOURCE: worker.py:175-194 -/
def Delivery.markRetry (now : ℕ) (error : Text) (d : Delivery) : Delivery :=
  { d with
    attempts := d.attempts + 1
    status := .pending
    leaseExpiresAt := none
    nextAttemptAt := some (now + retryDelay (d.attempts + 1))
    lastAttemptAt := some now
    lastError := error.take 2000 }

/-- `_mark_local`. SOURCE: worker.py:197-220 -/
def Delivery.markLocal (d : Delivery) : Delivery :=
  { d with
    status := .localSettled
    leaseExpiresAt := none
    submittedAt := none
    transactionHash := []
    confirmedAt := none
    lastError := [] }

/-- The write `submit` makes as soon as the transaction is sent. SOURCE: chain.py:164-168 -/
def Delivery.storeHash (hash : Text) (d : Delivery) : Delivery := { d with transactionHash := hash }

/-! ## Claims -/

abbrev OutboxTable := Table OutboxEvent

/-- The rows in the order of `order_by("created_at", "pk")`. -/
def claimOrder (rows : OutboxTable) : List (ℕ × OutboxEvent) :=
  rows.rows.mergeSort fun a b => a.2.createdAt < b.2.createdAt ||
    (a.2.createdAt = b.2.createdAt && a.1 ≤ b.1)

/-- The row `claim_next_due_outbox_event` takes: the first that is due and that no other
transaction has locked. SOURCE: worker.py:269-303 -/
def nextDue (locked : List ℕ) (now : ℕ) (rows : OutboxTable) : Option ℕ :=
  ((claimOrder rows).find? fun r => r.2.isDue now && !locked.contains r.1).map Prod.fst

/-- The row `_claim_outbox_event` takes. SOURCE: worker.py:83-117 -/
def claimable (pk now : ℕ) (rows : OutboxTable) : Option ℕ :=
  (rows.get? pk).bind fun e => if e.isDue now then some pk else none

end LamTo.Model
