import LamTo.Library.Transition
import LamTo.Model.ChainClient

/-!
# Outbox workers against the chain

Any number of workers run `process_outbox_event` and `process_due_outbox_events` over one
outbox table and one registry. A step is what the database or the chain makes atomic: a
claim, a read of the registry, a send, the write of the transaction hash, a receipt, a final
mark. Between two steps of a worker every other worker, every other relayer, the miner and
the clock may take any number of theirs, and a worker may stop for good after each.

A worker's place in the code is a `Pc`: the row as its claim returned it and how far it
got. `settings.EVIDENCE_ANCHORING_BACKEND` is read by each worker's process (`disabled`).
A call that raises leaves the loop, which is the same as a stop; the errors `_mark_retry`
catches carry their text.

SOURCE: src/lamto/evidence/worker.py, src/lamto/evidence/chain.py
-/

set_option autoImplicit false

namespace LamTo.Model

open LamTo.Library

/-! ## The chain -/

/-- A signed transaction; its hash stands for all of it, the nonce included. -/
structure SignedCall where
  sender : Address
  call : Call
deriving DecidableEq

/-- A transaction in a block, with the receipt the chain gives for it. -/
structure Mined where
  hash : Bytes32
  tx : Transaction
  receipt : Receipt

structure Chain where
  registry : Registry
  sent : Bytes32 → Option SignedCall
  mined : List Mined

namespace Chain

/-- A node takes a transaction; the hash of another one is never taken again. -/
def send (c : Chain) (hash : Bytes32) (tx : SignedCall) : Option Chain :=
  match c.sent hash with
  | none => some { c with sent := Function.update c.sent hash (some tx) }
  | some old => if old = tx then some c else none

/-- The receipt of a transaction, once it is in a block. -/
def minedTx (c : Chain) (hash : Bytes32) : Option Mined := c.mined.find? fun m => m.hash = hash

/-- A block takes a sent transaction that is in no block yet. It executes with status 1, or
it reverts or runs out of gas with status 0 and changes nothing. -/
def mine (E : Evm) (c : Chain) (hash : Bytes32) (time : BlockTime) (blockNumber : ℕ)
    (outOfGas : Bool) : Option Chain := do
  let s ← c.sent hash
  if (c.minedTx hash).isSome then none
  else
    let tx : Transaction := ⟨s.sender, s.call, time⟩
    match c.registry.exec E tx, outOfGas with
    | .ok registry, false =>
      some { c with registry := registry, mined := c.mined ++ [⟨hash, tx, ⟨1, blockNumber⟩⟩] }
    | _, _ => some { c with mined := c.mined ++ [⟨hash, tx, ⟨0, blockNumber⟩⟩] }

end Chain

/-! ## Workers -/

/-- How far a worker is with the row it took. The last two stages are those of the re-check
of a confirmed row. -/
inductive Stage where
  | claimed
  | found (record : ChainRecord)
  | absent
  | sent (hash : Bytes32)
  | waiting (hash : Bytes32)
  | receipted (hash : Bytes32) (receipt : Receipt)
  | failed (error : Text)
  | rechecking
  | recheckFound (record : ChainRecord)
deriving DecidableEq

inductive Pc where
  | idle
  | busy (pk : ℕ) (event : OutboxEvent) (stage : Stage)

/-- What does not change while the workers run. -/
structure Deployment (W : Type) where
  evm : Evm
  codec : AddressCodec
  disabled : W → Bool
  relayer : W → Address

structure System (W : Type) where
  now : ℕ
  rows : OutboxTable
  chain : Chain
  pc : W → Pc

inductive Action (W : Type) where
  | tick (elapsed : ℕ)
  | queue (identity : Identity)
  | broadcast (hash : Bytes32) (tx : SignedCall)
  | mine (hash : Bytes32) (time : BlockTime) (blockNumber : ℕ) (outOfGas : Bool)
  | claim (w : W) (pk readAt : ℕ)
  | claimNext (w : W) (locked : List ℕ) (readAt : ℕ)
  | recheck (w : W) (pk : ℕ)
  | find (w : W)
  | findError (w : W) (error : Text)
  | send (w : W) (hash : Bytes32)
  | sendError (w : W) (error : Text)
  | sendUnanswered (w : W) (hash : Bytes32) (error : Text)
  | persist (w : W)
  | receipt (w : W)
  | waitError (w : W) (error : Text)
  | mark (w : W)
  | stop (w : W)

namespace System

variable {W : Type} [DecidableEq W]

def goto (s : System W) (w : W) (pc : Pc) : System W := { s with pc := Function.update s.pc w pc }

/-- The write of a claim: the worker holds the row as saved. -/
def takeRow (s : System W) (w : W) (readAt pk : ℕ) : Option (System W) := do
  let e ← s.rows.get? pk
  let claimed := e.deliver (Delivery.claim readAt)
  some ({ s with rows := s.rows.update pk (OutboxEvent.deliver (Delivery.claim readAt)) }.goto w
    (.busy pk claimed .claimed))

/-- `_mark_*` under `select_for_update`, and back to the loop. -/
def write (s : System W) (w : W) (pk : ℕ) (f : Delivery → Delivery) : System W :=
  { s with rows := s.rows.update pk (OutboxEvent.deliver f) }.goto w .idle

/-- The final mark of a row whose record was found: the comparison is with the row as it is
now. A comparison or a conversion that raises rolls back. SOURCE: worker.py:336-348 -/
def markFound (D : Deployment W) (s : System W) (w : W) (pk : ℕ) (record : ChainRecord) :
    Option (System W) := do
  let e ← s.rows.get? pk
  match recordMatchesEvent D.codec record e.toIdentity with
  | some true =>
    match e.markConfirmed s.now e.transactionHash none record.recordedAt with
    | some d => some (s.write w pk fun _ => d)
    | none => some (s.goto w .idle)
  | some false => some (s.write w pk (Delivery.markMismatch (mismatchError record)))
  | none => some (s.goto w .idle)

/-- The final mark after a good receipt; there is no block time to convert, so nothing
raises. SOURCE: worker.py:358-360 -/
def markSubmitted (s : System W) (w : W) (pk : ℕ) (hash : Bytes32) (receipt : Receipt) :
    Option (System W) := do
  let e ← s.rows.get? pk
  let d ← e.markConfirmed s.now (bytes32Text hash) (some receipt) 0
  some (s.write w pk fun _ => d)

/-- The final mark of a worker. SOURCE: worker.py:256-258, 320-360 -/
def mark (D : Deployment W) (s : System W) (w : W) : Option (System W) :=
  match s.pc w with
  | .busy pk _ .claimed =>
    if D.disabled w then some (s.write w pk Delivery.markLocal) else none
  | .busy pk _ (.found record) => s.markFound D w pk record
  | .busy pk _ (.receipted hash receipt) => s.markSubmitted w pk hash receipt
  | .busy pk _ (.failed error) => some (s.write w pk (Delivery.markRetry s.now error))
  | .busy pk _ (.recheckFound record) =>
    some (s.write w pk (Delivery.markMismatch (mismatchError record)))
  | _ => none

/-- `client.find`, for a claimed row and for a confirmed one. SOURCE: worker.py:253-259, 330 -/
def findRecord (D : Deployment W) (s : System W) (w : W) : Option (System W) :=
  match s.pc w with
  | .busy pk e .claimed =>
    if D.disabled w then none
    else match find D.codec s.chain.registry e.toIdentity with
      | some record => some (s.goto w (.busy pk e (.found record)))
      | none => some (s.goto w (.busy pk e .absent))
  | .busy pk e .rechecking =>
    match find D.codec s.chain.registry e.toIdentity with
    | none => some (s.goto w .idle)
    | some record =>
      match recordMatchesEvent D.codec record e.toIdentity with
      | some false => some (s.goto w (.busy pk e (.recheckFound record)))
      | _ => some (s.goto w .idle)
  | _ => none

/-- A read that raised: retried for a claimed row, dropped on the re-check. -/
def findRaised (D : Deployment W) (s : System W) (w : W) (error : Text) : Option (System W) :=
  match s.pc w with
  | .busy pk e .claimed =>
    if D.disabled w then none else some (s.goto w (.busy pk e (.failed error)))
  | .busy _ _ .rechecking => some (s.goto w .idle)
  | _ => none

/-- `_send_locked`: the node takes the call of the claimed row, and the worker goes on at
`next`. SOURCE: chain.py:144-161, 219-239 -/
def sendTx (D : Deployment W) (s : System W) (w : W) (hash : Bytes32) (next : Stage) :
    Option (System W) :=
  match s.pc w with
  | .busy pk e .absent => do
    let call ← recordEvidenceCall D.codec e.toIdentity
    let chain ← s.chain.send hash ⟨D.relayer w, call⟩
    some ({ s with chain := chain }.goto w (.busy pk e next))
  | _ => none

/-- The hash goes into the row if the claim returned it without one. SOURCE: chain.py:162-168 -/
def persistHash (s : System W) (w : W) : Option (System W) :=
  match s.pc w with
  | .busy pk e (.sent hash) =>
    let rows := if e.transactionHash = [] then
        s.rows.update pk (OutboxEvent.deliver (Delivery.storeHash (bytes32Text hash)))
      else s.rows
    some ({ s with rows := rows }.goto w (.busy pk e (.waiting hash)))
  | _ => none

/-- The text of `ChainSubmissionError`. SOURCE: chain.py:171-174 -/
def submissionError (receipt : Receipt) (hash : Bytes32) : Text :=
  "recordEvidence receipt status ".toList ++ Nat.toDigits 10 receipt.status ++ " for ".toList
    ++ bytes32Text hash

/-- `_wait_for_receipt` returned. SOURCE: chain.py:169-175 -/
def takeReceipt (s : System W) (w : W) : Option (System W) :=
  match s.pc w with
  | .busy pk e (.waiting hash) => do
    let m ← s.chain.minedTx hash
    if m.receipt.status = 1 then some (s.goto w (.busy pk e (.receipted hash m.receipt)))
    else some (s.goto w (.busy pk e (.failed (submissionError m.receipt hash))))
  | _ => none

/-- A claim of the row `choose` picks. The clock was read before the transaction began, at
`readAt`. -/
def claimRow (s : System W) (w : W) (readAt : ℕ) (choose : ℕ → OutboxTable → Option ℕ) :
    Option (System W) :=
  match s.pc w with
  | .idle => if readAt ≤ s.now then (choose readAt s.rows).bind (s.takeRow w readAt) else none
  | _ => none

/-- The unlocked read of `process_outbox_event` on a confirmed row. SOURCE: worker.py:231-252 -/
def startRecheck (D : Deployment W) (s : System W) (w : W) (pk : ℕ) : Option (System W) :=
  match s.pc w, s.rows.get? pk with
  | .idle, some e =>
    if e.status = .confirmed ∧ D.disabled w = false then
      some (s.goto w (.busy pk e .rechecking))
    else none
  | _, _ => none

/-- A failure inside `submit` that its caller retries: before the send, or while waiting. -/
def submitRaised (s : System W) (w : W) (error : Text) (waiting : Bool) : Option (System W) :=
  match s.pc w, waiting with
  | .busy pk e .absent, false => some (s.goto w (.busy pk e (.failed error)))
  | .busy pk e (.waiting _), true => some (s.goto w (.busy pk e (.failed error)))
  | _, _ => none

/-- One step. Queueing is the web application's; event ids are unique in the table. -/
def step (D : Deployment W) (s : System W) : Action W → Option (System W)
  | .tick elapsed => some { s with now := s.now + elapsed }
  | .queue identity =>
    if s.rows.rows.any fun r => r.2.eventId = identity.eventId then none
    else some { s with rows := s.rows.insert ⟨identity, .fresh⟩ }
  | .broadcast hash tx => (s.chain.send hash tx).map fun chain => { s with chain := chain }
  | .mine hash time blockNumber outOfGas =>
    (s.chain.mine D.evm hash time blockNumber outOfGas).map fun chain => { s with chain := chain }
  | .claim w pk readAt => s.claimRow w readAt (claimable pk)
  | .claimNext w locked readAt => s.claimRow w readAt (nextDue locked)
  | .recheck w pk => s.startRecheck D w pk
  | .find w => s.findRecord D w
  | .findError w error => s.findRaised D w error
  | .send w hash => s.sendTx D w hash (.sent hash)
  | .sendError w error => s.submitRaised w error false
  | .sendUnanswered w hash error => s.sendTx D w hash (.failed error)
  | .persist w => s.persistHash w
  | .receipt w => s.takeReceipt w
  | .waitError w error => s.submitRaised w error true
  | .mark w => s.mark D w
  | .stop w => some (s.goto w .idle)

/-- Before any run: no rows, no worker at work, a deployed registry and an empty chain. -/
structure Initial (s : System W) : Prop where
  rows : s.rows.rows = []
  idle : ∀ w, s.pc w = .idle
  deployed : ∃ owner, deploy owner = .ok s.chain.registry
  mined : s.chain.mined = []
  sent : ∀ hash, s.chain.sent hash = none

end System

end LamTo.Model
