import LamTo.Analysis.Anchoring
import Mathlib.Data.List.Pairwise

/-!
# Which transaction a confirmed row names

A row's `transaction_hash` is written when it is empty and kept when the record is found on
chain. It names the recording transaction whenever the found-on-chain road confirms a row
whose stored transaction was mined with a good receipt, and a hash that arrives late in a
confirmed row is that of such a transaction too. A first attempt that reverted and a second
one that timed out and was mined break this (`transaction_hash_of_reverted_attempt`).

SOURCE: src/lamto/evidence/chain.py:144-175, src/lamto/evidence/worker.py:120-158, 336-348
-/

set_option autoImplicit false

namespace LamTo.Analysis

open LamTo.Library LamTo.Model

variable {W : Type}

/-- The text is the hash of a transaction in a block with a good receipt. -/
def HashSucceeded (c : Chain) (text : Text) : Prop :=
  ∃ m ∈ c.mined, bytes32Text m.hash = text ∧ m.receipt.status = 1

instance (c : Chain) (text : Text) : Decidable (HashSucceeded c text) :=
  inferInstanceAs (Decidable (∃ m ∈ c.mined, _ ∧ _))

/-- The hash the found-on-chain road keeps is that of a successful transaction. -/
def KeepsSuccess (D : Deployment W) (s : System W) : Pc → Prop
  | .busy pk _ (.found record) => ∀ row ∈ s.rows.get? pk,
      recordMatchesEvent D.codec record row.toIdentity = some true →
      row.transactionHash ≠ [] → HashSucceeded s.chain row.transactionHash
  | _ => True

/-- The hash `submit` stores in a row that is confirmed by then is that of a successful
transaction. -/
def StoresSuccess (s : System W) : Pc → Prop
  | .busy pk held (.sent hash) => ∀ row ∈ s.rows.get? pk,
      held.transactionHash = [] → row.status = .confirmed →
      HashSucceeded s.chain (bytes32Text hash)
  | _ => True

/-- The condition on the two writes that leave a hash in a confirmed row. -/
def NamesSuccess (D : Deployment W) (s : System W) : Action W → Prop
  | .mark w => KeepsSuccess D s (s.pc w)
  | .persist w => StoresSuccess s (s.pc w)
  | _ => True

instance (D : Deployment W) (s : System W) (pc : Pc) : Decidable (KeepsSuccess D s pc) :=
  match pc with
  | .busy _ _ (.found _) => inferInstanceAs (Decidable (∀ row ∈ _, _ → _ → _))
  | .idle | .busy _ _ .claimed | .busy _ _ .absent | .busy _ _ (.sent _)
  | .busy _ _ (.waiting _) | .busy _ _ (.receipted _ _) | .busy _ _ (.failed _)
  | .busy _ _ .rechecking | .busy _ _ (.recheckFound _) => inferInstanceAs (Decidable True)

instance (s : System W) (pc : Pc) : Decidable (StoresSuccess s pc) :=
  match pc with
  | .busy _ _ (.sent _) => inferInstanceAs (Decidable (∀ row ∈ _, _ → _ → _))
  | .idle | .busy _ _ .claimed | .busy _ _ .absent | .busy _ _ (.found _)
  | .busy _ _ (.waiting _) | .busy _ _ (.receipted _ _) | .busy _ _ (.failed _)
  | .busy _ _ .rechecking | .busy _ _ (.recheckFound _) => inferInstanceAs (Decidable True)

instance (D : Deployment W) (s : System W) (a : Action W) : Decidable (NamesSuccess D s a) :=
  match a with
  | .mark w => inferInstanceAs (Decidable (KeepsSuccess D s (s.pc w)))
  | .persist w => inferInstanceAs (Decidable (StoresSuccess s (s.pc w)))
  | .tick _ | .queue _ | .broadcast _ _ | .mine _ _ _ _ | .claim _ _ _ | .claimNext _ _ _
  | .recheck _ _ | .find _ | .findError _ _ | .send _ _ | .sendError _ _
  | .sendUnanswered _ _ _ | .receipt _ | .waitError _ _ | .stop _ =>
    inferInstanceAs (Decidable True)

/-- A confirmed row that has a hash has that of a successful transaction. -/
def HashInv (s : System W) : Prop :=
  ∀ pk row, s.rows.get? pk = some row → row.status = .confirmed → row.transactionHash ≠ [] →
    HashSucceeded s.chain row.transactionHash

theorem hashSucceeded_grows (c c' : Chain) (h : ChainGrows c c') (text : Text)
    (hs : HashSucceeded c text) : HashSucceeded c' text := by
  obtain ⟨m, hm, hhash⟩ := hs
  exact ⟨m, h.mined m hm, hhash⟩

variable {D : Deployment W} {s t : System W}

theorem rowWrite_hash (hanchoring : AnchoringInv D s) (w : W) (pk : ℕ) (e : OutboxEvent)
    (a : Action W) (d : Delivery) (pc : Pc) (hrow : s.rows.get? pk = some e)
    (hwrite : RowWrite D s w pk e a d pc) (hok : NamesSuccess D s a)
    (hconf : d.status = .confirmed) (hne : d.transactionHash ≠ []) :
    HashSucceeded s.chain d.transactionHash := by
  cases hwrite with
  | claim _ readAt hpc hdue => cases hconf
  | store held hash hpc hempty =>
    simp only [NamesSuccess, StoresSuccess, hpc] at hok
    exact hok e hrow hempty hconf
  | settle held hpc => cases hconf
  | confirmFound held record _ hpc hmatch hd =>
    have hkept := (markConfirmed_spec _ _ _ _ _ _ hd).2.2
    rw [ite_self] at hkept
    rw [hkept] at hne ⊢
    simp only [NamesSuccess, KeepsSuccess, hpc] at hok
    exact hok e hrow hmatch hne
  | mismatch held record hpc => cases hconf
  | confirmSubmitted held hash receipt _ hpc hd =>
    have hset := (markConfirmed_spec _ _ _ _ _ _ hd).2.2
    rw [if_neg (bytes32Text_ne_nil hash)] at hset
    have hstage : SentFor D s.chain held.toIdentity hash ∧ Succeeded s.chain hash :=
      hanchoring.stage w pk held _ hpc
    obtain ⟨m, hm, rfl, hstatus⟩ := hstage.2
    rw [hset]
    exact ⟨m, hm, rfl, hstatus⟩
  | retry held error hpc => cases hconf
  | recheck held record hpc => cases hconf

/-! ## The recording transaction -/

theorem bytes32Text_injective (a b : Bytes32) (h : bytes32Text a = bytes32Text b) : a = b := by
  rw [← bytes32Value_text a, h, bytes32Value_text]

/-- The transaction `m` created the record under `eventId`: it is the one successful
`recordEvidence` for the id, and the record has its block's time. -/
structure CreatedRecord (c : Chain) (m : Mined) (eventId : Bytes32) : Prop where
  mined : m ∈ c.mined
  records : Records m eventId
  recordedAt : (c.registry.records eventId).recordedAt = BitVec.ofNat 64 m.tx.time.seconds
  only : ∀ n ∈ c.mined, Records n eventId → n = m

/-- A successful transaction that was sent for a row created the row's record. -/
theorem createdRecord_of_succeeded (c : Chain) (hok : ChainOk c) (i : Identity) (m : Mined)
    (hm : m ∈ c.mined) (hstatus : m.receipt.status = 1) (hsent : SentFor D c i m.hash) :
    CreatedRecord c m (bytes32Value i.eventId) := by
  obtain ⟨sender, call, hcall, hknown⟩ := hsent
  have hmcall : m.tx.call = call := by
    have hm' := hok.sent m hm
    rw [hknown] at hm'
    exact (congrArg SignedCall.call (Option.some.inj hm')).symm
  obtain ⟨signer, signature, _, rfl⟩ := recordEvidenceCall_eq_some D.codec i call hcall
  have hrecords : Records m (bytes32Value i.eventId) :=
    ⟨hstatus, _, _, _, _, _, hmcall⟩
  refine ⟨hm, hrecords, ?_, ?_⟩
  · rw [(hok.recorded m hm hstatus _ _ _ _ _ _ hmcall).2]
  · intro n hn hrec
    by_contra hne
    have hsymm : Std.Symm fun a b : Mined =>
        ¬ (Records a (bytes32Value i.eventId) ∧ Records b (bytes32Value i.eventId)) :=
      ⟨fun _ _ h hba => h hba.symm⟩
    exact (hok.once (bytes32Value i.eventId)).forall hn hm hne ⟨hrec, hrecords⟩

/-! ## Steps and runs -/

variable [DecidableEq W]

/-- **One step keeps the invariant**, under the condition. -/
theorem effect_hashInv (a : Action W) (hinv : HashInv s) (hanchoring : AnchoringInv D s)
    (hok : NamesSuccess D s a) (heffect : Effect D s a t) : HashInv t := by
  have hgrown : ∀ c, ChainGrows s.chain c → ∀ pk row, s.rows.get? pk = some row →
      row.status = .confirmed → row.transactionHash ≠ [] →
      HashSucceeded c row.transactionHash := by
    intro c hgrows pk row hrow hconf hne
    exact hashSucceeded_grows _ _ hgrows _ (hinv pk row hrow hconf hne)
  cases heffect with
  | clock now => exact hinv
  | queue identity =>
    intro pk row hrow hconf hne
    rw [Table.get?_insert] at hrow
    split at hrow
    · cases hrow
      cases hconf
    · exact hinv pk row hrow hconf hne
  | chain c hc =>
    rcases hc with ⟨hash, tx, hsend⟩ | ⟨hash, time, blockNumber, outOfGas, hmine⟩
    · exact hgrown c (send_grows _ _ hash tx hsend)
    · exact hgrown c (mine_grows _ _ _ hash time blockNumber outOfGas hmine)
  | send w pk e hash call c stage hpc hcall hsend hstage =>
    exact hgrown c (send_grows _ _ hash _ hsend)
  | move w pc hmove => exact hinv
  | write w pk e d pc rows hrow hwrite hrows =>
    intro q row hq hconf hne
    have hq' : rows.get? q = some row := hq
    rw [hrows] at hq'
    split at hq'
    · cases hq'
      exact rowWrite_hash hanchoring w pk e a d pc hrow hwrite hok hconf hne
    · exact hinv q row hq' hconf hne

theorem reaches_hashInv (hreach : Reaches (System.step D) (NamesSuccess D) s t)
    (hanchoring : AnchoringInv D s) (hinv : HashInv s) : HashInv t := by
  have hboth := hreach.preserves (fun u => AnchoringInv D u ∧ HashInv u) ?_ ⟨hanchoring, hinv⟩
  · exact hboth.2
  · intro u a v hu hok hstep
    exact ⟨step_anchoringInv a hu.1 hstep,
      effect_hashInv a hu.2 hu.1 hok (step_effect hu.1.held a hstep)⟩

/-- **The named transaction is the recording one**, in every run that meets the condition: a
confirmed row with a transaction hash has that of the `recordEvidence` call that created the
record under its event id. SOURCE: chain.py:144-175, worker.py:120-158, 320-360 -/
theorem transaction_hash_is_recording (D : Deployment W) (s₀ s : System W) (hinit : s₀.Initial)
    (hreach : Reaches (System.step D) (NamesSuccess D) s₀ s) (pk : ℕ) (row : OutboxEvent)
    (hrow : s.rows.get? pk = some row) (hconf : row.status = .confirmed)
    (hne : row.transactionHash ≠ []) :
    ∃ m, bytes32Text m.hash = row.transactionHash ∧
      CreatedRecord s.chain m (bytes32Value row.eventId) := by
  have hanchoring := reaches_anchoringInv hreach (initial_anchoringInv (D := D) hinit)
  have hinv : HashInv s := by
    refine reaches_hashInv hreach (initial_anchoringInv hinit) ?_
    intro q x hx
    rw [Table.get?, hinit.rows] at hx
    cases hx
  obtain ⟨m, hm, htext, hstatus⟩ := hinv pk row hrow hconf hne
  obtain ⟨hash, hstored, hsent⟩ := (hanchoring.rows pk row hrow).hash hne
  have hhash : m.hash = hash := bytes32Text_injective _ _ (htext.trans hstored)
  rw [← hhash] at hsent
  exact ⟨m, htext, createdRecord_of_succeeded s.chain hanchoring.chain _ m hm hstatus hsent⟩

/-- The row a worker confirms undisturbed names the transaction it sent. -/
theorem transaction_hash_is_recording_undisturbed :
    ∃ s row m, Reaches (System.step twoWorkers) (NamesSuccess twoWorkers) emptySystem s ∧
      s.rows.get? 1 = some row ∧ row.status = .confirmed ∧
      row.transactionHash = bytes32Text 200 ∧ bytes32Text m.hash = row.transactionHash ∧
      CreatedRecord s.chain m (bytes32Value row.eventId) := by
  obtain ⟨s, hreach, hrow⟩ := exists_of_run
    (guarded (System.step twoWorkers) (NamesSuccess twoWorkers)) emptySystem
    (fun s => (s.rows.get? 1).map (fun e => (e.status, e.transactionHash))
      = some (.confirmed, bytes32Text 200)) undisturbed (by decide +kernel)
  obtain ⟨row, hrow, hboth⟩ := Option.map_eq_some_iff.mp hrow
  obtain ⟨hconf, hhash⟩ := Prod.mk.inj hboth
  have hne : row.transactionHash ≠ [] := by
    rw [hhash]
    exact bytes32Text_ne_nil 200
  obtain ⟨m, htext, hcreated⟩ := transaction_hash_is_recording twoWorkers emptySystem s
    emptySystem_initial hreach.of_guarded 1 row hrow hconf hne
  exact ⟨s, row, m, hreach.of_guarded, hrow, hconf, hhash, htext, hcreated⟩

def thirdBlock : BlockTime := ⟨3, by decide, by decide⟩

/-- Three attempts at one row: the first reverts, as the signer is not authorised yet; the
second is mined, but its receipt comes too late; the third finds the record. -/
def revertedThenLate : List (Action Bool) :=
  [.queue sampleIdentity,
   .claim true 1 0, .find true, .send true 200, .persist true,
   .mine 200 firstBlock 1 false, .receipt true, .mark true,
   .broadcast 100 ⟨1, .setAuthorizedSigner 5 true⟩, .mine 100 secondBlock 2 false,
   .tick (30 * second), .claim true 1 (30 * second), .find true, .send true 201, .persist true,
   .waitError true [], .mine 201 thirdBlock 3 false, .mark true,
   .tick (60 * second), .claim true 1 (90 * second), .find true, .mark true]

/-- **Without the condition the hash may be that of a reverted attempt**: the row is
confirmed at the end of that run and still names the first transaction. -/
theorem transaction_hash_of_reverted_attempt :
    ¬ ∀ s, Reaches (System.step twoWorkers) Always emptySystem s →
      ∀ pk row, s.rows.get? pk = some row → row.status = .confirmed →
        row.transactionHash ≠ [] →
        ∃ m, bytes32Text m.hash = row.transactionHash ∧
          CreatedRecord s.chain m (bytes32Value row.eventId) := by
  intro hclaim
  obtain ⟨s, hreach, hboth⟩ := exists_of_run (System.step twoWorkers) emptySystem
    (fun s => (s.rows.get? 1).map (fun e => (e.status, e.transactionHash))
      = some (.confirmed, bytes32Text 200) ∧
      ∀ m ∈ s.chain.mined, m.hash = 200 → m.receipt.status = 0)
    revertedThenLate (by decide +kernel)
  obtain ⟨hrow, hreverted⟩ := hboth
  obtain ⟨row, hrow, hpair⟩ := Option.map_eq_some_iff.mp hrow
  obtain ⟨hconf, hhash⟩ := Prod.mk.inj hpair
  have hne : row.transactionHash ≠ [] := by
    rw [hhash]
    exact bytes32Text_ne_nil 200
  obtain ⟨m, htext, hcreated⟩ := hclaim s hreach 1 row hrow hconf hne
  have hm : m.hash = 200 := bytes32Text_injective _ _ (htext.trans hhash)
  have hzero := hreverted m hcreated.mined hm
  rw [hcreated.records.1] at hzero
  cases hzero

end LamTo.Analysis
