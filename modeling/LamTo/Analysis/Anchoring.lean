import LamTo.Analysis.ChainMatch
import LamTo.Analysis.WorkerSteps

/-!
# Confirmed means recorded

The invariant links the three places an event lives in: a confirmed row has its record in
the registry, a worker that is past a send has its transaction among those the chain knows,
and a transaction with a good receipt has written what it asked for. All of it survives
whatever the others do, since rows keep their identity, sent transactions stay sent and
records stay (`Grows`); so each effect has to be checked for its own row and its own worker
only.

SOURCE: src/lamto/evidence/worker.py:320-360, src/lamto/evidence/chain.py:131-175
-/

set_option autoImplicit false

namespace LamTo.Analysis

open LamTo.Library LamTo.Model

/-! ## The chain -/

/-- The transaction wrote the record under `eventId`. -/
def Records (m : Mined) (eventId : Bytes32) : Prop :=
  m.receipt.status = 1 ∧ ∃ payloadHash previousHash eventType signer signature,
    m.tx.call = .recordEvidence eventId payloadHash previousHash eventType signer signature

/-- The chain's own invariant: what is in a block was sent, a successful `recordEvidence` is
what the registry holds, and no event id has two of them. -/
structure ChainOk (c : Chain) : Prop where
  sent : ∀ m ∈ c.mined, c.sent m.hash = some ⟨m.tx.sender, m.tx.call⟩
  recorded : ∀ m ∈ c.mined, m.receipt.status = 1 →
    ∀ eventId payloadHash previousHash eventType signer signature,
      m.tx.call = .recordEvidence eventId payloadHash previousHash eventType signer signature →
      c.registry.Present eventId ∧ c.registry.records eventId
        = ⟨payloadHash, previousHash, eventType, signer, BitVec.ofNat 64 m.tx.time.seconds⟩
  once : ∀ eventId, c.mined.Pairwise fun a b => ¬ (Records a eventId ∧ Records b eventId)

/-- What a later chain keeps of an earlier one. -/
structure ChainGrows (c c' : Chain) : Prop where
  sent : ∀ hash tx, c.sent hash = some tx → c'.sent hash = some tx
  mined : ∀ m ∈ c.mined, m ∈ c'.mined
  records : ∀ eventId, c.registry.Present eventId →
    c'.registry.records eventId = c.registry.records eventId

theorem ChainGrows.refl (c : Chain) : ChainGrows c c :=
  ⟨fun _ _ h => h, fun _ h => h, fun _ _ => rfl⟩

theorem ChainGrows.present {c c' : Chain} (h : ChainGrows c c') (eventId : Bytes32)
    (hpresent : c.registry.Present eventId) : c'.registry.Present eventId := by
  rw [Registry.Present, h.records eventId hpresent]
  exact hpresent

theorem send_spec (c c' : Chain) (hash : Bytes32) (tx : SignedCall)
    (h : c.send hash tx = some c') :
    c'.sent hash = some tx ∧ (∀ x y, c.sent x = some y → c'.sent x = some y) ∧
      c'.registry = c.registry ∧ c'.mined = c.mined := by
  unfold Chain.send at h
  split at h
  · next hnone =>
    cases h
    refine ⟨Function.update_self _ _ _, ?_, rfl, rfl⟩
    intro x y hxy
    have hne : x ≠ hash := by
      rintro rfl
      rw [hnone] at hxy
      cases hxy
    simpa [Function.update_of_ne hne] using hxy
  · next old hold =>
    split at h
    · next heq =>
      cases h
      subst heq
      exact ⟨hold, fun _ _ hxy => hxy, rfl, rfl⟩
    · cases h

theorem mine_spec (E : Evm) (c c' : Chain) (hash : Bytes32) (time : BlockTime)
    (blockNumber : ℕ) (outOfGas : Bool)
    (h : c.mine E hash time blockNumber outOfGas = some c') :
    ∃ x status, c.sent hash = some x ∧ c'.sent = c.sent ∧
      c'.mined = c.mined ++ [⟨hash, ⟨x.sender, x.call, time⟩, ⟨status, blockNumber⟩⟩] ∧
      ((status = 1 ∧ c.registry.exec E ⟨x.sender, x.call, time⟩ = .ok c'.registry) ∨
        (status = 0 ∧ c'.registry = c.registry)) := by
  obtain ⟨x, hx, hrun⟩ := Option.bind_eq_some_iff.mp h
  split at hrun
  · cases hrun
  · simp only at hrun
    split at hrun
    · next registry hexec =>
      cases hrun
      exact ⟨x, 1, hx, rfl, rfl, .inl ⟨rfl, hexec⟩⟩
    · cases hrun
      exact ⟨x, 0, hx, rfl, rfl, .inr ⟨rfl, rfl⟩⟩

theorem exec_records_of_present (E : Evm) (r r' : Registry) (tx : Transaction)
    (h : r.exec E tx = .ok r') (eventId : Bytes32) (hpresent : r.Present eventId) :
    r'.records eventId = r.records eventId := by
  have hkept := apply_records_of_present E r tx eventId hpresent
  rwa [Registry.apply, h] at hkept

/-- A successful `recordEvidence` finds no record and leaves the one it asked for. -/
theorem exec_recordEvidence (E : Evm) (r r' : Registry) (tx : Transaction)
    (h : r.exec E tx = .ok r') (eventId payloadHash previousHash : Bytes32)
    (eventType : BitVec 8) (signer : Address) (signature : Bytes)
    (hcall : tx.call =
      .recordEvidence eventId payloadHash previousHash eventType signer signature) :
    ¬ r.Present eventId ∧ r'.Present eventId ∧ r'.records eventId
      = ⟨payloadHash, previousHash, eventType, signer, BitVec.ofNat 64 tx.time.seconds⟩ := by
  rw [Registry.exec, hcall] at h
  obtain ⟨hid, hpayload, htype, habsent, hauth, hrec, rfl⟩ :=
    recordEvidence_eq_ok E r r' _ _ _ _ _ _ _ h
  have haccepted : Accepted E r tx eventId
      ⟨payloadHash, previousHash, eventType, signer, BitVec.ofNat 64 tx.time.seconds⟩ signature :=
    ⟨hcall, hid, hpayload, htype, by simpa [Registry.Present] using habsent, hauth, hrec, rfl⟩
  refine ⟨haccepted.absent, ?_, Function.update_self _ _ _⟩
  simp only [Registry.Present, Function.update_self]
  exact haccepted.recordedAt_ne E

theorem mine_grows (E : Evm) (c c' : Chain) (hash : Bytes32) (time : BlockTime)
    (blockNumber : ℕ) (outOfGas : Bool)
    (h : c.mine E hash time blockNumber outOfGas = some c') : ChainGrows c c' := by
  obtain ⟨x, status, _, hsent, hmined, hexec⟩ := mine_spec E c c' hash time blockNumber outOfGas h
  refine ⟨?_, ?_, ?_⟩
  · intro y tx hy
    rw [hsent]
    exact hy
  · intro m hm
    rw [hmined]
    exact List.mem_append_left _ hm
  · intro eventId hpresent
    rcases hexec with ⟨_, hexec⟩ | ⟨_, hregistry⟩
    · exact exec_records_of_present E _ _ _ hexec eventId hpresent
    · rw [hregistry]

theorem send_grows (c c' : Chain) (hash : Bytes32) (tx : SignedCall)
    (h : c.send hash tx = some c') : ChainGrows c c' := by
  obtain ⟨_, hsent, hregistry, hmined⟩ := send_spec c c' hash tx h
  refine ⟨hsent, ?_, ?_⟩
  · rw [hmined]
    exact fun _ hm => hm
  · rw [hregistry]
    exact fun _ _ => rfl

theorem send_chainOk (c c' : Chain) (hash : Bytes32) (tx : SignedCall) (hok : ChainOk c)
    (h : c.send hash tx = some c') : ChainOk c' := by
  obtain ⟨_, hsent, hregistry, hmined⟩ := send_spec c c' hash tx h
  refine ⟨?_, ?_, ?_⟩
  · rw [hmined]
    exact fun m hm => hsent _ _ (hok.sent m hm)
  · rw [hmined, hregistry]
    exact hok.recorded
  · rw [hmined]
    exact hok.once

/-- **Mining keeps the chain's invariant**: the new transaction is checked against the
registry it ran on, the old ones are covered by permanence. -/
theorem mine_chainOk (E : Evm) (c c' : Chain) (hash : Bytes32) (time : BlockTime)
    (blockNumber : ℕ) (outOfGas : Bool) (hok : ChainOk c)
    (h : c.mine E hash time blockNumber outOfGas = some c') : ChainOk c' := by
  have hgrows := mine_grows E c c' hash time blockNumber outOfGas h
  obtain ⟨x, status, hx, hsent, hmined, hexec⟩ :=
    mine_spec E c c' hash time blockNumber outOfGas h
  refine ⟨?_, ?_, ?_⟩
  · intro m hm
    rw [hmined] at hm
    rw [hsent]
    rcases List.mem_append.mp hm with hm | hm
    · exact hok.sent m hm
    · rw [List.mem_singleton.mp hm]
      exact hx
  · intro m hm hstatus eventId payloadHash previousHash eventType signer signature hcall
    rw [hmined] at hm
    rcases List.mem_append.mp hm with hm | hm
    · obtain ⟨hpresent, hrecord⟩ := hok.recorded m hm hstatus _ _ _ _ _ _ hcall
      exact ⟨hgrows.present eventId hpresent, by rw [hgrows.records eventId hpresent, hrecord]⟩
    · rw [List.mem_singleton.mp hm] at hstatus hcall ⊢
      rcases hexec with ⟨_, hexec⟩ | ⟨hzero, _⟩
      · exact (exec_recordEvidence E _ _ _ hexec _ _ _ _ _ _ hcall).2
      · rw [hzero] at hstatus
        cases hstatus
  · intro eventId
    rw [hmined, List.pairwise_append]
    refine ⟨hok.once eventId, List.pairwise_singleton _ _, ?_⟩
    intro m hm n hn hboth
    rw [List.mem_singleton.mp hn] at hboth
    obtain ⟨⟨hstatus, p, q, ty, sg, sig, hcall⟩, hnew, p', q', ty', sg', sig', hcall'⟩ := hboth
    rcases hexec with ⟨_, hexec⟩ | ⟨hzero, _⟩
    · have habsent := (exec_recordEvidence E _ _ _ hexec _ _ _ _ _ _ hcall').1
      exact habsent (hok.recorded m hm hstatus _ _ _ _ _ _ hcall).1
    · rw [hzero] at hnew
      cases hnew

/-! ## Rows and workers -/

section Invariant

variable {W : Type} (D : Deployment W)

/-- The transaction under `hash` is the call `submit` builds for the row. -/
def SentFor (c : Chain) (i : Identity) (hash : Bytes32) : Prop :=
  ∃ sender call, recordEvidenceCall D.codec i = some call ∧ c.sent hash = some ⟨sender, call⟩

/-- The transaction is in a block with a good receipt. -/
def Succeeded (c : Chain) (hash : Bytes32) : Prop :=
  ∃ m ∈ c.mined, m.hash = hash ∧ m.receipt.status = 1

structure RowOk (c : Chain) (row : OutboxEvent) : Prop where
  recorded : row.status = .confirmed → RecordedAs D.codec c.registry row.toIdentity
  hash : row.transactionHash ≠ [] →
    ∃ hash, row.transactionHash = bytes32Text hash ∧ SentFor D c row.toIdentity hash

/-- What a worker relies on between two of its steps. -/
def StageOk (c : Chain) (i : Identity) : Stage → Prop
  | .found record => find D.codec c.registry i = some record
  | .sent hash => SentFor D c i hash
  | .waiting hash => SentFor D c i hash
  | .receipted hash _ => SentFor D c i hash ∧ Succeeded c hash
  | _ => True

structure AnchoringInv (s : System W) : Prop where
  chain : ChainOk s.chain
  rows : ∀ pk row, s.rows.get? pk = some row → RowOk D s.chain row
  held : HoldsRows s
  stage : ∀ w pk e stage, s.pc w = .busy pk e stage → StageOk D s.chain e.toIdentity stage

/-! ### Everything relied on survives a growing chain -/

variable {D} {c c' : Chain}

theorem recordedAs_grows (h : ChainGrows c c') (i : Identity)
    (hrec : RecordedAs D.codec c.registry i) : RecordedAs D.codec c'.registry i := by
  have hrecord := h.records _ hrec.present
  refine ⟨h.present _ hrec.present, ?_, ?_, ?_, ?_⟩
  · rw [hrecord, hrec.payloadHash]
  · rw [hrecord, hrec.previousHash]
  · rw [hrecord, hrec.eventType]
  · rw [hrecord, hrec.signer]

theorem find_grows (h : ChainGrows c c') (i : Identity) (r : ChainRecord)
    (hfind : find D.codec c.registry i = some r) : find D.codec c'.registry i = some r := by
  have hpresent := (find_eq_some D.codec c.registry i r hfind).1
  rw [← hfind]
  simp only [find, h.records _ hpresent]

theorem sentFor_grows (h : ChainGrows c c') (i : Identity) (hash : Bytes32)
    (hsent : SentFor D c i hash) : SentFor D c' i hash := by
  obtain ⟨sender, call, hcall, hknown⟩ := hsent
  exact ⟨sender, call, hcall, h.sent _ _ hknown⟩

theorem succeeded_grows (h : ChainGrows c c') (hash : Bytes32) (hs : Succeeded c hash) :
    Succeeded c' hash := by
  obtain ⟨m, hm, hhash⟩ := hs
  exact ⟨m, h.mined m hm, hhash⟩

theorem rowOk_grows (h : ChainGrows c c') (row : OutboxEvent) (hrow : RowOk D c row) :
    RowOk D c' row := by
  refine ⟨fun hconf => recordedAs_grows h _ (hrow.recorded hconf), fun hne => ?_⟩
  obtain ⟨hash, htext, hsent⟩ := hrow.hash hne
  exact ⟨hash, htext, sentFor_grows h _ hash hsent⟩

theorem stageOk_grows (h : ChainGrows c c') (i : Identity) (stage : Stage)
    (hstage : StageOk D c i stage) : StageOk D c' i stage := by
  cases stage with
  | found record => exact find_grows h i record hstage
  | sent hash => exact sentFor_grows h i hash hstage
  | waiting hash => exact sentFor_grows h i hash hstage
  | receipted hash receipt =>
    exact ⟨sentFor_grows h i hash hstage.1, succeeded_grows h hash hstage.2⟩
  | _ => trivial

/-- **A good receipt means recorded**: the successful transaction under the hash is the
row's own call, and the registry holds what it wrote. -/
theorem recordedAs_of_succeeded (hok : ChainOk c) (i : Identity) (hash : Bytes32)
    (hsent : SentFor D c i hash) (hs : Succeeded c hash) :
    RecordedAs D.codec c.registry i := by
  obtain ⟨sender, call, hcall, hknown⟩ := hsent
  obtain ⟨m, hm, rfl, hstatus⟩ := hs
  have hmcall : m.tx.call = call := by
    have hm' := hok.sent m hm
    rw [hknown] at hm'
    exact (congrArg SignedCall.call (Option.some.inj hm')).symm
  obtain ⟨signer, signature, hsigner, rfl⟩ := recordEvidenceCall_eq_some D.codec i call hcall
  obtain ⟨hpresent, hrecord⟩ := hok.recorded m hm hstatus _ _ _ _ _ _ hmcall
  exact recordedAs_of_call D.codec c.registry i signer _ hsigner hpresent hrecord

/-! ### One effect at a time -/

theorem markConfirmed_spec (now : ℕ) (hash : Text) (receipt : Option Receipt) (recordedAt : ℕ)
    (d d' : Delivery) (h : d.markConfirmed now hash receipt recordedAt = some d') :
    d'.status = .confirmed ∧ d'.leaseExpiresAt = none ∧
      d'.transactionHash = if hash = [] then d.transactionHash else hash := by
  unfold Delivery.markConfirmed at h
  cases receipt with
  | none =>
    simp only at h
    split at h
    · cases h
      exact ⟨rfl, rfl, rfl⟩
    · obtain ⟨time, _, h⟩ := Option.bind_eq_some_iff.mp h
      cases h
      exact ⟨rfl, rfl, rfl⟩
  | some r =>
    simp only at h
    split at h
    · cases h
      exact ⟨rfl, rfl, rfl⟩
    · obtain ⟨time, _, h⟩ := Option.bind_eq_some_iff.mp h
      cases h
      exact ⟨rfl, rfl, rfl⟩

/-- A write that leaves the row unconfirmed and its transaction hash alone. -/
theorem rowOk_of_unconfirmed (e : OutboxEvent) (d : Delivery) (hrow : RowOk D c e)
    (hstatus : d.status ≠ .confirmed) (hhash : d.transactionHash = e.transactionHash) :
    RowOk D c ⟨e.toIdentity, d⟩ := by
  refine ⟨fun hconf => absurd hconf hstatus, fun hne => ?_⟩
  simp only [hhash] at hne ⊢
  exact hrow.hash hne

variable {s t : System W}

theorem rowWrite_ok (hinv : AnchoringInv D s) (w : W) (pk : ℕ) (e : OutboxEvent) (a : Action W)
    (d : Delivery) (pc : Pc) (hrow : s.rows.get? pk = some e)
    (hwrite : RowWrite D s w pk e a d pc) : RowOk D s.chain ⟨e.toIdentity, d⟩ := by
  have hold := hinv.rows pk e hrow
  have hidentity : ∀ held stage, s.pc w = .busy pk held stage →
      held.toIdentity = e.toIdentity := by
    intro held stage hpc
    obtain ⟨row, hrow', hsame⟩ := hinv.held w pk held stage hpc
    rw [hrow] at hrow'
    cases hrow'
    exact hsame.symm
  cases hwrite with
  | claim _ readAt hpc hdue => exact rowOk_of_unconfirmed e _ hold (by simp [Delivery.claim]) rfl
  | store held hash hpc hempty =>
    have hsent : SentFor D s.chain held.toIdentity hash := hinv.stage w pk held _ hpc
    rw [hidentity held _ hpc] at hsent
    exact ⟨hold.recorded, fun _ => ⟨hash, rfl, hsent⟩⟩
  | settle held hpc => exact ⟨fun hconf => absurd hconf (by simp [Delivery.markLocal]),
      fun hne => absurd rfl hne⟩
  | confirmFound held record _ hpc hmatch hd =>
    obtain ⟨_, _, hhash⟩ := markConfirmed_spec _ _ _ _ _ _ hd
    have hfind : find D.codec s.chain.registry held.toIdentity = some record :=
      hinv.stage w pk held _ hpc
    rw [hidentity held _ hpc] at hfind
    refine ⟨fun _ => (recordMatchesEvent_eq_true D.codec _ _ record hfind).mp hmatch, ?_⟩
    intro hne
    simp only [ite_self] at hhash
    simp only [hhash] at hne ⊢
    exact hold.hash hne
  | mismatch held record hpc =>
    exact rowOk_of_unconfirmed e _ hold (by simp [Delivery.markMismatch]) rfl
  | confirmSubmitted held hash receipt _ hpc hd =>
    obtain ⟨_, _, hhash⟩ := markConfirmed_spec _ _ _ _ _ _ hd
    have hstage : SentFor D s.chain held.toIdentity hash ∧ Succeeded s.chain hash :=
      hinv.stage w pk held _ hpc
    rw [hidentity held _ hpc] at hstage
    refine ⟨fun _ => recordedAs_of_succeeded hinv.chain _ hash hstage.1 hstage.2, fun _ => ?_⟩
    rw [if_neg (bytes32Text_ne_nil hash)] at hhash
    exact ⟨hash, hhash, hstage.1⟩
  | retry held error hpc =>
    exact rowOk_of_unconfirmed e _ hold (by simp [Delivery.markRetry]) rfl
  | recheck held record hpc =>
    exact rowOk_of_unconfirmed e _ hold (by simp [Delivery.markMismatch]) rfl

/-- Every row keeps its key and its identity. -/
def KeepsIdentity (s t : System W) : Prop :=
  ∀ pk e, s.rows.get? pk = some e → ∃ e', t.rows.get? pk = some e' ∧ e'.toIdentity = e.toIdentity

theorem inv_chain (hinv : AnchoringInv D s) (c : Chain) (hgrows : ChainGrows s.chain c)
    (hok : ChainOk c) : AnchoringInv D { s with chain := c } where
  chain := hok
  rows := fun pk row hrow => rowOk_grows hgrows row (hinv.rows pk row hrow)
  held := hinv.held
  stage := fun w pk e stage hpc => stageOk_grows hgrows _ stage (hinv.stage w pk e stage hpc)

theorem inv_rows (hinv : AnchoringInv D s) (rows : OutboxTable)
    (hkeep : KeepsIdentity s { s with rows := rows })
    (hrows : ∀ pk row, rows.get? pk = some row → RowOk D s.chain row) :
    AnchoringInv D { s with rows := rows } where
  chain := hinv.chain
  rows := hrows
  held := by
    intro w pk e stage hpc
    obtain ⟨row, hrow, hsame⟩ := hinv.held w pk e stage hpc
    obtain ⟨row', hrow', hsame'⟩ := hkeep pk row hrow
    exact ⟨row', hrow', hsame'.trans hsame⟩
  stage := hinv.stage

/-- The place a writing worker comes to is one it may rely on. -/
theorem rowWrite_pc (hinv : AnchoringInv D s) (w : W) (pk : ℕ) (e : OutboxEvent) (a : Action W)
    (d : Delivery) (pc : Pc) (hrow : s.rows.get? pk = some e)
    (hwrite : RowWrite D s w pk e a d pc) (pk' : ℕ) (e' : OutboxEvent) (stage : Stage)
    (hpc : pc = .busy pk' e' stage) :
    (∃ row, s.rows.get? pk' = some row ∧ row.toIdentity = e'.toIdentity) ∧
      StageOk D s.chain e'.toIdentity stage := by
  cases hwrite with
  | claim _ readAt hidle hdue =>
    cases hpc
    exact ⟨⟨e, hrow, rfl⟩, trivial⟩
  | store held hash hat hempty =>
    cases hpc
    have hsent : SentFor D s.chain e'.toIdentity hash := hinv.stage w _ _ _ hat
    exact ⟨hinv.held w _ _ _ hat, hsent⟩
  | _ => cases hpc

theorem keepsIdentity_write (rows : OutboxTable) (pk : ℕ) (e : OutboxEvent) (d : Delivery)
    (hrow : s.rows.get? pk = some e)
    (hrows : ∀ q, rows.get? q = if q = pk then some ⟨e.toIdentity, d⟩ else s.rows.get? q) :
    KeepsIdentity s { s with rows := rows } := by
  intro q x hx
  by_cases hq : q = pk
  · subst hq
    rw [hrow] at hx
    cases hx
    exact ⟨⟨e.toIdentity, d⟩, by rw [hrows, if_pos rfl], rfl⟩
  · exact ⟨x, by rw [hrows, if_neg hq, hx], rfl⟩

theorem initial_anchoringInv (hinit : s.Initial) : AnchoringInv D s := by
  have hempty : ∀ pk, s.rows.get? pk = none := by
    intro pk
    rw [Table.get?, hinit.rows]
    rfl
  refine ⟨⟨?_, ?_, ?_⟩, ?_, ?_, ?_⟩
  · rw [hinit.mined]
    exact fun m hm => by cases hm
  · rw [hinit.mined]
    exact fun m hm => by cases hm
  · rw [hinit.mined]
    exact fun _ => List.Pairwise.nil
  · intro pk row hrow
    rw [hempty] at hrow
    cases hrow
  · intro w pk e stage hpc
    rw [hinit.idle] at hpc
    cases hpc
  · intro w pk e stage hpc
    rw [hinit.idle] at hpc
    cases hpc

variable [DecidableEq W]

theorem inv_goto (hinv : AnchoringInv D s) (w : W) (pc : Pc)
    (hpc : ∀ pk e stage, pc = .busy pk e stage →
      (∃ row, s.rows.get? pk = some row ∧ row.toIdentity = e.toIdentity) ∧
        StageOk D s.chain e.toIdentity stage) :
    AnchoringInv D (s.goto w pc) := by
  refine ⟨hinv.chain, hinv.rows, ?_, ?_⟩
  · intro w' pk e stage h
    rcases goto_pc_cases w w' pc pk e stage h with h | h
    · exact (hpc pk e stage h).1
    · exact hinv.held w' pk e stage h
  · intro w' pk e stage h
    rcases goto_pc_cases w w' pc pk e stage h with h | h
    · exact (hpc pk e stage h).2
    · exact hinv.stage w' pk e stage h

/-- The place a moving worker comes to is one it may rely on. -/
theorem pcMove_ok (hinv : AnchoringInv D s) (w : W) (pc : Pc) (hmove : PcMove D s w pc) :
    AnchoringInv D (s.goto w pc) := by
  apply inv_goto hinv
  intro pk e stage hpc
  cases hmove with
  | idle => cases hpc
  | found pk' e' record hat hfind =>
    cases hpc
    exact ⟨hinv.held w _ _ _ hat, hfind⟩
  | absent pk' e' hat =>
    cases hpc
    exact ⟨hinv.held w _ _ _ hat, trivial⟩
  | failed pk' e' stage' error hat _ =>
    cases hpc
    exact ⟨hinv.held w _ _ _ hat, trivial⟩
  | waiting pk' e' hash hat =>
    cases hpc
    have hsent : SentFor D s.chain e.toIdentity hash := hinv.stage w _ _ _ hat
    exact ⟨hinv.held w _ _ _ hat, hsent⟩
  | receipted pk' e' hash m hat hmined hstatus =>
    cases hpc
    have hsent : SentFor D s.chain e.toIdentity hash := hinv.stage w _ _ _ hat
    have hhash : m.hash = hash := by simpa using List.find?_some hmined
    have hmem : m ∈ s.chain.mined := List.mem_of_find?_eq_some hmined
    exact ⟨hinv.held w _ _ _ hat, hsent, m, hmem, hhash, hstatus⟩
  | rechecking pk' e' hrow _ =>
    cases hpc
    exact ⟨⟨e, hrow, rfl⟩, trivial⟩
  | recheckFound pk' e' record hat hfind hmatch =>
    cases hpc
    exact ⟨hinv.held w _ _ _ hat, trivial⟩

/-- **No step changes an identity field.** -/
theorem effect_keepsIdentity (a : Action W) (heffect : Effect D s a t) : KeepsIdentity s t := by
  cases heffect with
  | queue identity =>
    intro pk e hrow
    exact ⟨e, Table.get?_insert_of_some _ _ _ pk hrow, rfl⟩
  | write w pk e d pc rows hrow hwrite hrows => exact keepsIdentity_write rows pk e d hrow hrows
  | _ => exact fun pk e hrow => ⟨e, hrow, rfl⟩

/-- **One step keeps the invariant.** -/
theorem step_anchoringInv (a : Action W) (hinv : AnchoringInv D s)
    (h : System.step D s a = some t) : AnchoringInv D t := by
  have heffect := step_effect hinv.held a h
  cases heffect with
  | clock now => exact ⟨hinv.chain, hinv.rows, hinv.held, hinv.stage⟩
  | queue identity =>
    refine inv_rows hinv _ ?_ ?_
    · exact fun pk e hrow => ⟨e, Table.get?_insert_of_some _ _ _ pk hrow, rfl⟩
    · intro pk row hrow
      rw [Table.get?_insert] at hrow
      split at hrow
      · cases hrow
        exact ⟨fun hconf => by simp [Delivery.fresh] at hconf, fun hne => absurd rfl hne⟩
      · exact hinv.rows pk row hrow
  | chain c hc =>
    rcases hc with ⟨hash, tx, hsend⟩ | ⟨hash, time, blockNumber, outOfGas, hmine⟩
    · exact inv_chain hinv c (send_grows _ _ hash tx hsend)
        (send_chainOk _ _ hash tx hinv.chain hsend)
    · exact inv_chain hinv c (mine_grows _ _ _ hash time blockNumber outOfGas hmine)
        (mine_chainOk _ _ _ hash time blockNumber outOfGas hinv.chain hmine)
  | send w pk e hash call c stage hpc hcall hsend hstage =>
    have hsent := (send_spec _ _ hash _ hsend).1
    have hchain := inv_chain hinv c (send_grows _ _ hash _ hsend)
      (send_chainOk _ _ hash _ hinv.chain hsend)
    refine inv_goto hchain w _ ?_
    intro pk' e' stage' hbusy
    cases hbusy
    refine ⟨hinv.held w pk e _ hpc, ?_⟩
    rcases hstage with rfl | ⟨error, rfl⟩
    · exact ⟨D.relayer w, call, hcall, hsent⟩
    · trivial
  | move w pc hmove => exact pcMove_ok hinv w pc hmove
  | write w pk e d pc rows hrow hwrite hrows =>
    have hkeep := keepsIdentity_write rows pk e d hrow hrows
    have hnew : AnchoringInv D { s with rows := rows } := by
      refine inv_rows hinv rows hkeep ?_
      intro q row hq
      rw [hrows] at hq
      split at hq
      · cases hq
        exact rowWrite_ok hinv w pk e _ d pc hrow hwrite
      · exact hinv.rows q row hq
    refine inv_goto hnew w pc ?_
    intro pk' e' stage hpc
    obtain ⟨⟨row, hrow', hsame⟩, hstage⟩ :=
      rowWrite_pc hinv w pk e _ d pc hrow hwrite pk' e' stage hpc
    obtain ⟨row', hrow'', hsame'⟩ := hkeep pk' row hrow'
    exact ⟨⟨row', hrow'', hsame'.trans hsame⟩, hstage⟩

/-! ## Runs -/

theorem reaches_anchoringInv {ok : System W → Action W → Prop}
    (hreach : Reaches (System.step D) ok s t) (hinv : AnchoringInv D s) : AnchoringInv D t :=
  hreach.preserves (AnchoringInv D) (fun _ a _ hu _ hstep => step_anchoringInv a hu hstep) hinv

theorem reaches_keepsIdentity (hreach : Reaches (System.step D) Always s t)
    (hinv : AnchoringInv D s) : KeepsIdentity s t := by
  refine Reaches.monotone (AnchoringInv D) KeepsIdentity ?_ ?_ ?_ ?_ hreach hinv
  · exact fun u pk e hrow => ⟨e, hrow, rfl⟩
  · intro u v x huv hvx pk e hrow
    obtain ⟨e', hrow', hsame⟩ := huv pk e hrow
    obtain ⟨e'', hrow'', hsame'⟩ := hvx pk e' hrow'
    exact ⟨e'', hrow'', hsame'.trans hsame⟩
  · exact fun _ a _ hu _ hstep => step_anchoringInv a hu hstep
  · exact fun _ a _ hu _ hstep => effect_keepsIdentity a (step_effect hu.held a hstep)

/-- **Confirmed means recorded.** In every state any run of any number of workers reaches,
with other relayers, the miner and the clock in between: a confirmed row has its record in
the registry, no event id is recorded by two transactions, and whatever follows leaves the
identity of every row as it is. SOURCE: worker.py:320-360, chain.py:131-175 -/
theorem confirmed_means_recorded (D : Deployment W) (s₀ s : System W) (hinit : s₀.Initial)
    (hreach : Reaches (System.step D) Always s₀ s) :
    (∀ pk row, s.rows.get? pk = some row → row.status = .confirmed →
      RecordedAs D.codec s.chain.registry row.toIdentity) ∧
    (∀ eventId, s.chain.mined.Pairwise fun a b => ¬ (Records a eventId ∧ Records b eventId)) ∧
    (∀ t, Reaches (System.step D) Always s t → ∀ pk row, s.rows.get? pk = some row →
      ∃ row', t.rows.get? pk = some row' ∧ row'.toIdentity = row.toIdentity) := by
  have hinv := reaches_anchoringInv hreach (initial_anchoringInv (D := D) hinit)
  refine ⟨?_, hinv.chain.once, ?_⟩
  · exact fun pk row hrow hconf => (hinv.rows pk row hrow).recorded hconf
  · exact fun t ht => reaches_keepsIdentity ht hinv

end Invariant

/-! ## A deployment with two workers

The signer's address has no letters, so its checksum text is its lower-case text; the
machine recovers the signer `5` from the one signature that is used. -/

/-- Addresses as `0x` and 40 lower-case digits. -/
def digitCodec : AddressCodec where
  parse t :=
    if t.take 2 = ['0', 'x'] ∧ (t.drop 2).length = 40 ∧ (t.drop 2).all isLowerHex then
      some (BitVec.ofNat 160 (hexNat (t.drop 2)))
    else none
  checksum a := '0' :: 'x' :: hexDigits 40 a.toNat
  parse_checksum a := by
    have hall : (hexDigits 40 a.toNat).all isLowerHex = true :=
      List.all_eq_true.mpr fun c hc => isLowerHex_of_mem_hexDigits 40 a.toNat c hc
    simp [hall, hexNat_hexDigits 40 a.toNat a.isLt]

def oneSignatureEvm : Evm where
  keccak256 := fun _ => 1
  ecrecover := fun _ v r s => if v = 27 ∧ r = 1 ∧ s = 1 then 5 else 0
  chainId := 1337
  contractAddress := 9

/-- `n` digits, all zero but the last. -/
def lastDigit (n : ℕ) (c : Char) : Text := List.replicate (n - 1) '0' ++ [c]

def sampleIdentity : Identity where
  eventId := '0' :: 'x' :: lastDigit 64 '1'
  eventType := 1
  payload := .obj []
  payloadHash := lastDigit 64 '2'
  previousHash := '0' :: 'x' :: lastDigit 64 '0'
  signature := '0' :: 'x' :: (lastDigit 64 '1' ++ lastDigit 64 '1' ++ ['1', 'b'])
  signerAddress := '0' :: 'x' :: lastDigit 40 '5'
  building := 1
  createdAt := 0
  signerAddress_required := by decide
  eventId_bytes32 := by decide
  payloadHash_sha256 := by decide
  previousHash_bytes32 := by decide
  eventType_known := by decide

def twoWorkers : Deployment Bool where
  evm := oneSignatureEvm
  codec := digitCodec
  disabled := fun _ => false
  relayer := fun w => if w then 7 else 8

/-- The registry of the owner `1`, before anything happened. -/
def emptySystem : System Bool where
  now := 0
  rows := .empty
  chain := ⟨⟨1, fun _ => false, fun _ => ⟨0, 0, 0, 0, 0⟩⟩, fun _ => none, []⟩
  pc := fun _ => .idle

theorem emptySystem_initial : emptySystem.Initial :=
  ⟨rfl, fun _ => rfl, ⟨1, rfl⟩, rfl, fun _ => rfl⟩

def statusOf (s : System Bool) : Option Status := (s.rows.get? 1).map fun e => e.status

def authoriseSigner : List (Action Bool) :=
  [.broadcast 100 ⟨1, .setAuthorizedSigner 5 true⟩, .mine 100 firstBlock 1 false]

/-- One row, anchored by the worker `false` while the worker `true` is held up between its
`find` and its `submit` until the lease runs out. -/
def overtaken : List (Action Bool) :=
  authoriseSigner ++
  [.queue sampleIdentity, .claim true 1 0, .find true, .tick leaseTime,
   .claimNext false [] leaseTime, .find false, .send false 200, .persist false,
   .mine 200 secondBlock 2 false, .receipt false, .mark false]

/-- One worker anchors the row while the other stays away. -/
def undisturbed : List (Action Bool) :=
  authoriseSigner ++
  [.queue sampleIdentity, .claim true 1 0, .find true, .send true 200, .persist true,
   .mine 200 secondBlock 2 false, .receipt true, .mark true]

/-- The row is confirmed at the end of the run in which it is overtaken, and recorded. -/
theorem confirmed_means_recorded_overtaken :
    ∃ s row, Reaches (System.step twoWorkers) Always emptySystem s ∧
      s.rows.get? 1 = some row ∧ row.status = .confirmed ∧
      RecordedAs digitCodec s.chain.registry row.toIdentity := by
  obtain ⟨s, hreach, hstatus⟩ := exists_of_run (System.step twoWorkers) emptySystem
    (fun s => statusOf s = some .confirmed) overtaken (by decide +kernel)
  obtain ⟨row, hrow, hconf⟩ := Option.map_eq_some_iff.mp hstatus
  exact ⟨s, row, hreach, hrow, hconf,
    (confirmed_means_recorded twoWorkers emptySystem s emptySystem_initial hreach).1 1 row hrow
      hconf⟩

end LamTo.Analysis
