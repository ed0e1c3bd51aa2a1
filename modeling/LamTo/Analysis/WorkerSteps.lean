import LamTo.Analysis.RegistryInvariant
import LamTo.Model.Worker

/-!
# What one step of the system can do

`step_effect` says once, guards included, what a step changes: the clock, a new row, the
chain, one worker's place in the code, or one row's delivery state together with the place
of the worker that wrote it. Every invariant over runs is proved from it, and the step
function itself is not unfolded again.

SOURCE: src/lamto/evidence/worker.py, src/lamto/evidence/chain.py
-/

set_option autoImplicit false

namespace LamTo.Analysis

open LamTo.Library LamTo.Model

variable {W : Type} [DecidableEq W]

/-! ## The effects -/

/-- A step writes the delivery state `d` over the row `e`, and its worker goes on at the
last argument. The row is as it is now; what the worker remembers of it is `held`. -/
inductive RowWrite (D : Deployment W) (s : System W) (w : W) (pk : ℕ) (e : OutboxEvent) :
    Action W → Delivery → Pc → Prop
  | claim (a : Action W) (readAt : ℕ) (hpc : s.pc w = .idle) (hdue : e.isDue readAt = true) :
      RowWrite D s w pk e a (e.claim readAt)
        (.busy pk (e.deliver (Delivery.claim readAt)) .claimed)
  | store (held : OutboxEvent) (hash : Bytes32) (hpc : s.pc w = .busy pk held (.sent hash))
      (hempty : held.transactionHash = []) :
      RowWrite D s w pk e (.persist w) (e.storeHash (bytes32Text hash))
        (.busy pk held (.waiting hash))
  | settle (held : OutboxEvent) (hpc : s.pc w = .busy pk held .claimed) :
      RowWrite D s w pk e (.mark w) e.markLocal .idle
  | confirmFound (held : OutboxEvent) (record : ChainRecord) (d : Delivery)
      (hpc : s.pc w = .busy pk held (.found record))
      (hmatch : recordMatchesEvent D.codec record e.toIdentity = some true)
      (hd : e.markConfirmed s.now e.transactionHash none record.recordedAt = some d) :
      RowWrite D s w pk e (.mark w) d .idle
  | mismatch (held : OutboxEvent) (record : ChainRecord)
      (hpc : s.pc w = .busy pk held (.found record)) :
      RowWrite D s w pk e (.mark w) (e.markMismatch (mismatchError record)) .idle
  | confirmSubmitted (held : OutboxEvent) (hash : Bytes32) (receipt : Receipt) (d : Delivery)
      (hpc : s.pc w = .busy pk held (.receipted hash receipt))
      (hd : e.markConfirmed s.now (bytes32Text hash) (some receipt) 0 = some d) :
      RowWrite D s w pk e (.mark w) d .idle
  | retry (held : OutboxEvent) (error : Text) (hpc : s.pc w = .busy pk held (.failed error)) :
      RowWrite D s w pk e (.mark w) (e.markRetry s.now error) .idle
  | recheck (held : OutboxEvent) (record : ChainRecord)
      (hpc : s.pc w = .busy pk held (.recheckFound record)) :
      RowWrite D s w pk e (.mark w) (e.markMismatch (mismatchError record)) .idle

/-- A step that only moves a worker. -/
inductive PcMove (D : Deployment W) (s : System W) (w : W) : Pc → Prop
  | idle : PcMove D s w .idle
  | found (pk : ℕ) (e : OutboxEvent) (record : ChainRecord)
      (hpc : s.pc w = .busy pk e .claimed)
      (hfind : find D.codec s.chain.registry e.toIdentity = some record) :
      PcMove D s w (.busy pk e (.found record))
  | absent (pk : ℕ) (e : OutboxEvent) (hpc : s.pc w = .busy pk e .claimed) :
      PcMove D s w (.busy pk e .absent)
  | failed (pk : ℕ) (e : OutboxEvent) (stage : Stage) (error : Text)
      (hpc : s.pc w = .busy pk e stage)
      (hstage : stage = .claimed ∨ stage = .absent ∨ ∃ hash, stage = .waiting hash) :
      PcMove D s w (.busy pk e (.failed error))
  | waiting (pk : ℕ) (e : OutboxEvent) (hash : Bytes32) (hpc : s.pc w = .busy pk e (.sent hash)) :
      PcMove D s w (.busy pk e (.waiting hash))
  | receipted (pk : ℕ) (e : OutboxEvent) (hash : Bytes32) (m : Mined)
      (hpc : s.pc w = .busy pk e (.waiting hash)) (hmined : s.chain.minedTx hash = some m)
      (hstatus : m.receipt.status = 1) :
      PcMove D s w (.busy pk e (.receipted hash m.receipt))
  | rechecking (pk : ℕ) (e : OutboxEvent) (hrow : s.rows.get? pk = some e)
      (hconfirmed : e.status = .confirmed) :
      PcMove D s w (.busy pk e .rechecking)
  | recheckFound (pk : ℕ) (e : OutboxEvent) (record : ChainRecord)
      (hpc : s.pc w = .busy pk e .rechecking)
      (hfind : find D.codec s.chain.registry e.toIdentity = some record)
      (hmatch : recordMatchesEvent D.codec record e.toIdentity = some false) :
      PcMove D s w (.busy pk e (.recheckFound record))

inductive Effect (D : Deployment W) (s : System W) (a : Action W) : System W → Prop
  | clock (now : ℕ) : Effect D s a { s with now := now }
  | queue (identity : Identity) :
      Effect D s a { s with rows := s.rows.insert ⟨identity, .fresh⟩ }
  | chain (c : Chain)
      (hc : (∃ hash tx, s.chain.send hash tx = some c) ∨
        ∃ hash time blockNumber outOfGas,
          s.chain.mine D.evm hash time blockNumber outOfGas = some c) :
      Effect D s a { s with chain := c }
  | send (w : W) (pk : ℕ) (e : OutboxEvent) (hash : Bytes32) (call : Call)
      (c : Chain) (stage : Stage) (hpc : s.pc w = .busy pk e .absent)
      (hcall : recordEvidenceCall D.codec e.toIdentity = some call)
      (hsend : s.chain.send hash ⟨D.relayer w, call⟩ = some c)
      (hstage : stage = .sent hash ∨ ∃ error, stage = .failed error) :
      Effect D s a ({ s with chain := c }.goto w (.busy pk e stage))
  | move (w : W) (pc : Pc) (hmove : PcMove D s w pc) :
      Effect D s a (s.goto w pc)
  | write (w : W) (pk : ℕ) (e : OutboxEvent) (d : Delivery) (pc : Pc)
      (rows : OutboxTable) (hrow : s.rows.get? pk = some e) (hwrite : RowWrite D s w pk e a d pc)
      (hrows : ∀ q, rows.get? q = if q = pk then some ⟨e.toIdentity, d⟩ else s.rows.get? q) :
      Effect D s a ({ s with rows := rows }.goto w pc)

/-! ## Every step has one of them -/

variable {D : Deployment W} {s t : System W}

/-- The rows after one row was rewritten. -/
theorem get?_update_deliver (rows : OutboxTable) (pk : ℕ) (e : OutboxEvent)
    (f : Delivery → Delivery) (hrow : rows.get? pk = some e) (q : ℕ) :
    (rows.update pk (OutboxEvent.deliver f)).get? q
      = if q = pk then some ⟨e.toIdentity, f e.toDelivery⟩ else rows.get? q := by
  rw [Table.get?_update]
  split
  · next hq =>
    subst hq
    rw [hrow]
    rfl
  · rfl

theorem effect_write (a : Action W) (w : W) (pk : ℕ) (e : OutboxEvent) (f : Delivery → Delivery)
    (pc : Pc) (hrow : s.rows.get? pk = some e)
    (hwrite : RowWrite D s w pk e a (f e.toDelivery) pc) :
    Effect D s a ({ s with rows := s.rows.update pk (OutboxEvent.deliver f) }.goto w pc) :=
  .write w pk e (f e.toDelivery) pc _ hrow hwrite (get?_update_deliver s.rows pk e f hrow)

/-- A mark of a row that is not there does not happen: workers hold rows of the table. -/
def HoldsRows (s : System W) : Prop :=
  ∀ w pk e stage, s.pc w = .busy pk e stage →
    ∃ row, s.rows.get? pk = some row ∧ row.toIdentity = e.toIdentity

/-- A worker at work after a move was there before, or is the one that moved. -/
theorem goto_pc_cases (w w' : W) (pc : Pc) (pk : ℕ) (e : OutboxEvent) (stage : Stage)
    (h : (s.goto w pc).pc w' = .busy pk e stage) :
    pc = .busy pk e stage ∨ s.pc w' = .busy pk e stage := by
  by_cases hw : w' = w
  · subst hw
    simp only [System.goto, Function.update_self] at h
    exact .inl h
  · simp only [System.goto, Function.update_of_ne hw] at h
    exact .inr h

theorem effect_claimRow (a : Action W) (w : W) (readAt : ℕ) (choose : ℕ → OutboxTable → Option ℕ)
    (hchoose : ∀ pk, choose readAt s.rows = some pk →
      ∀ e, s.rows.get? pk = some e → e.isDue readAt = true)
    (h : s.claimRow w readAt choose = some t) : Effect D s a t := by
  unfold System.claimRow at h
  split at h
  · next hpc =>
    split at h
    · obtain ⟨pk, hpk, h⟩ := Option.bind_eq_some_iff.mp h
      obtain ⟨e, hrow, h⟩ := Option.bind_eq_some_iff.mp h
      cases h
      exact effect_write a w pk e _ _ hrow
        (.claim a readAt hpc (hchoose pk hpk e hrow))
    · cases h
  · cases h

theorem claimable_isDue (pk now : ℕ) (rows : OutboxTable) (q : ℕ)
    (h : claimable pk now rows = some q) (e : OutboxEvent) (hrow : rows.get? q = some e) :
    e.isDue now = true := by
  obtain ⟨e', he', h⟩ := Option.bind_eq_some_iff.mp h
  split at h
  · next hdue =>
    cases h
    rw [he'] at hrow
    cases hrow
    exact hdue
  · cases h

theorem nextDue_isDue (locked : List ℕ) (now : ℕ) (rows : OutboxTable) (q : ℕ)
    (h : nextDue locked now rows = some q) (e : OutboxEvent) (hrow : rows.get? q = some e) :
    e.isDue now = true := by
  obtain ⟨r, hr, rfl⟩ := Option.map_eq_some_iff.mp h
  have hdue := List.find?_some hr
  have hmem := List.mem_of_find?_eq_some hr
  rw [claimOrder, List.mem_mergeSort] at hmem
  have hre : r.2 = e := rows.key_inj r.1 r.2 e hmem ((rows.get?_eq_some r.1 e).mp hrow)
  simp only [Bool.and_eq_true] at hdue
  rw [← hre]
  exact hdue.1

theorem effect_mark (hheld : HoldsRows s) (w : W) (h : s.mark D w = some t) :
    Effect D s (.mark w) t := by
  unfold System.mark at h
  split at h
  · next pk held hpc =>
    split at h
    · cases h
      obtain ⟨e, hrow, _⟩ := hheld w pk held _ hpc
      exact effect_write _ w pk e _ _ hrow (.settle held hpc)
    · cases h
  · next pk held record hpc =>
    obtain ⟨e, hrow, h⟩ := Option.bind_eq_some_iff.mp h
    split at h
    · next hmatch =>
      split at h
      · next d hd =>
        cases h
        exact effect_write _ w pk e (fun _ => d) _ hrow (.confirmFound held record d hpc hmatch hd)
      · cases h
        exact .move w _ .idle
    · cases h
      exact effect_write _ w pk e _ _ hrow (.mismatch held record hpc)
    · cases h
      exact .move w _ .idle
  · next pk held hash receipt hpc =>
    obtain ⟨e, hrow, h⟩ := Option.bind_eq_some_iff.mp h
    obtain ⟨d, hd, h⟩ := Option.bind_eq_some_iff.mp h
    cases h
    exact effect_write _ w pk e (fun _ => d) _ hrow (.confirmSubmitted held hash receipt d hpc hd)
  · next pk held error hpc =>
    cases h
    obtain ⟨e, hrow, _⟩ := hheld w pk held _ hpc
    exact effect_write _ w pk e _ _ hrow (.retry held error hpc)
  · next pk held record hpc =>
    cases h
    obtain ⟨e, hrow, _⟩ := hheld w pk held _ hpc
    exact effect_write _ w pk e _ _ hrow (.recheck held record hpc)
  · cases h

theorem effect_findRecord (a : Action W) (w : W) (h : s.findRecord D w = some t) :
    Effect D s a t := by
  unfold System.findRecord at h
  split at h
  · next pk e hpc =>
    split at h
    · cases h
    · split at h
      · next record hfind =>
        cases h
        exact .move w _ (.found pk e record hpc hfind)
      · cases h
        exact .move w _ (.absent pk e hpc)
  · next pk e hpc =>
    split at h
    · cases h
      exact .move w _ .idle
    · next record hfind =>
      split at h
      · next hmatch =>
        cases h
        exact .move w _ (.recheckFound pk e record hpc hfind hmatch)
      · cases h
        exact .move w _ .idle
  · cases h

theorem effect_findRaised (a : Action W) (w : W) (error : Text)
    (h : s.findRaised D w error = some t) : Effect D s a t := by
  unfold System.findRaised at h
  split at h
  · next pk e hpc =>
    split at h
    · cases h
    · cases h
      exact .move w _ (.failed pk e _ error hpc (.inl rfl))
  · cases h
    exact .move w _ .idle
  · cases h

theorem effect_sendTx (a : Action W) (w : W) (hash : Bytes32) (stage : Stage)
    (hstage : stage = .sent hash ∨ ∃ error, stage = .failed error)
    (h : s.sendTx D w hash stage = some t) : Effect D s a t := by
  unfold System.sendTx at h
  split at h
  · next pk e hpc =>
    obtain ⟨call, hcall, h⟩ := Option.bind_eq_some_iff.mp h
    obtain ⟨c, hsend, h⟩ := Option.bind_eq_some_iff.mp h
    cases h
    exact .send w pk e hash call c stage hpc hcall hsend hstage
  · cases h

theorem effect_submitRaised (a : Action W) (w : W) (error : Text) (waiting : Bool)
    (h : s.submitRaised w error waiting = some t) : Effect D s a t := by
  unfold System.submitRaised at h
  split at h
  · next pk e hpc =>
    cases h
    exact .move w _ (.failed pk e _ error hpc (.inr (.inl rfl)))
  · next pk e hash hpc =>
    cases h
    exact .move w _ (.failed pk e _ error hpc (.inr (.inr ⟨hash, rfl⟩)))
  · cases h

theorem effect_persistHash (hheld : HoldsRows s) (w : W) (h : s.persistHash w = some t) :
    Effect D s (.persist w) t := by
  unfold System.persistHash at h
  split at h
  · next pk e hash hpc =>
    cases h
    split
    · next hempty =>
      obtain ⟨row, hrow, _⟩ := hheld w pk e _ hpc
      exact effect_write _ w pk row _ _ hrow (.store e hash hpc hempty)
    · exact .move w _ (.waiting pk e hash hpc)
  · cases h

theorem effect_takeReceipt (a : Action W) (w : W) (h : s.takeReceipt w = some t) :
    Effect D s a t := by
  unfold System.takeReceipt at h
  split at h
  · next pk e hash hpc =>
    obtain ⟨m, hmined, h⟩ := Option.bind_eq_some_iff.mp h
    split at h
    · next hstatus =>
      cases h
      exact .move w _ (.receipted pk e hash m hpc hmined hstatus)
    · cases h
      exact .move w _ (.failed pk e _ _ hpc (.inr (.inr ⟨hash, rfl⟩)))
  · cases h

theorem effect_startRecheck (a : Action W) (w : W) (pk : ℕ)
    (h : s.startRecheck D w pk = some t) : Effect D s a t := by
  unfold System.startRecheck at h
  split at h
  · next e hpc hrow =>
    split at h
    · next hguard =>
      cases h
      exact .move w _ (.rechecking pk e hrow hguard.1)
    · cases h
  · cases h

/-- **Every step has one of the effects.** -/
theorem step_effect (hheld : HoldsRows s) (a : Action W) (h : System.step D s a = some t) :
    Effect D s a t := by
  cases a with
  | tick elapsed =>
    cases h
    exact .clock _
  | queue identity =>
    simp only [System.step] at h
    split at h
    · cases h
    · cases h
      exact .queue identity
  | broadcast hash tx =>
    obtain ⟨c, hc, rfl⟩ := Option.map_eq_some_iff.mp h
    exact .chain c (.inl ⟨hash, tx, hc⟩)
  | mine hash time blockNumber outOfGas =>
    obtain ⟨c, hc, rfl⟩ := Option.map_eq_some_iff.mp h
    exact .chain c (.inr ⟨hash, time, blockNumber, outOfGas, hc⟩)
  | claim w pk readAt =>
    exact effect_claimRow _ w readAt (claimable pk) (claimable_isDue pk readAt s.rows) h
  | claimNext w locked readAt =>
    exact effect_claimRow _ w readAt (nextDue locked) (nextDue_isDue locked readAt s.rows) h
  | recheck w pk => exact effect_startRecheck _ w pk h
  | find w => exact effect_findRecord _ w h
  | findError w error => exact effect_findRaised _ w error h
  | send w hash => exact effect_sendTx _ w hash _ (.inl rfl) h
  | sendError w error => exact effect_submitRaised _ w error false h
  | sendUnanswered w hash error => exact effect_sendTx _ w hash _ (.inr ⟨error, rfl⟩) h
  | persist w => exact effect_persistHash hheld w h
  | receipt w => exact effect_takeReceipt _ w h
  | waitError w error => exact effect_submitRaised _ w error true h
  | mark w => exact effect_mark hheld w h
  | stop w =>
    cases h
    exact .move w _ .idle

end LamTo.Analysis
