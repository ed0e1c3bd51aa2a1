import LamTo.Analysis.FundConservation
import LamTo.Model.BillCalls

/-!
# The tables of the bills

Calls that issue, confirm and void bills run beside each other. A call holds one bill until it
commits: the one it inserted, or the one it took under its lock. So what it read of the bill under
the lock is still committed when it commits.

What the tables hold is an invariant of each of them, with a lemma for each way it is written:

* the bills (`RowsInv`), where the row a call writes is a new bill, or the issued one it read with
  a payment or a voiding (`BillSaves`);
* their documents (`KindsInv`);
* the notices in the app (`NoticesInv`), which a bill has while it is not void;
* the audit trail (`TrailInv`), which says once how a bill was settled.

SOURCE: src/lamto/billing/services.py
-/

set_option autoImplicit false

namespace LamTo.Analysis

open LamTo.Library LamTo.Library.Versions LamTo.Model

/-! ## The row of a bill -/

/-- Payment source, time and confirmer are set. -/
def Bill.HasPayment (b : Bill) : Prop :=
  b.paymentSource ≠ none ∧ b.paidAt ≠ none ∧ b.paidConfirmedBy ≠ none

/-- Voider, time and reason are set. -/
def Bill.HasVoiding (b : Bill) : Prop := b.voidBy ≠ none ∧ b.voidAt ≠ none ∧ b.voidReason ≠ []

/-- The row says how the bill got its status, and nothing else. -/
def BillRecorded (b : Bill) : Prop :=
  match b.status with
  | .issued => b.paymentSource = none ∧ b.voidBy = none
  | .paid => Bill.HasPayment b ∧ b.voidBy = none
  | .void => b.paymentSource = none ∧ Bill.HasVoiding b

theorem BillRecorded.paid_iff {b : Bill} (h : BillRecorded b) : b.status = .paid ↔ Bill.HasPayment b := by
  unfold BillRecorded at h
  cases hstatus : b.status with
  | issued =>
    rw [hstatus] at h
    exact ⟨fun hpaid => (nomatch hpaid), fun hpaid => absurd h.1 hpaid.1⟩
  | paid =>
    rw [hstatus] at h
    exact ⟨fun _ => h.1, fun _ => rfl⟩
  | void =>
    rw [hstatus] at h
    exact ⟨fun hpaid => (nomatch hpaid), fun hpaid => absurd h.1 hpaid.1⟩

theorem BillRecorded.void_iff {b : Bill} (h : BillRecorded b) : b.status = .void ↔ Bill.HasVoiding b := by
  unfold BillRecorded at h
  cases hstatus : b.status with
  | issued =>
    rw [hstatus] at h
    exact ⟨fun hvoid => (nomatch hvoid), fun hvoid => absurd h.2 hvoid.1⟩
  | paid =>
    rw [hstatus] at h
    exact ⟨fun hvoid => (nomatch hvoid), fun hvoid => absurd h.2 hvoid.1⟩
  | void =>
    rw [hstatus] at h
    exact ⟨fun _ => h.2, fun _ => rfl⟩

/-! ## What a call does to its bill -/

/-- The status a request leads to. -/
def BillRequest.outcome : BillRequest → BillStatus
  | .issue .. => .issued
  | .confirm .. => .paid
  | .void .. => .void

/-- What a call saves, over what is committed. -/
def BillSaves (request : BillRequest) (old : Option Bill) (new : Bill) : Prop :=
  match request with
  | .issue .. => old = none ∧ new.status = .issued ∧ new.paymentSource = none ∧ new.voidBy = none
  | .confirm _ actor source _ => ∃ b now, old = some b ∧ b.status = .issued ∧ new = { b with
      status := .paid, paymentSource := some source, paidAt := some now,
      paidConfirmedBy := some actor }
  | .void actor _ _ => ∃ b now reason, old = some b ∧ b.status = .issued ∧ reason ≠ [] ∧
      new = { b with
        status := .void, voidBy := some actor, voidAt := some now, voidReason := reason }

/-- A payment that finds the bill paid leaves it as it is. -/
def Repeats (old : Option Bill) (new : Bill) : Prop := old = some new ∧ new.status = .paid

theorem BillSaves.status {request : BillRequest} {old : Option Bill} {new : Bill}
    (h : BillSaves request old new) : new.status = BillRequest.outcome request := by
  cases request with
  | issue actor building resident document terms => exact h.2.1
  | confirm bill actor source reference =>
    obtain ⟨b, now, -, -, rfl⟩ := h
    rfl
  | void actor bill reason =>
    obtain ⟨b, now, text, -, -, -, rfl⟩ := h
    rfl

/-- What is saved over a committed bill was issued before, and keeps its document. -/
theorem BillSaves.over {request : BillRequest} {new b : Bill} (h : BillSaves request (some b) new) :
    b.status = .issued ∧ new.document = b.document ∧ new.resident = b.resident := by
  cases request with
  | issue actor building resident document terms => exact absurd h.1 (by simp)
  | confirm bill actor source reference =>
    obtain ⟨b', now, hb, hstatus, rfl⟩ := h
    cases hb
    exact ⟨hstatus, rfl, rfl⟩
  | void actor bill reason =>
    obtain ⟨b', now, text, hb, hstatus, -, rfl⟩ := h
    cases hb
    exact ⟨hstatus, rfl, rfl⟩

theorem BillSaves.recorded {request : BillRequest} {old : Option Bill} {new : Bill}
    (h : BillSaves request old new) (hold : ∀ b, old = some b → BillRecorded b) : BillRecorded new := by
  cases request with
  | issue actor building resident document terms =>
    obtain ⟨-, hstatus, hrow⟩ := h
    unfold BillRecorded
    rw [hstatus]
    exact hrow
  | confirm bill actor source reference =>
    obtain ⟨b, now, hb, hstatus, rfl⟩ := h
    have hissued := hold b hb
    unfold BillRecorded at hissued
    rw [hstatus] at hissued
    exact ⟨⟨by simp, by simp, by simp⟩, hissued.2⟩
  | void actor bill reason =>
    obtain ⟨b, now, text, hb, hstatus, htext, rfl⟩ := h
    have hissued := hold b hb
    unfold BillRecorded at hissued
    rw [hstatus] at hissued
    exact ⟨hissued.1, by simp, by simp, htext⟩

/-- The request is for a new bill. -/
def BillRequest.issues : BillRequest → Bool
  | .issue .. => true
  | _ => false

def BillRequest.voids : BillRequest → Bool
  | .void .. => true
  | _ => false

variable {C : Type} {U : Unicode}

theorem issued_saves (s : BillState C) (actor building resident document membership : ℕ)
    (terms : BillTerms) (row : Bill)
    (h : s.issued actor building resident document terms = .ok (membership, row)) :
    BillSaves (.issue actor building resident document terms) none row ∧
      versionKind s.archive row.document = some .residentBill := by
  simp only [BillState.issued, bind_eq_ok, require_eq_ok, pure_eq_ok, getRow, orRaise_eq_ok,
    Prod.mk.injEq] at h
  obtain ⟨_, -, _, -, version, hversion, d, hd, _, hkind, _, -, _, -, _, -, _, -, _, -, -, rfl⟩ := h
  refine ⟨⟨rfl, rfl, rfl, rfl⟩, ?_⟩
  show (s.archive.db.documentVersions.get? document).bind _ = _
  rw [hversion, Option.bind_some, hd, Option.map_some, hkind]

theorem confirmed_saves (s : BillState C) (row : Bill) (bill actor : ℕ) (source : PaymentSource)
    (reference : Text) (new : Option Bill) (h : s.confirmed row actor source reference = .ok new) :
    (∃ b, new = some b ∧ BillSaves (.confirm bill actor source reference) (some row) b) ∨
      new = none ∧ row.status = .paid := by
  simp only [BillState.confirmed, bind_eq_ok, require_eq_ok] at h
  obtain ⟨_, hvoid, _, -, _, -, h⟩ := h
  split at h
  · next hpaid =>
    cases h
    exact .inr ⟨rfl, hpaid⟩
  · next hpaid =>
    cases h
    refine .inl ⟨_, rfl, row, s.now, rfl, ?_, rfl⟩
    cases hstatus : row.status with
    | issued => rfl
    | paid => exact absurd hstatus hpaid
    | void => exact absurd hstatus hvoid

theorem voided_saves (s : BillState C) (row new : Bill) (bill actor membership : ℕ)
    (reason : Option Text) (hreason : BillState.voidReason U reason ≠ [])
    (h : s.voided U row actor reason = .ok (membership, new)) :
    BillSaves (.void actor bill reason) (some row) new := by
  simp only [BillState.voided, textColumn, bind_eq_ok, require_eq_ok, pure_eq_ok,
    Prod.mk.injEq] at h
  obtain ⟨_, -, _, hissued, text, ⟨_, -, _, -, rfl⟩, -, rfl⟩ := h
  exact ⟨row, s.now, _, rfl, hissued, hreason, rfl⟩

/-! ## How far a call is -/

/-- The variables of an open call. -/
def billDraft? : BillPhase → Option BillDraft
  | .idle | .finished _ _ => none
  | .locked d | .saved d | .noticed d | .closing d => some d

/-- The bill an open call holds. -/
def heldBill (phase : BillPhase) : Option (ℕ × Bill) := (billDraft? phase).map fun d => (d.id, d.row)

/-- What is committed under the lock of a call. -/
def BillBased (U : Unicode) (t : Table Bill) : BillPhase → Prop
  | .idle | .finished _ _ => True
  | .locked d => t.get? d.id = some d.row ∧ BillRequest.issues d.request = false ∧
      ∀ actor bill reason, d.request = .void actor bill reason →
        BillState.voidReason U reason ≠ []
  | .saved d | .noticed d => BillSaves d.request (t.get? d.id) d.row
  | .closing d => BillSaves d.request (t.get? d.id) d.row ∨
      Repeats (t.get? d.id) d.row ∧ BillRequest.outcome d.request = .paid

theorem billBased_congr (t u : Table Bill) (phase : BillPhase)
    (h : ∀ d, billDraft? phase = some d → u.get? d.id = t.get? d.id) (hbased : BillBased U t phase) :
    BillBased U u phase := by
  cases phase with
  | idle => trivial
  | finished request result => trivial
  | locked d => exact ⟨(h d rfl).trans hbased.1, hbased.2⟩
  | saved d | noticed d =>
    show BillSaves d.request (u.get? d.id) d.row
    rw [h d rfl]
    exact hbased
  | closing d =>
    show BillSaves d.request (u.get? d.id) d.row ∨
      Repeats (u.get? d.id) d.row ∧ BillRequest.outcome d.request = .paid
    rw [h d rfl]
    exact hbased

/-! ## The bills -/

/-- The bills, and what the open calls hold of them. -/
structure RowsInv (U : Unicode) (s : BillState C) : Prop where
  holding : Holding s.bills fun c => heldBill (s.phase c)
  rows : ∀ id b, s.bills.committed.get? id = some b → BillRecorded b
  based : ∀ c, BillBased U s.bills.committed (s.phase c)

variable [DecidableEq C]

theorem heldBill_update (phase : C → BillPhase) (c : C) (ph : BillPhase) :
    (fun d => heldBill (Function.update phase c ph d)) =
      Function.update (fun d => heldBill (phase d)) c (heldBill ph) :=
  Function.comp_update heldBill phase c ph

namespace RowsInv

variable {s t : BillState C} {c : C} {ph : BillPhase}

/-- A step of one call that commits no bill. -/
theorem of_call (h : RowsInv U s) (hphase : t.phase = Function.update s.phase c ph)
    (hcommitted : ∀ id, t.bills.committed.get? id = s.bills.committed.get? id)
    (hholding : Holding t.bills (Function.update (fun d => heldBill (s.phase d)) c (heldBill ph)))
    (hbased : BillBased U s.bills.committed ph) : RowsInv U t where
  holding := by
    rw [hphase, heldBill_update]
    exact hholding
  rows := by
    intro id b hb
    exact h.rows id b ((hcommitted id).symm.trans hb)
  based := by
    intro c'
    rw [hphase]
    refine billBased_congr s.bills.committed _ _ (fun d _ => hcommitted d.id) ?_
    by_cases hc : c' = c
    · rw [hc, Function.update_self]
      exact hbased
    · rw [Function.update_of_ne hc]
      exact h.based c'

/-- A step of one call that leaves the bills alone. -/
theorem of_same (h : RowsInv U s) (hphase : t.phase = Function.update s.phase c ph)
    (hbills : t.bills = s.bills) (hheld : heldBill ph = heldBill (s.phase c))
    (hbased : BillBased U s.bills.committed ph) : RowsInv U t := by
  refine h.of_call hphase (fun id => by rw [hbills]) ?_ hbased
  rw [hbills, hheld, Function.update_eq_self c fun d => heldBill (s.phase d)]
  exact h.holding

/-- A call takes its bill under the lock, or writes over it. -/
theorem of_write (h : RowsInv U s) (d : BillDraft)
    (hphase : t.phase = Function.update s.phase c ph)
    (hbills : t.bills = s.bills.write c d.id (some d.row)) (hph : billDraft? ph = some d)
    (hdrawn : 0 < d.id ∧ d.id < s.bills.committed.next) (hfree : s.bills.locked c d.id = false)
    (hone : ∀ q b, heldBill (s.phase c) = some (q, b) → q = d.id)
    (hbased : BillBased U s.bills.committed ph) : RowsInv U t := by
  refine h.of_call hphase (fun id => by rw [hbills, get?_write_committed]) ?_ hbased
  rw [hbills, heldBill, hph]
  exact h.holding.write c d.id d.row hdrawn hfree hone

/-- A call inserts its bill. -/
theorem of_insert (h : RowsInv U s) (d : BillDraft)
    (hphase : t.phase = Function.update s.phase c ph) (hbills : t.bills = s.bills.insert c d.row)
    (hph : billDraft? ph = some d) (hid : d.id = s.bills.committed.next)
    (hnone : heldBill (s.phase c) = none) (hbased : BillBased U s.bills.committed ph) :
    RowsInv U t := by
  refine h.of_call hphase (fun id => by rw [hbills, get?_insert_committed]) ?_ hbased
  rw [hbills, heldBill, hph, Option.map_some, hid]
  exact h.holding.insert c d.row hnone

theorem of_rollback (h : RowsInv U s) (hphase : t.phase = Function.update s.phase c ph)
    (hbills : t.bills = s.bills.rollback c) (hph : billDraft? ph = none)
    (hbased : BillBased U s.bills.committed ph) : RowsInv U t := by
  refine h.of_call hphase (fun id => by rw [hbills, committed_rollback]) ?_ hbased
  rw [hbills, heldBill, hph, Option.map_none]
  exact h.holding.rollback c

/-- The bill of a call that commits is the one it holds, and the others stay. -/
theorem get?_commit (h : RowsInv U s) (d : BillDraft) (hd : billDraft? (s.phase c) = some d)
    (id : ℕ) : (s.bills.commit c).committed.get? id =
      if id = d.id then some d.row else s.bills.committed.get? id := by
  have hheld : heldBill (s.phase c) = some (d.id, d.row) := by rw [heldBill, hd, Option.map_some]
  by_cases hid : id = d.id
  · rw [if_pos hid, hid, h.holding.get?_commit_self c d.id d.row hheld]
  · rw [if_neg hid]
    refine h.holding.get?_commit_other c id fun a ha => hid ?_
    exact congrArg Prod.fst (Option.some.inj (ha.symm.trans hheld))

omit [DecidableEq C] in
/-- Two open calls work on two bills. -/
theorem drafts_distinct (h : RowsInv U s) (c c' : C) (d d' : BillDraft)
    (hd : billDraft? (s.phase c) = some d) (hd' : billDraft? (s.phase c') = some d')
    (hid : d.id = d'.id) : c = c' := by
  refine h.holding.unique c c' d.id d.row d'.row ?_ ?_
  · rw [heldBill, hd, Option.map_some]
  · rw [heldBill, hd', Option.map_some, hid]

theorem of_commit (h : RowsInv U s) (d : BillDraft) (hd : s.phase c = .closing d)
    (hphase : t.phase = Function.update s.phase c ph) (hbills : t.bills = s.bills.commit c)
    (hph : billDraft? ph = none) (hbased : ∀ u, BillBased U u ph) : RowsInv U t where
  holding := by
    rw [hphase, heldBill_update, hbills, heldBill, hph, Option.map_none]
    exact h.holding.commit c
  rows := by
    intro id b hb
    rw [hbills, h.get?_commit d (by rw [hd]; rfl)] at hb
    split at hb
    · cases hb
      have hbase := h.based c
      rw [hd] at hbase
      rcases hbase with hsaves | ⟨hrepeats, -⟩
      · exact hsaves.recorded fun b hb => h.rows d.id b hb
      · exact h.rows d.id d.row hrepeats.1
    · exact h.rows id b hb
  based := by
    intro c'
    rw [hphase]
    by_cases hc : c' = c
    · rw [hc, Function.update_self]
      exact hbased _
    · rw [Function.update_of_ne hc]
      refine billBased_congr s.bills.committed _ _ (fun d' hd' => ?_) (h.based c')
      rw [hbills, h.get?_commit d (by rw [hd]; rfl), if_neg]
      intro hid
      exact hc (h.drafts_distinct c' c d' d hd' (by rw [hd]; rfl) hid)

end RowsInv

/-! ## The documents -/

omit [DecidableEq C] in
/-- Every bill, committed or not, names a bill document. -/
def KindsInv (s : BillState C) : Prop :=
  ∀ pk b, s.bills.Stored pk b → versionKind s.archive b.document = some .residentBill

omit [DecidableEq C] in
theorem KindsInv.of_stored {s t : BillState C} (h : KindsInv s) (harchive : t.archive = s.archive)
    (hstored : ∀ pk b, t.bills.Stored pk b → s.bills.Stored pk b ∨
      versionKind s.archive b.document = some .residentBill) : KindsInv t := by
  intro pk b hb
  rw [harchive]
  rcases hstored pk b hb with hs | hkind
  · exact h pk b hs
  · exact hkind

omit [DecidableEq C] in
/-- The rest of the archive changes, and the documents of the bills keep their kind. -/
theorem KindsInv.of_others {s : BillState C} (h : KindsInv s) (archive : Archive)
    (hkeeps : s.keepsKinds archive = true) : KindsInv { s with archive } := by
  intro pk b hb
  have hpk : pk < s.bills.committed.next := by
    rcases hb with hcommitted | ⟨d, hpending⟩
    · exact s.bills.committed.lt_next_of_get? pk b hcommitted
    · exact (s.bills.drawn pk _ hpending).2
  have hrow := List.all_eq_true.mp hkeeps pk (List.mem_range.mpr hpk)
  rw [Bool.and_eq_true] at hrow
  rw [← h pk b hb]
  rcases hb with hcommitted | ⟨d, hpending⟩
  · have hkept := hrow.1
    rw [show s.bills.committed.get? pk = some b from hcommitted, Option.all_some] at hkept
    exact of_decide_eq_true hkept
  · have hkept := hrow.2
    rw [show s.bills.pending pk = some ⟨d, some b⟩ from hpending, Option.all_some] at hkept
    exact of_decide_eq_true hkept

/-! ## The notices -/

theorem billInAppKey_injective (m n : ℕ) (h : billInAppKey m = billInAppKey n) : m = n := by
  unfold billInAppKey at h
  exact decimal_injective m n (List.append_cancel_left h)

theorem inBillFeed_unique (m n : ℕ) (e : NotificationDelivery) (hm : inBillFeed m e = true)
    (hn : inBillFeed n e = true) : m = n := by
  simp only [inBillFeed, Bool.and_eq_true, decide_eq_true_eq] at hm hn
  exact billInAppKey_injective m n (hm.1.symm.trans hn.1)

/-- The bill whose notices an open call queues. -/
def queuesFor (phase : BillPhase) : Option ℕ :=
  (billDraft? phase).bind fun d => if BillRequest.issues d.request then some d.id else none

/-- The bill whose notices an open call has deleted. -/
def clearedFor : BillPhase → Option ℕ
  | .noticed d | .closing d => if BillRequest.voids d.request then some d.id else none
  | .idle | .locked _ | .saved _ | .finished _ _ => none

theorem clearedFor_eq_some (phase : BillPhase) (id : ℕ) (h : clearedFor phase = some id) :
    ∃ d, billDraft? phase = some d ∧ d.id = id ∧ BillRequest.voids d.request = true := by
  cases phase with
  | noticed d | closing d =>
    unfold clearedFor at h
    dsimp only at h
    split at h
    · next hvoids =>
      cases h
      exact ⟨d, rfl, rfl, hvoids⟩
    · cases h
  | idle | locked _ | saved _ | finished _ _ => cases h

theorem queuesFor_eq_some (phase : BillPhase) (id : ℕ) (h : queuesFor phase = some id) :
    ∃ d, billDraft? phase = some d ∧ d.id = id ∧ BillRequest.issues d.request = true := by
  unfold queuesFor at h
  obtain ⟨d, hd, hid⟩ := Option.bind_eq_some_iff.mp h
  split at hid
  · next hissues =>
    cases hid
    exact ⟨d, hd, rfl, hissues⟩
  · cases hid

/-- The notices in the app, and what the open calls write of them. -/
structure NoticesInv (s : BillState C) : Prop where
  feed : ∀ id pk e, s.deliveries.committed.get? pk = some e → inBillFeed id e = true →
    ∃ b, s.bills.committed.get? id = some b ∧ b.status ≠ .void
  own : ∀ pk c e, s.deliveries.pending pk = some ⟨c, some e⟩ →
    ∃ id, queuesFor (s.phase c) = some id ∧ ∀ n, inBillFeed n e = true → n = id
  cleared : ∀ c id pk e, clearedFor (s.phase c) = some id →
    s.deliveries.committed.get? pk = some e → inBillFeed id e = true →
    s.deliveries.pending pk = some ⟨c, none⟩

namespace NoticesInv

variable {s t : BillState C} {c : C} {ph : BillPhase}

/-- A step of one call that leaves the notices alone. -/
theorem of_same (h : NoticesInv s) (hphase : t.phase = Function.update s.phase c ph)
    (hdeliveries : t.deliveries = s.deliveries)
    (hbills : ∀ id, t.bills.committed.get? id = s.bills.committed.get? id)
    (hqueues : ∀ id, queuesFor (s.phase c) = some id → queuesFor ph = some id)
    (hclears : ∀ id pk e, clearedFor ph = some id → s.deliveries.committed.get? pk = some e →
      inBillFeed id e = true → s.deliveries.pending pk = some ⟨c, none⟩) : NoticesInv t where
  feed := by
    intro id pk e he hin
    rw [hdeliveries] at he
    rw [hbills]
    exact h.feed id pk e he hin
  own := by
    intro pk c' e he
    rw [hdeliveries] at he
    obtain ⟨id, hid, honly⟩ := h.own pk c' e he
    refine ⟨id, ?_, honly⟩
    rw [hphase]
    by_cases hc : c' = c
    · subst hc
      rw [Function.update_self]
      exact hqueues id hid
    · rw [Function.update_of_ne hc]
      exact hid
  cleared := by
    intro c' id pk e hid he hin
    rw [hdeliveries] at he ⊢
    rw [hphase] at hid
    by_cases hc : c' = c
    · subst hc
      rw [Function.update_self] at hid
      exact hclears id pk e hid he hin
    · rw [Function.update_of_ne hc] at hid
      exact h.cleared c' id pk e hid he hin

theorem of_rollback (h : NoticesInv s) (hphase : t.phase = Function.update s.phase c ph)
    (hdeliveries : t.deliveries = s.deliveries.rollback c)
    (hbills : ∀ id, t.bills.committed.get? id = s.bills.committed.get? id)
    (hclears : clearedFor ph = none) : NoticesInv t where
  feed := by
    intro id pk e he hin
    rw [hdeliveries, committed_rollback] at he
    rw [hbills]
    exact h.feed id pk e he hin
  own := by
    intro pk c' e he
    rw [hdeliveries, pending_rollback] at he
    rw [hphase, Function.update_of_ne he.2]
    exact h.own pk c' e he.1
  cleared := by
    intro c' id pk e hid he hin
    rw [hdeliveries, committed_rollback] at he
    rw [hdeliveries, pending_rollback]
    rw [hphase] at hid
    by_cases hc : c' = c
    · rw [hc, Function.update_self, hclears] at hid
      cases hid
    · rw [Function.update_of_ne hc] at hid
      exact ⟨h.cleared c' id pk e hid he hin, hc⟩

/-- A statement of a call on the notices; what it writes is about the bill it queues for. -/
theorem of_writes (h : NoticesInv s) (hphase : t.phase = s.phase) (hbills : t.bills = s.bills)
    (hcommitted : ∀ pk, t.deliveries.committed.get? pk = s.deliveries.committed.get? pk)
    (hothers : ∀ pk p, p.owner ≠ c →
      (t.deliveries.pending pk = some p ↔ s.deliveries.pending pk = some p))
    (hown : ∀ pk e, t.deliveries.pending pk = some ⟨c, some e⟩ →
      s.deliveries.pending pk = some ⟨c, some e⟩ ∨
        ∃ id, queuesFor (s.phase c) = some id ∧ ∀ n, inBillFeed n e = true → n = id)
    (hclears : clearedFor (s.phase c) = none) : NoticesInv t where
  feed := by
    intro id pk e he hin
    rw [hbills]
    exact h.feed id pk e ((hcommitted pk).symm.trans he) hin
  own := by
    intro pk c' e he
    rw [hphase]
    by_cases hc : c' = c
    · subst hc
      rcases hown pk e he with hold | hnew
      · exact h.own pk c' e hold
      · exact hnew
    · exact h.own pk c' e ((hothers pk _ hc).mp he)
  cleared := by
    intro c' id pk e hid he hin
    rw [hphase] at hid
    have hc : c' ≠ c := by
      rintro rfl
      rw [hclears] at hid
      cases hid
    exact (hothers pk _ hc).mpr
      (h.cleared c' id pk e hid ((hcommitted pk).symm.trans he) hin)

/-- **A commit keeps the notices in order**: it brings in those of a bill just issued, and takes
away those of a bill just voided. -/
theorem of_commit (h : NoticesInv s) (hrows : RowsInv U s) (d : BillDraft)
    (hd : s.phase c = .closing d) (hphase : t.phase = Function.update s.phase c ph)
    (hdeliveries : t.deliveries = s.deliveries.commit c) (hbills : t.bills = s.bills.commit c)
    (hclears : clearedFor ph = none) : NoticesInv t where
  feed := by
    intro id pk e he hin
    have hdraft : billDraft? (s.phase c) = some d := by rw [hd]; rfl
    have hstatus : BillRequest.voids d.request = false → d.row.status ≠ .void := by
      intro hnot hvoid
      have hbase := hrows.based c
      rw [hd] at hbase
      rcases hbase with hsaves | ⟨hrepeats, -⟩
      · rw [hsaves.status] at hvoid
        cases hrequest : d.request with
        | issue => rw [hrequest] at hvoid; cases hvoid
        | confirm => rw [hrequest] at hvoid; cases hvoid
        | void => rw [hrequest] at hnot; cases hnot
      · rw [hrepeats.2] at hvoid
        cases hvoid
    rw [hbills, hrows.get?_commit d hdraft]
    rw [hdeliveries, Versions.get?_commit] at he
    rcases s.deliveries.seen_cases c pk with ⟨row, hrow, hseen⟩ | ⟨hothers, hseen⟩
    · rw [hseen] at he
      subst he
      obtain ⟨n, hn, honly⟩ := h.own pk c e hrow
      obtain ⟨d', hd', rfl, hissues⟩ := queuesFor_eq_some _ _ hn
      cases hdraft.symm.trans hd'
      rw [if_pos (honly id hin)]
      refine ⟨d.row, rfl, hstatus ?_⟩
      cases hrequest : d.request with
      | issue => rfl
      | confirm => rfl
      | void => rw [hrequest] at hissues; cases hissues
    · rw [hseen] at he
      by_cases hid : id = d.id
      · rw [if_pos hid]
        refine ⟨d.row, rfl, hstatus ?_⟩
        by_contra hvoids
        have hcleared : clearedFor (s.phase c) = some id := by
          rw [hd, hid]
          exact if_pos (Bool.not_eq_false _ ▸ hvoids)
        exact hothers _ (h.cleared c id pk e hcleared he hin) rfl
      · rw [if_neg hid]
        exact h.feed id pk e he hin
  own := by
    intro pk c' e he
    rw [hdeliveries, pending_commit] at he
    rw [hphase, Function.update_of_ne he.2]
    exact h.own pk c' e he.1
  cleared := by
    intro c' id pk e hid he hin
    rw [hphase] at hid
    have hc : c' ≠ c := by
      rintro rfl
      rw [Function.update_self, hclears] at hid
      cases hid
    rw [Function.update_of_ne hc] at hid
    rw [hdeliveries, pending_commit]
    refine ⟨?_, hc⟩
    rw [hdeliveries, Versions.get?_commit] at he
    rcases s.deliveries.seen_cases c pk with ⟨row, hrow, hseen⟩ | ⟨-, hseen⟩
    · rw [hseen] at he
      subst he
      obtain ⟨n, hn, honly⟩ := h.own pk c e hrow
      obtain ⟨d', hd', hd'id, -⟩ := queuesFor_eq_some _ _ hn
      obtain ⟨d'', hd'', hd''id, -⟩ := clearedFor_eq_some _ _ hid
      refine absurd (hrows.drafts_distinct c' c d'' d' hd'' hd' ?_) hc
      rw [hd''id, hd'id, honly id hin]
    · rw [hseen] at he
      exact h.cleared c' id pk e hid he hin

end NoticesInv

/-! ## The statements on the notices -/

/-- Everything but the notices is as before. -/
structure NoticesOnly (s t : BillState C) : Prop where
  bills : t.bills = s.bills
  audit : t.audit = s.audit
  archive : t.archive = s.archive
  phase : t.phase = s.phase
  committed : ∀ pk, t.deliveries.committed.get? pk = s.deliveries.committed.get? pk

omit [DecidableEq C] in
theorem NoticesOnly.refl (s : BillState C) : NoticesOnly s s := ⟨rfl, rfl, rfl, rfl, fun _ => rfl⟩

omit [DecidableEq C] in
theorem NoticesOnly.trans {s t u : BillState C} (h : NoticesOnly s t) (h' : NoticesOnly t u) :
    NoticesOnly s u :=
  ⟨h'.bills.trans h.bills, h'.audit.trans h.audit, h'.archive.trans h.archive,
    h'.phase.trans h.phase, fun pk => (h'.committed pk).trans (h.committed pk)⟩

theorem queueChannel_kept (s t : BillState C) (c : C) (recipient bill : ℕ) (notice : Notice)
    (channel : Channel) (h : s.queueChannel c recipient notice channel = some t)
    (hinv : NoticesInv s) (hqueues : queuesFor (s.phase c) = some bill)
    (hclears : clearedFor (s.phase c) = none)
    (hfeed : ∀ n, inBillFeed n (Bulletin.delivery recipient notice channel) = true → n = bill) :
    NoticesOnly s t ∧ NoticesInv t := by
  unfold BillState.queueChannel at h
  split at h
  · obtain ⟨deliveries, hmade, rfl⟩ := Option.map_eq_some_iff.mp h
    rcases s.deliveries.getOrInsert_eq_some c _ _ _ hmade with rfl | ⟨rfl, -⟩
    · exact ⟨NoticesOnly.refl s, hinv⟩
    · refine ⟨⟨rfl, rfl, rfl, rfl, fun pk => get?_insert_committed _ _ _ _⟩,
        hinv.of_writes rfl rfl (fun pk => get?_insert_committed _ _ _ _)
          (fun pk p hp => pending_insert_other _ _ _ _ _ hp) (fun pk e he => ?_) hclears⟩
      rw [pending_insert] at he
      split at he
      · cases he
        exact .inr ⟨bill, hqueues, hfeed⟩
      · exact .inl he
  · cases h
    exact ⟨NoticesOnly.refl s, hinv⟩

theorem overFeed_kept (s t : BillState C) (c : C) (bill : ℕ)
    (f : NotificationDelivery → Option NotificationDelivery) (h : s.overFeed c bill f = some t)
    (hinv : NoticesInv s) (hclears : clearedFor (s.phase c) = none)
    (hwrites : ∀ a e, inBillFeed bill a = true → f a = some e →
      queuesFor (s.phase c) = some bill ∧ inBillFeed bill e = true) :
    NoticesOnly s t ∧ NoticesInv t := by
  unfold BillState.overFeed at h
  split at h
  · cases h
  · next hfree =>
    cases h
    rw [Bool.not_eq_true] at hfree
    refine ⟨⟨rfl, rfl, rfl, rfl, fun pk => rfl⟩, hinv.of_writes rfl rfl (fun pk => rfl)
      (fun pk p hp => pending_updateWhere_other _ _ _ _ hfree _ _ hp) (fun pk e he => ?_) hclears⟩
    rcases pending_updateWhere _ _ _ _ _ _ he with hold | ⟨a, -, ha, hrow⟩
    · exact .inl hold
    · obtain ⟨hqueues, hin⟩ := hwrites a e ha (Pending.mk.inj hrow).2.symm
      exact .inr ⟨bill, hqueues, fun n hn => inBillFeed_unique n bill e hn hin⟩

/-- A call that queues nothing, once it has deleted the rows of a feed. -/
theorem overFeed_cleared (s t : BillState C) (c : C) (bill : ℕ)
    (h : s.overFeed c bill (fun _ => none) = some t) (hinv : NoticesInv s)
    (hqueues : queuesFor (s.phase c) = none) (pk : ℕ) (e : NotificationDelivery)
    (he : s.deliveries.committed.get? pk = some e) (hin : inBillFeed bill e = true) :
    t.deliveries.pending pk = some ⟨c, none⟩ := by
  unfold BillState.overFeed at h
  split at h
  · cases h
  · cases h
    rcases s.deliveries.seen_cases c pk with ⟨row, hrow, hseen⟩ | ⟨-, hseen⟩
    · cases row with
      | none => simpa only [updateWhere, hseen] using hrow
      | some a =>
        obtain ⟨id, hid, -⟩ := hinv.own pk c a hrow
        rw [hqueues] at hid
        cases hid
    · rw [he] at hseen
      simp only [updateWhere, hseen, hin, if_true]

/-! ## The audit trail -/

/-- The bill an event is about and the status it says the bill got, for a payment and a voiding. -/
def outcomeOf (e : AuditEvent) : Option (ℕ × BillStatus) :=
  if e.targetType = "Bill" then
    if e.action = "bill.payment_recorded" then some (e.targetId, .paid)
    else if e.action = "bill.voided" then some (e.targetId, .void)
    else none
  else none

/-- Two events that say how the same bill was settled. -/
def SameBill (a b : AuditEvent) : Prop :=
  ∃ n status status', outcomeOf a = some (n, status) ∧ outcomeOf b = some (n, status')

theorem SameBill.symm (a b : AuditEvent) (h : SameBill a b) : SameBill b a := by
  obtain ⟨n, status, status', ha, hb⟩ := h
  exact ⟨n, status', status, hb, ha⟩

theorem outcomeOf_not_issued (e : AuditEvent) (n : ℕ) (status : BillStatus)
    (h : outcomeOf e = some (n, status)) : status ≠ .issued := by
  unfold outcomeOf at h
  split at h
  · split at h
    · cases h
      simp
    · split at h
      · cases h
        simp
      · cases h
  · cases h

theorem outcomeOf_event (d : BillDraft) (n : ℕ) (status : BillStatus)
    (h : outcomeOf (BillState.event d) = some (n, status)) :
    n = d.id ∧ status = BillRequest.outcome d.request := by
  unfold BillState.event at h
  cases hrequest : d.request with
  | issue actor building resident document terms =>
    rw [hrequest] at h
    simp [outcomeOf, billEvent] at h
  | confirm bill actor source reference =>
    rw [hrequest] at h
    simp only [outcomeOf, billEvent, if_true, Option.some.injEq, Prod.mk.injEq] at h
    exact ⟨h.1.symm, h.2.symm⟩
  | void actor bill reason =>
    rw [hrequest] at h
    simp only [outcomeOf, billEvent, if_true, String.reduceEq, if_false, Option.some.injEq,
      Prod.mk.injEq] at h
    exact ⟨h.1.symm, h.2.symm⟩

/-- The audit trail, and what the open calls add to it. -/
structure TrailInv (s : BillState C) : Prop where
  inserted : InsertOnly s.audit
  once : Unique SameBill s.audit
  recorded : ∀ pk e n status, s.audit.committed.get? pk = some e → outcomeOf e = some (n, status) →
    ∃ b, s.bills.committed.get? n = some b ∧ b.status = status
  uncommitted : ∀ pk c e n status, s.audit.pending pk = some ⟨c, some e⟩ →
    outcomeOf e = some (n, status) →
    ∃ d, s.phase c = .closing d ∧ d.id = n ∧ d.row.status = status

namespace TrailInv

variable {s t : BillState C} {c : C} {ph : BillPhase}

/-- A step of one call that leaves the trail alone. -/
theorem of_same (h : TrailInv s) (hphase : t.phase = Function.update s.phase c ph)
    (haudit : t.audit = s.audit)
    (hbills : ∀ id, t.bills.committed.get? id = s.bills.committed.get? id)
    (hearly : ∀ d, s.phase c ≠ .closing d) : TrailInv t where
  inserted := by
    rw [haudit]
    exact h.inserted
  once := by
    rw [haudit]
    exact h.once
  recorded := by
    intro pk e n status he hn
    rw [haudit] at he
    rw [hbills]
    exact h.recorded pk e n status he hn
  uncommitted := by
    intro pk c' e n status he hn
    rw [haudit] at he
    obtain ⟨d, hd, hrest⟩ := h.uncommitted pk c' e n status he hn
    have hc : c' ≠ c := by
      rintro rfl
      exact hearly d hd
    exact ⟨d, by rw [hphase, Function.update_of_ne hc, hd], hrest⟩

theorem of_rollback (h : TrailInv s) (hphase : t.phase = Function.update s.phase c ph)
    (haudit : t.audit = s.audit.rollback c)
    (hbills : ∀ id, t.bills.committed.get? id = s.bills.committed.get? id) : TrailInv t where
  inserted := by
    rw [haudit]
    exact (drops_rollback s.audit c).insertOnly h.inserted
  once := by
    rw [haudit]
    exact (drops_rollback s.audit c).unique h.once
  recorded := by
    intro pk e n status he hn
    rw [haudit, committed_rollback] at he
    rw [hbills]
    exact h.recorded pk e n status he hn
  uncommitted := by
    intro pk c' e n status he hn
    rw [haudit, pending_rollback] at he
    rw [hphase, Function.update_of_ne he.2]
    exact h.uncommitted pk c' e n status he.1 hn

/-- **A call adds its event**, and nobody else has one about its bill. -/
theorem of_record (h : TrailInv s) (hrows : RowsInv U s) (d : BillDraft)
    (hd : s.phase c = .noticed d) (hphase : t.phase = Function.update s.phase c (.closing d))
    (haudit : t.audit = s.audit.insert c (BillState.event d)) (hbills : t.bills = s.bills) :
    TrailInv t where
  inserted := by
    rw [haudit]
    exact h.inserted.insert _
  once := by
    rw [haudit]
    refine h.once.insert SameBill.symm _ fun pk e hstored hsame => ?_
    obtain ⟨n, status, status', hevent, he⟩ := hsame
    obtain ⟨rfl, rfl⟩ := outcomeOf_event d n status hevent
    rcases hstored with hcommitted | ⟨c', hpending⟩
    · -- The bill was settled before, and a call saves over an issued one only.
      obtain ⟨b, hb, hstatus⟩ := h.recorded pk e d.id status' hcommitted he
      have hsaves := hrows.based c
      rw [hd] at hsaves
      change BillSaves d.request (s.bills.committed.get? d.id) d.row at hsaves
      rw [hb] at hsaves
      exact outcomeOf_not_issued e d.id status' he (hstatus.symm.trans hsaves.over.1)
    · obtain ⟨d', hd', hid, -⟩ := h.uncommitted pk c' e d.id status' hpending he
      have hc := hrows.drafts_distinct c' c d' d (by rw [hd']; rfl) (by rw [hd]; rfl) hid
      rw [hc, hd] at hd'
      cases hd'
  recorded := by
    intro pk e n status he hn
    rw [haudit, get?_insert_committed] at he
    rw [hbills]
    exact h.recorded pk e n status he hn
  uncommitted := by
    intro pk c' e n status he hn
    rw [haudit, pending_insert] at he
    split at he
    · cases he
      obtain ⟨rfl, rfl⟩ := outcomeOf_event d n status hn
      have hsaves := hrows.based c
      rw [hd] at hsaves
      exact ⟨d, by rw [hphase, Function.update_self], rfl, BillSaves.status hsaves⟩
    · obtain ⟨d', hd', hrest⟩ := h.uncommitted pk c' e n status he hn
      have hc : c' ≠ c := by
        rintro rfl
        rw [hd] at hd'
        cases hd'
      exact ⟨d', by rw [hphase, Function.update_of_ne hc, hd'], hrest⟩

theorem of_commit (h : TrailInv s) (hrows : RowsInv U s) (d : BillDraft)
    (hd : s.phase c = .closing d) (hphase : t.phase = Function.update s.phase c ph)
    (haudit : t.audit = s.audit.commit c) (hbills : t.bills = s.bills.commit c) : TrailInv t where
  inserted := by
    rw [haudit]
    exact h.inserted.commit
  once := by
    rw [haudit]
    exact unique_of_stored h.once fun pk e he => stored_commit c pk e he
  recorded := by
    intro pk e n status he hn
    rw [hbills, hrows.get?_commit d (by rw [hd]; rfl)]
    rw [haudit] at he
    rcases (h.inserted.get?_commit pk e).mp he with hcommitted | hpending
    · obtain ⟨b, hb, hstatus⟩ := h.recorded pk e n status hcommitted hn
      by_cases hid : n = d.id
      · subst hid
        rw [if_pos rfl]
        have hbase := hrows.based c
        rw [hd] at hbase
        change BillSaves d.request (s.bills.committed.get? d.id) d.row ∨ _ at hbase
        rcases hbase with hsaves | ⟨hrepeats, -⟩
        · rw [hb] at hsaves
          exact absurd (hstatus.symm.trans hsaves.over.1) (outcomeOf_not_issued e d.id status hn)
        · cases hb.symm.trans hrepeats.1
          exact ⟨d.row, rfl, hstatus⟩
      · rw [if_neg hid]
        exact ⟨b, hb, hstatus⟩
    · obtain ⟨d', hd', rfl, hstatus⟩ := h.uncommitted pk c e n status hpending hn
      cases hd.symm.trans hd'
      rw [if_pos rfl]
      exact ⟨d.row, rfl, hstatus⟩
  uncommitted := by
    intro pk c' e n status he hn
    rw [haudit, pending_commit] at he
    rw [hphase, Function.update_of_ne he.2]
    exact h.uncommitted pk c' e n status he.1 hn

end TrailInv

end LamTo.Analysis
