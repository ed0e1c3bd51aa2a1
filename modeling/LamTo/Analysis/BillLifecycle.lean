import LamTo.Analysis.BillTables

/-!
# The lifecycle of a bill

Every step of a call keeps the tables of the bills in order, one lemma for each statement, and
only a commit changes what is committed. So in every state that calls reach, in any order of their
statements:

* the row of a bill says how it got its status, and a bill that is paid or void stays as it is;
* a call that fails changes nothing;
* a void bill has no notice in the app, and its document is there for the resident only as that
  of another bill.

SOURCE: src/lamto/billing/services.py, src/lamto/api/downloads.py:101-108
-/

set_option autoImplicit false

namespace LamTo.Analysis

open LamTo.Library LamTo.Library.Versions LamTo.Model

variable {C : Type} {U : Unicode} [DecidableEq C]

/-! ## The steps of a call -/

structure BillInv (U : Unicode) (s : BillState C) : Prop where
  rows : RowsInv U s
  kinds : KindsInv s
  notices : NoticesInv s
  trail : TrailInv s

/-- Nothing of a call is left. -/
structure Undone (s t : BillState C) (c : C) : Prop where
  bills : t.bills = s.bills.rollback c
  deliveries : t.deliveries = s.deliveries.rollback c
  audit : t.audit = s.audit.rollback c

omit [DecidableEq C] in
/-- What is committed is as before. -/
structure KeepsCommitted (s t : BillState C) : Prop where
  bills : ∀ id, t.bills.committed.get? id = s.bills.committed.get? id
  deliveries : ∀ pk, t.deliveries.committed.get? pk = s.deliveries.committed.get? pk
  audit : ∀ pk, t.audit.committed.get? pk = s.audit.committed.get? pk

/-- A statement of a call commits nothing, and undoes everything when it raises. -/
structure CallStep (s t : BillState C) (c : C) : Prop where
  kept : KeepsCommitted s t
  phase : ∃ ph, t.phase = Function.update s.phase c ph ∧
    ∀ request e, ph = .finished request (.error e) → Undone s t c

namespace BillInv

variable {s : BillState C}

theorem raise (h : BillInv U s) (c : C) (request : BillRequest) (e : ServiceError) :
    BillInv U (s.raise c request e) ∧ CallStep s (s.raise c request e) c := by
  refine ⟨⟨h.rows.of_rollback rfl rfl rfl trivial, ?_, ?_, ?_⟩,
    ⟨⟨fun _ => rfl, fun _ => rfl, fun _ => rfl⟩, _, rfl, fun _ _ _ => ⟨rfl, rfl, rfl⟩⟩⟩
  · exact h.kinds.of_stored rfl fun pk b hb => .inl (stored_rollback c pk b hb)
  · exact h.notices.of_rollback rfl rfl (fun _ => rfl) rfl
  · exact h.trail.of_rollback rfl rfl fun _ => rfl

/-- A call takes the row of its bill. -/
theorem lock (h : BillInv U s) (t : BillState C) (c : C) (request : BillRequest) (bill : ℕ)
    (hidle : s.phase c = .idle) (hissues : BillRequest.issues request = false)
    (hreason : ∀ actor bill reason, request = .void actor bill reason →
      BillState.voidReason U reason ≠ [])
    (hstep : s.lock c request bill = some t) : BillInv U t ∧ CallStep s t c := by
  unfold BillState.lock at hstep
  split at hstep
  · cases hstep
  next hfree =>
  rw [Bool.not_eq_true] at hfree
  cases hrow : s.bills.committed.get? bill with
  | none =>
    rw [hrow] at hstep
    cases hstep
    exact h.raise c request _
  | some row =>
    rw [hrow] at hstep
    cases hstep
    refine ⟨⟨?_, ?_, ?_, ?_⟩, ⟨⟨get?_write_committed _ _ _ _, fun _ => rfl, fun _ => rfl⟩, _, rfl,
      fun _ _ hph => (by cases hph)⟩⟩
    · refine h.rows.of_write ⟨request, bill, row, none⟩ rfl rfl rfl
        ⟨s.bills.committed.pos_of_get? bill row hrow,
          s.bills.committed.lt_next_of_get? bill row hrow⟩ hfree (fun q b hq => ?_)
        ⟨hrow, hissues, hreason⟩
      rw [hidle] at hq
      cases hq
    · refine h.kinds.of_stored rfl fun pk b hb => ?_
      rcases stored_write c bill row pk b hb with hold | hnew
      · exact .inl hold
      · exact .inr (hnew ▸ h.kinds bill row (.inl hrow))
    · refine h.notices.of_same rfl rfl (get?_write_committed _ _ _ _) (fun id hid => ?_)
        fun id pk e hid => (by cases hid)
      rw [hidle] at hid
      cases hid
    · refine h.trail.of_same rfl rfl (get?_write_committed _ _ _ _) fun d hd => ?_
      rw [hidle] at hd
      cases hd

theorem begin (h : BillInv U s) (t : BillState C) (c : C) (request : BillRequest)
    (hstep : s.begin U c request = some t) : BillInv U t ∧ CallStep s t c := by
  unfold BillState.begin at hstep
  cases hphase : s.phase c with
  | idle =>
    rw [hphase] at hstep
    cases request with
    | issue actor building resident document terms =>
      cases hissued : s.issued actor building resident document terms with
      | error e =>
        simp only [hissued] at hstep
        cases hstep
        exact h.raise c _ e
      | ok p =>
        obtain ⟨membership, row⟩ := p
        simp only [hissued] at hstep
        cases hstep
        obtain ⟨hsaves, hkind⟩ := issued_saves s actor building resident document membership terms
          row hissued
        refine ⟨⟨?_, ?_, ?_, ?_⟩, ⟨⟨fun _ => rfl, fun _ => rfl, fun _ => rfl⟩, _, rfl,
          fun _ _ hph => (nomatch hph)⟩⟩
        · refine h.rows.of_insert ⟨_, s.bills.committed.next, row, some membership⟩ rfl rfl rfl rfl
            ?_ ?_
          · rw [hphase]
            rfl
          · show BillSaves (.issue actor building resident document terms)
              (s.bills.committed.get? s.bills.committed.next) row
            rw [s.bills.committed.get?_next]
            exact hsaves
        · refine h.kinds.of_stored rfl fun pk b hb => ?_
          rcases stored_insert row pk b hb with hold | ⟨-, hnew⟩
          · exact .inl hold
          · exact .inr (hnew ▸ hkind)
        · refine h.notices.of_same rfl rfl (fun _ => rfl) (fun id hid => ?_)
            fun id pk e hid => (nomatch hid)
          rw [hphase] at hid
          cases hid
        · refine h.trail.of_same rfl rfl (fun _ => rfl) fun d hd => ?_
          rw [hphase] at hd
          cases hd
    | confirm bill actor source reference =>
      refine h.lock t c _ bill hphase rfl (fun _ _ _ heq => ?_) hstep
      cases heq
    | void actor bill reason =>
      dsimp only at hstep
      split at hstep
      · cases hstep
        exact h.raise c _ _
      · next hreason =>
        refine h.lock t c _ bill hphase rfl (fun _ _ _ heq => ?_) hstep
        cases heq
        exact hreason
  | locked d | saved d | noticed d | closing d | finished request' result =>
    rw [hphase] at hstep
    cases hstep

/-- A call writes over the bill it holds. -/
theorem save (h : BillInv U s) (c : C) (d d' : BillDraft) (hd : s.phase c = .locked d)
    (hid : d'.id = d.id) (hrequest : d'.request = d.request)
    (hsaves : BillSaves d.request (some d.row) d'.row) :
    BillInv U (s.save c d') ∧ CallStep s (s.save c d') c := by
  have hbase := h.rows.based c
  rw [hd] at hbase
  obtain ⟨hrow, hissues, -⟩ := hbase
  have hheld : heldBill (s.phase c) = some (d.id, d.row) := by
    rw [hd]
    rfl
  refine ⟨⟨?_, ?_, ?_, ?_⟩, ⟨⟨get?_write_committed _ _ _ _, fun _ => rfl, fun _ => rfl⟩, _, rfl,
    fun _ _ hph => (nomatch hph)⟩⟩
  · refine h.rows.of_write d' rfl rfl rfl ?_ ?_ (fun q b hq => ?_) ?_
    · rw [hid]
      exact h.rows.holding.drawn c d.id d.row hheld
    · rw [hid]
      exact h.rows.holding.free c d.id d.row hheld
    · rw [hid]
      exact congrArg Prod.fst (Option.some.inj (hq.symm.trans hheld))
    · show BillSaves d'.request (s.bills.committed.get? d'.id) d'.row
      rw [hid, hrequest, hrow]
      exact hsaves
  · refine h.kinds.of_stored rfl fun pk b hb => ?_
    rcases stored_write c d'.id d'.row pk b hb with hold | hnew
    · exact .inl hold
    · refine .inr ?_
      rw [hnew, hsaves.over.2.1]
      exact h.kinds d.id d.row (.inl hrow)
  · refine h.notices.of_same rfl rfl (get?_write_committed _ _ _ _) (fun id hid' => ?_)
      fun id pk e hid' => (nomatch hid')
    obtain ⟨d'', hd'', -, hissues'⟩ := queuesFor_eq_some _ _ hid'
    rw [hd] at hd''
    cases hd''
    rw [hissues] at hissues'
    cases hissues'
  · refine h.trail.of_same rfl rfl (get?_write_committed _ _ _ _) fun d'' hd'' => ?_
    rw [hd] at hd''
    cases hd''

/-- The checks of a call on a locked bill, and what it saves. -/
theorem settle (h : BillInv U s) (t : BillState C) (c : C) (d : BillDraft)
    (hd : s.phase c = .locked d) (hstep : s.settle U c d = some t) :
    BillInv U t ∧ CallStep s t c := by
  have hbase := h.rows.based c
  rw [hd] at hbase
  obtain ⟨hrow, hissues, hreason⟩ := hbase
  unfold BillState.settle at hstep
  cases hrequest : d.request with
  | issue actor building resident document terms =>
    rw [hrequest] at hissues
    cases hissues
  | confirm bill actor source reference =>
    simp only [hrequest] at hstep
    cases hchecks : s.confirmed d.row actor source reference with
    | error e =>
      simp only [hchecks] at hstep
      cases hstep
      exact h.raise c _ e
    | ok new =>
      rcases confirmed_saves s d.row bill actor source reference new hchecks with
        ⟨b, rfl, hsaves⟩ | ⟨rfl, hpaid⟩
      · simp only [hchecks] at hstep
        cases hstep
        rw [← hrequest] at hsaves ⊢
        exact h.save c d { d with row := b } hd rfl rfl hsaves
      · simp only [hchecks] at hstep
        cases hstep
        refine ⟨⟨?_, fun pk b hb => h.kinds pk b hb, ?_, ?_⟩,
          ⟨⟨fun _ => rfl, fun _ => rfl, fun _ => rfl⟩, _, rfl, fun _ _ hph => (nomatch hph)⟩⟩
        · refine h.rows.of_same rfl rfl ?_ (.inr ⟨⟨hrow, hpaid⟩, ?_⟩)
          · rw [hd]
            rfl
          · rw [hrequest]
            rfl
        · refine h.notices.of_same rfl rfl (fun _ => rfl) (fun id hid => ?_) fun id pk e hid => ?_
          · rw [hd] at hid
            exact hid
          · simp only [clearedFor, hrequest, BillRequest.voids, Bool.false_eq_true, if_false] at hid
            cases hid
        · refine h.trail.of_same rfl rfl (fun _ => rfl) fun d' hd' => ?_
          rw [hd] at hd'
          cases hd'
  | void actor bill reason =>
    simp only [hrequest] at hstep
    cases hchecks : s.voided U d.row actor reason with
    | error e =>
      simp only [hchecks] at hstep
      cases hstep
      exact h.raise c _ e
    | ok p =>
      obtain ⟨membership, new⟩ := p
      simp only [hchecks] at hstep
      cases hstep
      have hsaves := voided_saves s d.row new bill actor membership reason
        (hreason actor bill reason hrequest) hchecks
      rw [← hrequest] at hsaves ⊢
      exact h.save c d { d with row := new, membership := some membership } hd rfl rfl hsaves

/-- The statements of a call on the notices. -/
theorem notify_kept (h : BillInv U s) (t : BillState C) (c : C) (d : BillDraft)
    (hd : s.phase c = .saved d) (hstep : s.notify c d = some t) :
    NoticesOnly s t ∧ NoticesInv t ∧ (BillRequest.voids d.request = true →
      ∀ pk e, t.deliveries.committed.get? pk = some e → inBillFeed d.id e = true →
        t.deliveries.pending pk = some ⟨c, none⟩) := by
  have hclears : ∀ u : BillState C, u.phase = s.phase → clearedFor (u.phase c) = none := by
    intro u hu
    rw [hu, hd]
    rfl
  unfold BillState.notify at hstep
  cases hrequest : d.request with
  | issue actor building resident document terms =>
    simp only [hrequest] at hstep
    have hqueues : ∀ u : BillState C, u.phase = s.phase → queuesFor (u.phase c) = some d.id := by
      intro u hu
      rw [hu, hd, queuesFor, billDraft?, Option.bind_some, hrequest]
      rfl
    obtain ⟨u, hinApp, hstep⟩ := Option.bind_eq_some_iff.mp hstep
    obtain ⟨v, hpush, hstep⟩ := Option.bind_eq_some_iff.mp hstep
    obtain ⟨hu, huInv⟩ := queueChannel_kept s u c _ d.id _ _ hinApp h.notices (hqueues s rfl)
      (hclears s rfl) (fun n hn => by
        simp only [inBillFeed, Bulletin.delivery, billNotice, Bool.and_eq_true] at hn
        exact (billInAppKey_injective _ _ (of_decide_eq_true hn.1)).symm)
    obtain ⟨hv, hvInv⟩ := queueChannel_kept u v c _ d.id _ _ hpush huInv (hqueues u hu.phase)
      (hclears u hu.phase) (fun n hn => by
        simp [inBillFeed, Bulletin.delivery] at hn)
    have hv' := hu.trans hv
    obtain ⟨ht, htInv⟩ := overFeed_kept v t c d.id _ hstep hvInv (hclears v hv'.phase)
      (fun a e ha he => by
        cases he
        exact ⟨hqueues v hv'.phase, ha⟩)
    exact ⟨hv'.trans ht, htInv, fun hvoids => (by cases hvoids)⟩
  | confirm bill actor source reference =>
    simp only [hrequest] at hstep
    cases hstep
    exact ⟨NoticesOnly.refl s, h.notices, fun hvoids => (by cases hvoids)⟩
  | void actor bill reason =>
    simp only [hrequest] at hstep
    obtain ⟨ht, htInv⟩ := overFeed_kept s t c d.id _ hstep h.notices (hclears s rfl)
      (fun a e _ he => (by cases he))
    refine ⟨ht, htInv, fun _ pk e he hin => ?_⟩
    refine overFeed_cleared s t c d.id hstep h.notices ?_ pk e ((ht.committed pk).symm.trans he) hin
    rw [hd, queuesFor, billDraft?, Option.bind_some, hrequest]
    rfl

theorem notify (h : BillInv U s) (t : BillState C) (c : C) (d : BillDraft)
    (hd : s.phase c = .saved d) (hstep : s.notify c d = some t) :
    BillInv U (t.setPhase c (.noticed d)) ∧ CallStep s (t.setPhase c (.noticed d)) c := by
  obtain ⟨ht, htInv, hcleared⟩ := h.notify_kept t c d hd hstep
  have hphase : (t.setPhase c (.noticed d)).phase = Function.update s.phase c (.noticed d) := by
    show Function.update t.phase c _ = _
    rw [ht.phase]
  have hbase := h.rows.based c
  rw [hd] at hbase
  refine ⟨⟨?_, ?_, ?_, ?_⟩, ⟨⟨fun id => ?_, ht.committed, fun pk => ?_⟩, _, hphase,
    fun _ _ hph => (nomatch hph)⟩⟩
  · refine h.rows.of_same hphase ht.bills ?_ hbase
    rw [hd]
    rfl
  · refine h.kinds.of_stored ht.archive fun pk b hb => .inl ?_
    change t.bills.Stored pk b at hb
    rw [ht.bills] at hb
    exact hb
  · refine htInv.of_same rfl rfl (fun _ => rfl) (fun id hid => ?_) fun id pk e hid he hin => ?_
    · rw [ht.phase, hd] at hid
      exact hid
    · unfold clearedFor at hid
      dsimp only at hid
      split at hid
      · next hvoids =>
        cases hid
        exact hcleared hvoids pk e he hin
      · cases hid
  · refine h.trail.of_same hphase ht.audit (fun id => ?_) fun d' hd' => ?_
    · show t.bills.committed.get? id = _
      rw [ht.bills]
    · rw [hd] at hd'
      cases hd'
  · show t.bills.committed.get? id = _
    rw [ht.bills]
  · show t.audit.committed.get? pk = _
    rw [ht.audit]

theorem recordEvent (h : BillInv U s) (c : C) (d : BillDraft) (hd : s.phase c = .noticed d) :
    BillInv U (s.recordEvent c d) ∧ CallStep s (s.recordEvent c d) c := by
  unfold BillState.recordEvent
  split
  · have hbase := h.rows.based c
    rw [hd] at hbase
    refine ⟨⟨?_, fun pk b hb => h.kinds pk b hb, ?_, ?_⟩,
      ⟨⟨fun _ => rfl, fun _ => rfl, get?_insert_committed _ _ _⟩, _, rfl,
        fun _ _ hph => (nomatch hph)⟩⟩
    · refine h.rows.of_same rfl rfl ?_ (.inl hbase)
      rw [hd]
      rfl
    · refine h.notices.of_same rfl rfl (fun _ => rfl) (fun id hid => ?_) fun id pk e hid => ?_
      · rw [hd] at hid
        exact hid
      · exact h.notices.cleared c id pk e (by rw [hd]; exact hid)
    · exact h.trail.of_record h.rows d hd rfl rfl rfl
  · exact h.raise c _ _

theorem next (h : BillInv U s) (t : BillState C) (c : C) (hstep : s.next U c = some t) :
    BillInv U t ∧ CallStep s t c := by
  unfold BillState.next at hstep
  cases hd : s.phase c with
  | locked d =>
    rw [hd] at hstep
    exact h.settle t c d hd hstep
  | saved d =>
    rw [hd] at hstep
    obtain ⟨u, hu, rfl⟩ := Option.map_eq_some_iff.mp hstep
    exact h.notify u c d hd hu
  | noticed d =>
    rw [hd] at hstep
    cases hstep
    exact h.recordEvent c d hd
  | idle | closing d | finished request result =>
    rw [hd] at hstep
    cases hstep

/-- A call that commits was about to, and returns. -/
theorem commit (h : BillInv U s) (t : BillState C) (c : C) (hstep : s.commit c = some t) :
    BillInv U t ∧ ∃ d, s.phase c = .closing d ∧
      t.phase = Function.update s.phase c (.finished d.request (.ok d.id)) ∧
      t.bills = s.bills.commit c := by
  unfold BillState.commit at hstep
  cases hd : s.phase c with
  | closing d =>
    rw [hd] at hstep
    cases hstep
    refine ⟨⟨?_, ?_, ?_, ?_⟩, d, rfl, rfl, rfl⟩
    · exact h.rows.of_commit d hd rfl rfl rfl fun _ => trivial
    · exact h.kinds.of_stored rfl fun pk b hb => .inl (stored_commit c pk b hb)
    · exact h.notices.of_commit h.rows d hd rfl rfl rfl rfl
    · exact h.trail.of_commit h.rows d hd rfl rfl rfl
  | idle | locked d | saved d | noticed d | finished request result =>
    rw [hd] at hstep
    cases hstep

omit [DecidableEq C] in
theorem empty (archive : Archive) : BillInv U (BillState.empty archive : BillState C) where
  rows := ⟨holding_empty, fun _ _ h => (nomatch h), fun _ => trivial⟩
  kinds := by
    rintro pk b (h | ⟨d, h⟩)
    · exact (nomatch h)
    · exact (nomatch h)
  notices := ⟨fun _ _ _ h => (nomatch h), fun _ _ _ h => (nomatch h), fun _ _ _ _ h => (nomatch h)⟩
  trail := ⟨insertOnly_empty, unique_empty _, fun _ _ _ _ h => (nomatch h),
    fun _ _ _ _ _ h => (nomatch h)⟩

/-- What a step does: a call commits, a call takes a statement, or neither. -/
theorem step_cases (h : BillInv U s) (t : BillState C) (action : BillAction C)
    (hstep : BillState.step U s action = some t) : BillInv U t ∧
      ((∃ c d, action = .commit c ∧ s.phase c = .closing d ∧
          t.phase = Function.update s.phase c (.finished d.request (.ok d.id)) ∧
          t.bills = s.bills.commit c) ∨
        (∃ c, CallStep s t c) ∨ KeepsCommitted s t ∧ t.phase = s.phase) := by
  cases action with
  | tick elapsed =>
    cases hstep
    exact ⟨⟨⟨h.rows.holding, h.rows.rows, h.rows.based⟩, fun pk b hb => h.kinds pk b hb,
      ⟨h.notices.feed, h.notices.own, h.notices.cleared⟩,
      ⟨h.trail.inserted, h.trail.once, h.trail.recorded, h.trail.uncommitted⟩⟩,
      .inr (.inr ⟨⟨fun _ => rfl, fun _ => rfl, fun _ => rfl⟩, rfl⟩)⟩
  | others archive =>
    simp only [BillState.step] at hstep
    split at hstep
    · next hkeeps =>
      cases hstep
      exact ⟨⟨⟨h.rows.holding, h.rows.rows, h.rows.based⟩, h.kinds.of_others archive hkeeps,
        ⟨h.notices.feed, h.notices.own, h.notices.cleared⟩,
        ⟨h.trail.inserted, h.trail.once, h.trail.recorded, h.trail.uncommitted⟩⟩,
        .inr (.inr ⟨⟨fun _ => rfl, fun _ => rfl, fun _ => rfl⟩, rfl⟩)⟩
    · cases hstep
  | setPreferences preferences activeDevice pushEnabled =>
    cases hstep
    exact ⟨⟨⟨h.rows.holding, h.rows.rows, h.rows.based⟩, fun pk b hb => h.kinds pk b hb,
      ⟨h.notices.feed, h.notices.own, h.notices.cleared⟩,
      ⟨h.trail.inserted, h.trail.once, h.trail.recorded, h.trail.uncommitted⟩⟩,
      .inr (.inr ⟨⟨fun _ => rfl, fun _ => rfl, fun _ => rfl⟩, rfl⟩)⟩
  | begin c request =>
    obtain ⟨hinv, hcall⟩ := h.begin t c request hstep
    exact ⟨hinv, .inr (.inl ⟨c, hcall⟩)⟩
  | next c =>
    obtain ⟨hinv, hcall⟩ := h.next t c hstep
    exact ⟨hinv, .inr (.inl ⟨c, hcall⟩)⟩
  | disconnect c =>
    obtain ⟨request, -, rfl⟩ := Option.map_eq_some_iff.mp hstep
    obtain ⟨hinv, hcall⟩ := h.raise c request (.value "connection")
    exact ⟨hinv, .inr (.inl ⟨c, hcall⟩)⟩
  | commit c =>
    obtain ⟨hinv, d, hd, hphase, hbills⟩ := h.commit t c hstep
    exact ⟨hinv, .inl ⟨c, d, rfl, hd, hphase, hbills⟩⟩

theorem of_reaches (h : BillInv U s) (t : BillState C)
    (hreach : Reaches (BillState.step U) Always s t) : BillInv U t :=
  hreach.preserves (BillInv U) (fun _ action v hu _ hstep => (hu.step_cases v action hstep).1) h

/-- **A bill that is paid or void is never written again.** -/
theorem settled_kept (h : BillInv U s) (t : BillState C)
    (hreach : Reaches (BillState.step U) Always s t) (id : ℕ) (b : Bill)
    (hb : s.bills.committed.get? id = some b) (hsettled : b.status ≠ .issued) :
    t.bills.committed.get? id = some b := by
  have hboth : BillInv U t ∧ t.bills.committed.get? id = some b := by
    refine hreach.preserves (fun u => BillInv U u ∧ u.bills.committed.get? id = some b) ?_ ⟨h, hb⟩
    rintro u action v ⟨hu, hsame⟩ _ hstep
    obtain ⟨hv, ⟨c, d, -, hd, -, hbills⟩ | ⟨c, hcall⟩ | ⟨hkept, -⟩⟩ := hu.step_cases v action hstep
    · refine ⟨hv, ?_⟩
      rw [hbills, hu.rows.get?_commit d (by rw [hd]; rfl)]
      split
      · next hid =>
        subst hid
        have hbase := hu.rows.based c
        rw [hd] at hbase
        change BillSaves d.request (u.bills.committed.get? d.id) d.row ∨ _ at hbase
        rcases hbase with hsaves | ⟨hrepeats, -⟩
        · rw [hsame] at hsaves
          exact absurd hsaves.over.1 hsettled
        · exact hrepeats.1.symm.trans hsame
      · exact hsame
    · exact ⟨hv, (hcall.kept.bills id).trans hsame⟩
    · exact ⟨hv, (hkept.bills id).trans hsame⟩
  exact hboth.2

omit [DecidableEq C] in
/-- What the resident of a bill may download of it. -/
theorem downloadable_iff (h : BillInv U s) (id : ℕ) (b : Bill)
    (hb : s.bills.committed.get? id = some b) :
    residentCanDownload s.committed b.resident b.document = true ↔
      ∃ id' b', s.bills.committed.get? id' = some b' ∧ b'.document = b.document ∧
        b'.resident = b.resident ∧ b'.status ≠ .void := by
  have hkind := h.kinds id b (.inl hb)
  unfold versionKind at hkind
  obtain ⟨v, hv, hkind⟩ := Option.bind_eq_some_iff.mp hkind
  obtain ⟨d, hd, hkind⟩ := Option.map_eq_some_iff.mp hkind
  have hmem : DocumentKind.residentBill ∈ residentDownloadableKinds := by decide
  simp only [residentCanDownload, BillState.committed, hv, hd, Option.any_some, hkind, hmem,
    not_true_eq_false, if_false, if_true, Table.any_eq_true, Bool.and_eq_true, decide_eq_true_eq,
    ne_eq, and_assoc]

end BillInv

/-- **The lifecycle of a bill**, in every state that calls reach: the row of a bill says how it
got its status; a bill that is paid or void stays as it is; at most one event says how it was
settled, and says so rightly; a call that fails changes nothing; a void bill has no notice in the
app, and its document is there for the resident only as that of another bill that is not void. -/
theorem bill_lifecycle (U : Unicode) (archive : Archive) (s : BillState C)
    (hreach : Reaches (BillState.step U) Always (BillState.empty archive) s) :
    (∀ id b, s.bills.committed.get? id = some b →
      (b.status = .paid ↔ Bill.HasPayment b) ∧ (b.status = .void ↔ Bill.HasVoiding b)) ∧
    (∀ id b, s.bills.committed.get? id = some b → b.status ≠ .issued →
      ∀ t, Reaches (BillState.step U) Always s t → t.bills.committed.get? id = some b) ∧
    (∀ pk qk e f id status status', s.audit.committed.get? pk = some e →
      s.audit.committed.get? qk = some f → outcomeOf e = some (id, status) →
      outcomeOf f = some (id, status') → pk = qk) ∧
    (∀ pk e id status, s.audit.committed.get? pk = some e → outcomeOf e = some (id, status) →
      ∃ b, s.bills.committed.get? id = some b ∧ b.status = status) ∧
    (∀ action t, BillState.step U s action = some t → KeepsCommitted s t ∨
      ∃ c request id, action = .commit c ∧ t.phase c = .finished request (.ok id)) ∧
    (∀ action t c request e, BillState.step U s action = some t →
      t.phase c = .finished request (.error e) →
      s.phase c = .finished request (.error e) ∨ Undone s t c) ∧
    (∀ id b, s.bills.committed.get? id = some b → b.status = .void →
      (∀ pk e, s.deliveries.committed.get? pk = some e → inBillFeed id e = false) ∧
      (residentCanDownload s.committed b.resident b.document = true ↔
        ∃ id' b', s.bills.committed.get? id' = some b' ∧ b'.document = b.document ∧
          b'.resident = b.resident ∧ b'.status ≠ .void)) := by
  have h : BillInv U s := (BillInv.empty archive).of_reaches s hreach
  refine ⟨?_, ?_, ?_, ?_, ?_, ?_, ?_⟩
  · intro id b hb
    have hrow := h.rows.rows id b hb
    exact ⟨hrow.paid_iff, hrow.void_iff⟩
  · intro id b hb hsettled t ht
    exact h.settled_kept t ht id b hb hsettled
  · intro pk qk e f id status status' he hf hout hout'
    exact h.trail.once pk qk e f (.inl he) (.inl hf) ⟨id, status, status', hout, hout'⟩
  · exact h.trail.recorded
  · intro action t hstep
    obtain ⟨-, ⟨c, d, rfl, -, hphase, -⟩ | ⟨c, hcall⟩ | ⟨hkept, -⟩⟩ := h.step_cases t action hstep
    · exact .inr ⟨c, d.request, d.id, rfl, by rw [hphase, Function.update_self]⟩
    · exact .inl hcall.kept
    · exact .inl hkept
  · intro action t c request e hstep hfailed
    obtain ⟨-, ⟨c', d, -, -, hphase, -⟩ | ⟨c', hcall⟩ | ⟨-, hphase⟩⟩ := h.step_cases t action hstep
    · rw [hphase] at hfailed
      by_cases hc : c = c'
      · rw [hc, Function.update_self] at hfailed
        cases hfailed
      · rw [Function.update_of_ne hc] at hfailed
        exact .inl hfailed
    · obtain ⟨ph, hphase, hundone⟩ := hcall.phase
      rw [hphase] at hfailed
      by_cases hc : c = c'
      · subst hc
        rw [Function.update_self] at hfailed
        exact .inr (hundone request e hfailed)
      · rw [Function.update_of_ne hc] at hfailed
        exact .inl hfailed
    · exact .inl (by rw [← hphase, hfailed])
  · intro id b hb hvoid
    refine ⟨fun pk e he => ?_, h.downloadable_iff id b hb⟩
    by_contra hin
    obtain ⟨b', hb', hnot⟩ := h.notices.feed id pk e he (Bool.not_eq_false _ ▸ hin)
    cases hb.symm.trans hb'
    exact hnot hvoid

/-- A building with a manager and a resident, and one bill document. -/
def billArchive : Archive := { Archive.empty with
  db := { Db.empty with
    memberships := Table.empty.insert ⟨7, 1, true⟩
    occupancies := Table.empty.insert ⟨8, 1, true⟩
    documents := Table.empty.insert ⟨1, .residentBill⟩
    documentVersions := Table.empty.insert ⟨1, List.replicate 64 'a', true⟩ } }

def sampleBill (reference : String) : BillTerms where
  title := "Service fee".toList
  amountVnd := 1250000
  note := []
  period := "2026-07".toList
  dueDate := none
  reference := reference.toList

/-- Two bills with one document, of which the first is voided; its payment comes too late. -/
def voidedOfTwo : List (BillAction ℕ) :=
  [.begin 0 (.issue 7 1 8 1 (sampleBill "r1")), .next 0, .next 0, .commit 0,
    .begin 1 (.issue 7 1 8 1 (sampleBill "r2")), .next 1, .next 1, .commit 1,
    .begin 2 (.void 7 1 (some "Wrong amount".toList)), .next 2, .next 2, .next 2, .commit 2,
    .begin 3 (.confirm 1 8 .selfAttestedDemo "r1".toList), .next 3]

/-- What the run leads to. -/
def FirstVoided (s : BillState ℕ) : Prop :=
  (s.bills.committed.get? 1).any (fun b => b.status = .void && b.resident = 8 && b.document = 1)
      = true ∧ residentCanDownload s.committed 8 1 = true

instance (s : BillState ℕ) : Decidable (FirstVoided s) := inferInstanceAs (Decidable (_ ∧ _))

theorem voided_of_two_run : ∃ s, Reaches (BillState.step asciiUnicode) Always
    (BillState.empty billArchive) s ∧ FirstVoided s :=
  exists_of_run (BillState.step asciiUnicode) (BillState.empty billArchive) FirstVoided voidedOfTwo
    (by decide +kernel)

/-- The voided bill of the run names its voider, its time and its reason. -/
theorem bill_lifecycle_voided : ∃ (s : BillState ℕ) (b : Bill),
    s.bills.committed.get? 1 = some b ∧ Bill.HasVoiding b := by
  obtain ⟨s, hreach, hfirst, -⟩ := voided_of_two_run
  obtain ⟨b, hb, hrow⟩ := (Option.any_eq_true _ _).mp hfirst
  simp only [Bool.and_eq_true, decide_eq_true_eq] at hrow
  exact ⟨s, b, hb, (((bill_lifecycle asciiUnicode billArchive s hreach).1 1 b hb).2).mp hrow.1.1⟩

/-- **The document of a void bill may still be there for its resident**, as that of another
bill. -/
theorem void_bill_downloadable : ∃ (s : BillState ℕ) (b : Bill),
    Reaches (BillState.step asciiUnicode) Always (BillState.empty billArchive) s ∧
    s.bills.committed.get? 1 = some b ∧ b.status = .void ∧
    residentCanDownload s.committed b.resident b.document = true := by
  obtain ⟨s, hreach, hfirst, hdownload⟩ := voided_of_two_run
  obtain ⟨b, hb, hrow⟩ := (Option.any_eq_true _ _).mp hfirst
  simp only [Bool.and_eq_true, decide_eq_true_eq] at hrow
  refine ⟨s, b, hreach, hb, hrow.1.1, ?_⟩
  rw [hrow.1.2, hrow.2]
  exact hdownload

end LamTo.Analysis
