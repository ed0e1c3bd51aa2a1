import LamTo.Analysis.CompletedWork
import LamTo.Analysis.MismatchRecorded
import LamTo.Model.Notifications

/-!
# Who hears of a mismatch

The alert about a mismatch goes to the active managers of the building, which the hook takes
from the entry's case. An entry of a standalone proposal has no case: the hook raises, the
check swallows the exception, and nobody is told. The sibling hook of a settlement takes the
building from the proposal.

* **The queue** (`queued_runAfterCommit`): after the commit exactly the registered alerts are
  queued, besides what was queued before; the in-app channel cannot be turned off.
* **The building** (`CaseInv.building`): the case of an entry is in the building of its proposal.

SOURCE: src/lamto/notifications/hooks.py:112-123, 146-156, src/lamto/finance/integrity.py:313-333
-/

set_option autoImplicit false

namespace LamTo.Analysis

open LamTo.Library LamTo.Model

/-! ## The queue -/

/-- A notification with this key is queued for the user. -/
def Queued (n : Notices) (user : ℕ) (key : Text) : Prop :=
  ∃ pk d, n.deliveries.get? pk = some d ∧ d.recipient = user ∧ d.eventKey = key

theorem queued_getOrCreateDelivery (n : Notices) (recipient : ℕ) (notice : Notice)
    (channel : Channel) (user : ℕ) (key : Text) :
    Queued (getOrCreateDelivery n recipient notice channel) user key ↔
      Queued n user key ∨ (recipient = user ∧ notice.eventKey = key) := by
  unfold getOrCreateDelivery
  split
  · next hthere =>
    obtain ⟨pk, d, hd, hkey⟩ := (Table.any_eq_true _ _).mp hthere
    simp only [Bool.and_eq_true, decide_eq_true_eq] at hkey
    refine ⟨.inl, fun h => h.elim id fun heq => ⟨pk, d, hd, ?_, ?_⟩⟩
    · exact hkey.1.1.trans heq.1
    · exact hkey.1.2.trans heq.2
  · constructor
    · rintro ⟨pk, d, hd, hrecipient, hkey⟩
      rw [Table.get?_insert] at hd
      split at hd
      · cases hd
        exact .inr ⟨hrecipient, hkey⟩
      · exact .inl ⟨pk, d, hd, hrecipient, hkey⟩
    · rintro (⟨pk, d, hd, hrecipient, hkey⟩ | ⟨hrecipient, hkey⟩)
      · exact ⟨pk, d, Table.get?_insert_of_some _ _ _ _ hd, hrecipient, hkey⟩
      · exact ⟨_, _, Table.get?_insert_self _ _, hrecipient, hkey⟩

/-- One round over the channels queues for the recipient or does nothing. -/
theorem queued_channel (n : Notices) (recipient : ℕ) (notice : Notice) (channel : Channel)
    (user : ℕ) (key : Text) :
    Queued (if channel.enabled n recipient notice.eventCode then
        getOrCreateDelivery n recipient notice channel else n) user key ↔
      Queued n user key ∨ (channel.enabled n recipient notice.eventCode = true ∧
        recipient = user ∧ notice.eventKey = key) := by
  split
  · next henabled => rw [queued_getOrCreateDelivery, henabled, eq_self, true_and]
  · next henabled => simp [henabled]

theorem queued_queueNotification (n : Notices) (recipient : ℕ) (notice : Notice) (user : ℕ)
    (key : Text) :
    Queued (queueNotification n recipient notice) user key ↔
      Queued n user key ∨ (recipient = user ∧ notice.eventKey = key) := by
  unfold queueNotification defaultChannels
  rw [List.foldl_cons, List.foldl_cons, List.foldl_cons, List.foldl_nil, queued_channel,
    queued_channel, queued_channel]
  constructor
  · rintro (((h | h) | h) | h)
    · exact .inl h
    · exact .inr h.2
    · exact .inr h.2
    · exact .inr h.2
  · rintro (h | h)
    · exact .inl (.inl (.inl h))
    · exact .inl (.inl (.inr ⟨rfl, h⟩))

/-- **What is queued after the commit.** -/
theorem queued_runAfterCommit (n : Notices) (alerts : List Alert) (user : ℕ) (key : Text) :
    Queued (runAfterCommit n alerts) user key ↔
      Queued n user key ∨ ∃ a ∈ alerts, a.recipient = user ∧ a.notice.eventKey = key := by
  unfold runAfterCommit
  induction alerts generalizing n with
  | nil => simp
  | cons a alerts ih =>
    rw [List.foldl_cons, ih, queued_queueNotification, or_assoc]
    simp only [List.mem_cons, exists_eq_or_imp]

/-! ## The recipients -/

theorem mem_managementUsers (db : Db) (building user : ℕ) :
    user ∈ managementUsers db building ↔ ActiveManager db building user := by
  simp only [managementUsers, List.mem_map, Prod.exists, Table.mem_select, Bool.and_eq_true,
    decide_eq_true_eq]
  constructor
  · rintro ⟨pk, m, ⟨hm, hbuilding, hactive⟩, huser⟩
    exact ⟨pk, m, hm, hbuilding, hactive, huser⟩
  · rintro ⟨pk, m, hm, hbuilding, hactive, huser⟩
    exact ⟨pk, m, ⟨hm, hbuilding, hactive⟩, huser⟩

/-- The alerts of a case-linked entry: one for each active manager of the case's building. -/
theorem mem_alerts_of_case (db : Db) (entry observation case : ℕ) (row : PublishedLedgerEntry)
    (c : MaintenanceCase) (hcase : row.case = some case) (hc : db.cases.get? case = some c) :
    ∃ alerts, notifyIntegrityMismatch db entry observation row = .ok alerts ∧
      ∀ user, (∃ a ∈ alerts, a.recipient = user ∧ a.notice.eventKey = mismatchKey entry observation)
        ↔ ActiveManager db c.building user := by
  simp only [notifyIntegrityMismatch, hcase, orRaise, ok_bind, (getRow_eq_ok _ _ _ _).mpr hc]
  refine ⟨_, rfl, fun user => ?_⟩
  rw [← mem_managementUsers]
  simp only [notifyUsers, List.mem_map, List.mem_eraseDups]
  constructor
  · rintro ⟨_, ⟨u, hu, rfl⟩, rfl, _⟩
    exact hu
  · intro hu
    exact ⟨_, ⟨user, hu, rfl⟩, rfl, rfl⟩

/-- Every active manager of the building has an alert about the observation queued. -/
def AlertsEveryManager (db : Db) (n : Notices) (building entry observation : ℕ) : Prop :=
  ∀ user, ActiveManager db building user → Queued n user (mismatchKey entry observation)

/-- What the check registers when it has observed a mismatch. -/
theorem registeredAlerts_mismatch (db : Db) (entry observation : ℕ) (row : PublishedLedgerEntry)
    (o : VerificationObservation) (hrow : db.ledger.get? entry = some row)
    (ho : db.observations.get? observation = some o) (hmismatch : o.result = .mismatch) :
    registeredAlerts db entry observation =
      match notifyIntegrityMismatch db entry observation row with
      | .ok alerts => alerts
      | .error _ => [] := by
  unfold registeredAlerts
  rw [hrow, ho]
  exact if_pos hmismatch

/-- **Who hears of a mismatch.** When the check of a published entry records a mismatch, every
active manager of the entry's building has an alert queued after the commit if the entry is of
a case-linked proposal, or the building has no active manager; and only then, unless an alert
under the key of the new observation was queued before. SOURCE: hooks.py:146-156 -/
theorem mismatch_alert_iff (C : EvidenceConfig) (db : Db) (hreach : db.Reachable C) (n : Notices)
    (now entry : ℕ) (storage : Storage) (chain : ChainAccess) (row : PublishedLedgerEntry)
    (p : Proposal) (hrow : db.ledger.get? entry = some row)
    (hp : db.proposals.get? row.proposal = some p) (observation : ℕ) (db' : Db) (n' : Notices)
    (hcall : verifyAndNotify C db n now entry storage chain = .ok (observation, db', n'))
    (o : VerificationObservation) (ho : db'.observations.get? observation = some o)
    (hmismatch : o.result = .mismatch) :
    (row.case ≠ none ∨ (∀ user, ¬ ActiveManager db p.building user) →
      AlertsEveryManager db n' p.building entry observation) ∧
    ((∀ user, ¬ Queued n user (mismatchKey entry observation)) →
      (AlertsEveryManager db n' p.building entry observation ↔
        row.case ≠ none ∨ ∀ user, ¬ ActiveManager db p.building user)) := by
  simp only [verifyAndNotify, bind_eq_ok, pure_eq_ok, Prod.mk.injEq] at hcall
  obtain ⟨⟨observation, mid⟩, hverify, hkey, hmid, rfl⟩ := hcall
  dsimp only at hkey hmid
  subst hkey hmid
  obtain ⟨observations, audit, rfl⟩ := verifyPublishedEntry_frame C db _ _ _ _ _ _ hverify
  have hregistered := registeredAlerts_mismatch { db with observations, audit } entry observation
    row o hrow ho hmismatch
  have hfrom : row.case ≠ none ∨ (∀ user, ¬ ActiveManager db p.building user) →
      AlertsEveryManager db (runAfterCommit n (registeredAlerts { db with observations, audit }
        entry observation)) p.building entry observation := by
    rintro (hcase | hnone) user huser
    · obtain ⟨case, hcase⟩ := Option.ne_none_iff_exists'.mp hcase
      obtain ⟨_, q, _, _, hq, hentry⟩ := (EntriesInv.reachable hreach).entry entry row hrow
      cases hp.symm.trans hq
      obtain ⟨c, hc, hbuilding⟩ := (CaseInv.reachable C db hreach).building _ p case hp
        (hentry.symm.trans hcase)
      obtain ⟨alerts, halerts, hmem⟩ := mem_alerts_of_case { db with observations, audit } entry
        observation case row c hcase hc
      rw [hregistered, halerts, queued_runAfterCommit]
      refine .inr ((hmem user).mpr ?_)
      rw [hbuilding]
      exact huser
    · exact absurd huser (hnone user)
  refine ⟨hfrom, fun hnew => ⟨fun halerted => ?_, hfrom⟩⟩
  by_contra hneither
  rw [not_or, not_not] at hneither
  obtain ⟨hstandalone, hsome⟩ := hneither
  rw [not_forall_not] at hsome
  obtain ⟨user, huser⟩ := hsome
  -- Without a case the hook raises, and nothing is registered.
  have hqueued := halerted user huser
  rw [hregistered, notifyIntegrityMismatch, hstandalone] at hqueued
  rcases (queued_runAfterCommit n [] user _).mp hqueued with hbefore | ⟨_, hmem, _⟩
  · exact hnew user hbefore
  · cases hmem

/-- A check that returns, its commit and the callbacks. -/
theorem verifyAndNotify_of_ok (C : EvidenceConfig) (db db' : Db) (n : Notices) (now entry : ℕ)
    (storage : Storage) (chain : ChainAccess) (observation : ℕ)
    (h : verifyPublishedEntry C db now entry storage chain = .ok (observation, db')) :
    verifyAndNotify C db n now entry storage chain =
      .ok (observation, db', runAfterCommit n (registeredAlerts db' entry observation)) := by
  rw [verifyAndNotify, h]
  rfl

/-- No notification, no preference and no device. -/
def noNotices : Notices := ⟨.empty, .empty, fun _ => false, false⟩

/-- The check of the altered sample entry. -/
structure SampleCheck (case : Option ℕ) (db : Db) where
  row : PublishedLedgerEntry
  p : Proposal
  observation : ℕ
  db' : Db
  o : VerificationObservation
  row_get : db.ledger.get? 1 = some row
  row_case : row.case = case
  p_get : db.proposals.get? row.proposal = some p
  p_building : p.building = 1
  verified : verifyPublishedEntry sampleConfig db 8000 1 (alteredStorage (.ok ⟨#[2]⟩))
    disabledChain = .ok (observation, db')
  o_get : db'.observations.get? observation = some o
  mismatch : o.result = .mismatch
  manager : ActiveManager db 1 7

theorem EntryFacts.check (case : Option ℕ) (db : Db) (h : EntryFacts case db) :
    Nonempty (SampleCheck case db) := by
  obtain ⟨m, hm, hmember⟩ := (Option.any_eq_true _ _).mp h.member
  simp only [Bool.and_eq_true, decide_eq_true_eq] at hmember
  obtain ⟨⟨observation, db'⟩, hverify, hresult⟩ := (Option.any_eq_true _ _).mp h.altered
  obtain ⟨o, ho, hmismatch⟩ := (Option.any_eq_true _ _).mp hresult
  obtain ⟨row, hrow, hpair⟩ := Option.map_eq_some_iff.mp h.entry
  obtain ⟨hcase, hproposal⟩ := Prod.mk.inj hpair
  obtain ⟨p, hp, hbuilding⟩ := Option.map_eq_some_iff.mp h.proposal
  exact ⟨{
    row, p, observation, db', o
    row_get := hrow
    row_case := hcase
    p_get := by rw [hproposal, hp]
    p_building := hbuilding
    verified := eq_ok_of_toOption _ _ hverify
    o_get := ho
    mismatch := of_decide_eq_true hmismatch
    manager := ⟨1, m, hm, hmember.1.2, hmember.2, hmember.1.1⟩ }⟩

/-- The manager hears of the altered quotation of a case-linked proposal. -/
theorem mismatch_alert_of_case : ∃ (db db' : Db) (n' : Notices) (observation : ℕ),
    db.Reachable sampleConfig ∧ ActiveManager db 1 7 ∧
    verifyAndNotify sampleConfig db noNotices 8000 1 (alteredStorage (.ok ⟨#[2]⟩)) disabledChain =
      .ok (observation, db', n') ∧ AlertsEveryManager db n' 1 1 observation := by
  obtain ⟨start, hrun, hfacts⟩ := decided_case_run
  obtain ⟨mid, hmid, hboth⟩ := (Option.any_eq_true _ _).mp hfacts.completed
  obtain ⟨_, hsettled⟩ := of_decide_eq_true hboth
  obtain ⟨db, hdb, hentry⟩ := (Option.any_eq_true _ _).mp hsettled
  have hreach : db.Reachable sampleConfig :=
    ((reaches_of_run _ hrun).tail ⟨_, trivial, hmid⟩).tail ⟨_, trivial, hdb⟩
  obtain ⟨c⟩ := (of_decide_eq_true hentry).check
  have hcall := verifyAndNotify_of_ok sampleConfig db c.db' noNotices 8000 1 _ disabledChain
    c.observation c.verified
  have halerts := mismatch_alert_iff sampleConfig db hreach noNotices 8000 1 _ disabledChain c.row
    c.p c.row_get c.p_get c.observation c.db' _ hcall c.o c.o_get c.mismatch
  rw [c.p_building] at halerts
  have hlinked : c.row.case ≠ none := by
    rw [c.row_case]
    exact fun h => by cases h
  exact ⟨db, c.db', _, c.observation, hreach, c.manager, hcall, halerts.1 (.inl hlinked)⟩

/-- Nobody hears of the altered quotation of a standalone proposal, though its building has an
active manager. -/
theorem mismatch_alert_missing : ∃ (db db' : Db) (n' : Notices) (observation : ℕ)
    (row : PublishedLedgerEntry) (p : Proposal) (o : VerificationObservation),
    db.Reachable sampleConfig ∧ db.ledger.get? 1 = some row ∧
    db.proposals.get? row.proposal = some p ∧
    verifyAndNotify sampleConfig db noNotices 8000 1 (alteredStorage (.ok ⟨#[2]⟩)) disabledChain =
      .ok (observation, db', n') ∧
    db'.observations.get? observation = some o ∧ o.result = .mismatch ∧
    ActiveManager db p.building 7 ∧ ∀ user key, ¬ Queued n' user key := by
  obtain ⟨start, hstart, hfacts⟩ := standalone_reachable
  obtain ⟨mid, hmid, hcompleted⟩ := (Option.any_eq_true _ _).mp hfacts.completed
  obtain ⟨db, hdb, hentry⟩ := (Option.any_eq_true _ _).mp (of_decide_eq_true hcompleted).settles
  have hreach : db.Reachable sampleConfig :=
    (hstart.tail ⟨_, trivial, hmid⟩).tail ⟨_, trivial, hdb⟩
  obtain ⟨c⟩ := (of_decide_eq_true hentry).check
  have hcall := verifyAndNotify_of_ok sampleConfig db c.db' noNotices 8000 1 _ disabledChain
    c.observation c.verified
  have hmanager : ActiveManager db c.p.building 7 := by
    rw [c.p_building]
    exact c.manager
  refine ⟨db, c.db', _, c.observation, c.row, c.p, c.o, hreach, c.row_get, c.p_get, hcall, c.o_get,
    c.mismatch, hmanager, fun user key hqueued => ?_⟩
  obtain ⟨observations, audit, hframe⟩ := verifyPublishedEntry_frame sampleConfig db _ _ _ _ _ _
    c.verified
  have hrow : c.db'.ledger.get? 1 = some c.row := by
    rw [hframe]
    exact c.row_get
  rw [registeredAlerts_mismatch c.db' 1 c.observation c.row c.o hrow c.o_get c.mismatch,
    notifyIntegrityMismatch, c.row_case] at hqueued
  rcases (queued_runAfterCommit noNotices [] user key).mp hqueued with ⟨_, _, hd, _⟩ | ⟨_, hmem, _⟩
  · cases hd
  · cases hmem

end LamTo.Analysis
