import LamTo.Analysis.MaintenanceSteps

/-!
# Steps that keep books

A publication, a settlement and the three fund services, read backwards. What each wrote is
a structure: the rows it read, the conditions it tested and the database it left.
`book_effect` says that every step of the system is one of these or quiet; the invariants
are proved from it and never look into a service again.

SOURCE: src/lamto/finance/proposals.py, settlements.py, fund.py, publication.py
-/

set_option autoImplicit false

namespace LamTo.Analysis

open LamTo.Library LamTo.Model

/-! ## Columns -/

theorem textColumn_eq_ok (column : String) (limit : Option ℕ) (t u : Text)
    (h : textColumn column limit t = .ok u) : u = t := by
  simp only [textColumn, bind_eq_ok, pure_eq_ok] at h
  obtain ⟨_, _, _, _, rfl⟩ := h
  rfl

/-- A text column holds no NUL character. -/
theorem textColumn_nul (column : String) (limit : Option ℕ) (t u : Text)
    (h : textColumn column limit t = .ok u) : nul ∉ u := by
  simp only [textColumn, bind_eq_ok, require_eq_ok, pure_eq_ok] at h
  obtain ⟨_, hnul, _, _, rfl⟩ := h
  exact hnul

theorem positiveBigInt_eq_ok (column constraint : String) (n m : ℕ)
    (h : positiveBigInt column constraint n = .ok m) : m = n ∧ 0 < n ∧ n < 2 ^ 63 := by
  simp only [positiveBigInt, bind_eq_ok, require_eq_ok, pure_eq_ok] at h
  obtain ⟨_, hlarge, _, hpos, rfl⟩ := h
  exact ⟨Int.toNat_natCast n, by exact_mod_cast hpos, by exact_mod_cast hlarge⟩

/-! ## Publication -/

/-- The number the next version of a proposal gets. -/
def nextNumber (db : Db) (proposal : ℕ) : ℕ :=
  ((latestVersion db proposal).map fun v => v.2.number).getD 0 + 1

/-- The version is one of a document of the kind, in the building. -/
def IsDocument (db : Db) (version : ℕ) (kind : DocumentKind) (building : ℕ) : Prop :=
  ∃ v d, db.documentVersions.get? version = some v ∧ db.documents.get? v.document = some d ∧
    d.kind = kind ∧ d.building = building

/-- A successful publication. -/
structure Publishing (C : EvidenceConfig) (db db' : Db) where
  proposal : ℕ
  row : Proposal
  terms : Terms
  quotations : List (ℕ × DocumentVersion)
  snap : Json
  members : List (Text × Json)
  link : Text
  now : ℕ
  eventId : Text
  event : ℕ
  outbox : OutboxTable
  version : ProposalVersion
  token : Option Text
  predictions : Table PricePrediction
  audit : Table AuditEvent
  row_get : db.proposals.get? proposal = some row
  row_open : row.status = .draft ∨ row.status = .published ∨ row.status = .inProgress
  quotations_get : ∀ q ∈ quotations, db.documentVersions.get? q.1 = some q.2
  quotations_are : ∀ q ∈ quotations, IsDocument db q.1 .quotation row.building
  submitted : submissionSnapshot C db proposal row terms quotations (nextNumber db proposal)
    = .ok (snap, members)
  linked : previousHash db (latestVersion db proposal) = .ok link
  queued : queuePlatformEvent C now eventId proposalCreated (.ofJson (.obj members)) link
    row.building db.outbox = .ok (event, outbox)
  version_proposal : version.proposal = proposal
  version_number : version.number = nextNumber db proposal
  version_terms : version.terms = terms
  version_event : version.outboxEvent = event
  version_createdAt : version.createdAt = now
  version_amount : 0 < version.amountVnd ∧ version.amountVnd < 2 ^ 63
  version_contractor : nul ∉ version.contractorName
  version_snapshot : C.jsonb.column snap = some version.snapshot
  event_unused : ∀ pk v, db.versions.get? pk = some v → v.outboxEvent ≠ event
  result : db' = { db with
    outbox, predictions, audit
    versions := db.versions.insert version
    proposalDocuments := (quotations.map Prod.fst).foldl
      (fun t d => t.insert ⟨db.versions.next, d⟩) db.proposalDocuments
    proposals := db.proposals.update proposal fun p =>
      { p with currentVersion := some db.versions.next, status := .published,
               publicToken := token.or p.publicToken } }

theorem terms_eq_ok (U : Unicode) (status : ProposalStatus) (args : Publication) (terms : Terms)
    (h : args.terms U status = .ok terms) :
    status = .draft ∨ status = .published ∨ status = .inProgress := by
  simp only [Publication.terms, bind_eq_ok, require_eq_ok] at h
  obtain ⟨_, _, _, _, _, hstatus, _⟩ := h
  exact hstatus

theorem quotationVersions_eq_ok (db : Db) (building : ℕ) (supplied : List (Option ℕ))
    (versions : List (ℕ × DocumentVersion))
    (h : quotationVersions db building supplied = .ok versions) :
    ∀ q ∈ versions, db.documentVersions.get? q.1 = some q.2 ∧
      IsDocument db q.1 .quotation building := by
  simp only [quotationVersions, bind_eq_ok, orRaise_eq_ok, pure_eq_ok] at h
  obtain ⟨_, _, _, _, _, hversions, _, hchecked, rfl⟩ := h
  intro q hq
  obtain ⟨pk, _, hpk⟩ := mem_of_mapM_some _ _ _ hversions q hq
  obtain ⟨v, hv, rfl⟩ := Option.map_eq_some_iff.mp hpk
  have hcheck := (forM_eq_ok _ _).mp hchecked (pk, v) hq
  simp only [bind_eq_ok, getRow_eq_ok, require_eq_ok] at hcheck
  obtain ⟨d, hd, hkind, hbuilding, _⟩ := hcheck
  exact ⟨hv, v, d, hv, hd, hkind, hbuilding⟩

theorem createVersion_eq_ok (C : EvidenceConfig) (db db' : Db) (now proposal number : ℕ)
    (terms : Terms) (snap : Json) (creatorMembership event pk : ℕ)
    (h : createVersion C db now proposal number terms snap creatorMembership event
      = .ok (pk, db')) :
    (∀ key v, db.versions.get? key = some v → v.outboxEvent ≠ event) ∧ pk = db.versions.next ∧
    ∃ version : ProposalVersion, version.proposal = proposal ∧ version.number = number ∧
      version.terms = terms ∧ version.outboxEvent = event ∧ version.createdAt = now ∧
      (0 < version.amountVnd ∧ version.amountVnd < 2 ^ 63) ∧ nul ∉ version.contractorName ∧
      C.jsonb.column snap = some version.snapshot ∧
      db' = { db with versions := db.versions.insert version } := by
  simp only [createVersion, bind_eq_ok, orRaise_eq_ok, require_eq_ok, pure_eq_ok, Prod.mk.injEq,
    Table.any_eq_false] at h
  obtain ⟨_, _, _, hamount, _, hname, _, hpurpose, _, haction, _, hschedule, _, hstored, _, _, _, _,
    _, hunused, rfl, rfl⟩ := h
  obtain ⟨rfl, hpositive⟩ := positiveBigInt_eq_ok _ _ _ _ hamount
  have hnul := textColumn_nul _ _ _ _ hname
  obtain rfl := textColumn_eq_ok _ _ _ _ hname
  obtain rfl := textColumn_eq_ok _ _ _ _ hpurpose
  obtain rfl := textColumn_eq_ok _ _ _ _ haction
  obtain rfl := textColumn_eq_ok _ _ _ _ hschedule
  refine ⟨fun key v hv => ?_, rfl, _, rfl, rfl, rfl, rfl, rfl, hpositive, hnul, hstored, rfl⟩
  simpa using hunused key v hv

theorem attachPrediction_eq (db : Db) (prediction : Option ℕ) (row : Proposal)
    (amountVnd version : ℕ) :
    ∃ predictions, attachPrediction db prediction row amountVnd version = { db with predictions } := by
  cases prediction with
  | none => exact ⟨db.predictions, rfl⟩
  | some pk => exact ⟨_, rfl⟩

theorem publishProposalVersion_eq_ok (C : EvidenceConfig) (db db' : Db)
    (now proposal creator : ℕ) (args : Publication) (pk : ℕ)
    (h : publishProposalVersion C db now proposal creator args = .ok (pk, db')) :
    ∃ p : Publishing C db db', p.now = now ∧ p.proposal = proposal := by
  simp only [publishProposalVersion, bind_eq_ok, getRow_eq_ok, pure_eq_ok, Prod.mk.injEq] at h
  obtain ⟨row, hrow, ⟨_, _⟩, _, terms, hterms, quotations, hquotations, ⟨snap, members⟩, hsubmit,
    link, hlink, ⟨event, outbox⟩, hqueue, ⟨version, db₁⟩, hversion, db₂, hsave, db₃, haudit, _,
    rfl⟩ := h
  obtain ⟨hunused, hpk, v, hproposal, hnumber, hvterms, hevent, hcreated, hamount, hcontractor,
    hstored, hdb₁⟩ := createVersion_eq_ok _ _ _ _ _ _ _ _ _ _ _ hversion
  dsimp only at hpk hdb₁ hsave
  subst hpk hdb₁
  obtain ⟨predictions, hpredictions⟩ := attachPrediction_eq
    (createProposalDocuments { db with outbox, versions := db.versions.insert v } db.versions.next
      (quotations.map Prod.fst)) args.pricePredictionId row terms.amountVnd db.versions.next
  rw [hpredictions] at hsave
  simp only [saveCurrentVersion, bind_eq_ok, pure_eq_ok] at hsave
  obtain ⟨_, _, rfl⟩ := hsave
  obtain ⟨audit, rfl⟩ := recordAudit_eq_ok _ _ _ _ _ _ _ _ _ haudit
  exact ⟨{
    proposal, row, terms, quotations, snap, members, link, now, event, outbox, predictions, audit
    eventId := args.eventId
    version := v
    token := if (latestVersion db proposal).isNone then some args.publicToken else none
    row_get := hrow
    row_open := terms_eq_ok _ _ _ _ hterms
    quotations_get := fun q hq => (quotationVersions_eq_ok _ _ _ _ hquotations q hq).1
    quotations_are := fun q hq => (quotationVersions_eq_ok _ _ _ _ hquotations q hq).2
    submitted := hsubmit
    linked := hlink
    queued := hqueue
    version_proposal := hproposal
    version_number := hnumber
    version_terms := hvterms
    version_event := hevent
    version_createdAt := hcreated
    version_amount := hamount
    version_contractor := hcontractor
    version_snapshot := hstored
    event_unused := hunused
    result := rfl }, rfl, rfl⟩

/-! ## The fund -/

/-- The fund of a building is found, or opened. -/
def FundOpened (funds funds' : Table MaintenanceFund) (building fund : ℕ) : Prop :=
  (funds.get? fund = some ⟨building⟩ ∧ funds' = funds) ∨
    ((∀ pk f, funds.get? pk = some f → f.building ≠ building) ∧ fund = funds.next ∧
      funds' = funds.insert ⟨building⟩)

theorem getOrCreateFund_eq (db : Db) (building : ℕ) :
    ∃ fund funds, getOrCreateFund db building = (fund, { db with funds }) ∧
      FundOpened db.funds funds building fund := by
  unfold getOrCreateFund
  split
  · next fund f hfind =>
    obtain ⟨hget, hbuilding⟩ := Table.first?_eq_some _ _ _ _ hfind
    obtain ⟨_⟩ := f
    obtain rfl := of_decide_eq_true hbuilding
    exact ⟨fund, db.funds, rfl, .inl ⟨hget, rfl⟩⟩
  · next hfind =>
    refine ⟨db.funds.next, _, rfl, .inr ⟨fun pk f hf => ?_, rfl, rfl⟩⟩
    simpa using (Table.first?_eq_none _ _).mp hfind pk f hf

/-- An inserted fund entry has a key of its own and a source key of its own. -/
theorem insertFundEntry_eq_ok (db db' : Db) (pk : ℕ) (entry : MaintenanceFundEntry)
    (h : insertFundEntry db pk entry = .ok db') :
    (∀ key e, db.fundEntries.get? key = some e → e.sourceKey ≠ entry.sourceKey) ∧
    ∃ fresh, db' = { db with fundEntries := db.fundEntries.insertAt pk entry fresh } := by
  simp only [insertFundEntry, bind_eq_ok, require_eq_ok, Table.any_eq_false] at h
  obtain ⟨_, _, _, _, _, _, _, _, _, hkey, h⟩ := h
  refine ⟨fun key e he => by simpa using hkey key e he, ?_⟩
  split at h
  · next hfresh =>
    rw [pure_eq_ok] at h
    exact ⟨hfresh, h.symm⟩
  · cases h

/-- A successful `record_fund_source`. -/
structure Recording (db db' : Db) where
  fund : ℕ
  fundRow : MaintenanceFund
  sha256 : Text
  pk : ℕ
  entry : MaintenanceFundEntry
  fundEntryIds : ℕ
  audit : Table AuditEvent
  fund_get : db.funds.get? fund = some fundRow
  entry_fund : entry.fund = fund
  entry_source : entry.entryType.source = true
  entry_key : entry.sourceKey = sourceKey entry.entryType fund sha256
  fresh : 0 < pk ∧ ∀ r ∈ db.fundEntries.rows, r.1 ≠ pk
  result : db' = { db with
    fundEntryIds, audit, fundEntries := db.fundEntries.insertAt pk entry fresh }

theorem fundEntryKey_eq_ok (db db' : Db) (fundEntryId : PyValue) (pk : ℕ)
    (h : fundEntryKey db fundEntryId = .ok (pk, db')) :
    ∃ fundEntryIds, db' = { db with fundEntryIds } := by
  cases fundEntryId with
  | none =>
    cases h
    exact ⟨_, rfl⟩
  | _ =>
    simp only [fundEntryKey, bind_eq_ok, pure_eq_ok, Prod.mk.injEq] at h
    obtain ⟨_, _, _, rfl⟩ := h
    exact ⟨db.fundEntryIds, rfl⟩

theorem recordFundSource_eq_ok (db db' : Db) (now fund : ℕ) (entryType : EntryType)
    (amountVnd : PyValue) (evidence : Option ℕ) (recorder : ℕ) (fundEntryId : PyValue)
    (aware : Bool) (key : ℕ)
    (h : recordFundSource db now fund entryType amountVnd evidence recorder fundEntryId aware
      = .ok (key, db')) : ∃ r : Recording db db', r.fund = fund := by
  simp only [recordFundSource, bind_eq_ok, orRaise_eq_ok, require_eq_ok, pure_eq_ok,
    Prod.mk.injEq] at h
  obtain ⟨fundRow, hfund, ⟨_, _⟩, _, _, hsource, _, _, ⟨_, version⟩, _, ⟨pk, db₁⟩, hkey, _, _, _, _,
    _, _, db₂, hinsert, db₃, haudit, _, rfl⟩ := h
  obtain ⟨fundEntryIds, rfl⟩ := fundEntryKey_eq_ok _ _ _ _ hkey
  obtain ⟨_, fresh, rfl⟩ := insertFundEntry_eq_ok _ _ _ _ hinsert
  obtain ⟨audit, rfl⟩ := recordAudit_eq_ok _ _ _ _ _ _ _ _ _ haudit
  exact ⟨{
    fund, fundRow, pk, fundEntryIds, audit, fresh
    sha256 := version.sha256
    entry := _
    fund_get := hfund
    entry_fund := rfl
    entry_source := hsource
    entry_key := rfl
    result := rfl }, rfl⟩

/-- A successful `verify_fund_source`. -/
structure Verifying (db db' : Db) where
  entry : ℕ
  row : MaintenanceFundEntry
  verification : FundEntryVerification
  audit : Table AuditEvent
  row_get : db.fundEntries.get? entry = some row
  row_source : row.entryType.source = true
  unverified : ∀ pk v, db.verifications.get? pk = some v → v.entry ≠ entry
  verification_entry : verification.entry = entry
  result : db' = { db with audit, verifications := db.verifications.insert verification }

theorem verifyFundSource_eq_ok (db db' : Db) (now entry verifier pk : ℕ)
    (h : verifyFundSource db now entry verifier = .ok (pk, db')) :
    ∃ v : Verifying db db', v.entry = entry := by
  simp only [verifyFundSource, bind_eq_ok, orRaise_eq_ok, require_eq_ok, pure_eq_ok,
    Table.any_eq_false, Prod.mk.injEq] at h
  obtain ⟨row, hrow, _, _, ⟨_, _⟩, _, _, hsource, _, _, _, hunverified, db₁, haudit, _, rfl⟩ := h
  obtain ⟨audit, rfl⟩ := recordAudit_eq_ok _ _ _ _ _ _ _ _ _ haudit
  exact ⟨{
    entry, row, audit
    verification := _
    row_get := hrow
    row_source := hsource
    unverified := fun pk v hv => by simpa using hunverified pk v hv
    verification_entry := rfl
    result := rfl }, rfl⟩

/-! ## Settlement -/

/-- The outflow entry of a settlement. -/
def outflowEntry (fund : ℕ) (s : Settlement) : MaintenanceFundEntry where
  fund := fund
  entryType := .outflow
  amountVnd := -s.amountVnd
  evidence := none
  evidenceHash := []
  recorder := none
  proposal := some s.proposal
  sourceKey := outflowKey s.proposal
  recordedAt := s.settledAt

/-- What posting a settlement to the fund does: nothing when the source key is there, else
one entry. -/
inductive Posted (entries : Table MaintenanceFundEntry) (entry : MaintenanceFundEntry) :
    Table MaintenanceFundEntry → Prop where
  | already (key : ℕ) (e : MaintenanceFundEntry) (hget : entries.get? key = some e)
      (hkey : e.sourceKey = entry.sourceKey) : Posted entries entry entries
  | inserted (pk : ℕ) (fresh : 0 < pk ∧ ∀ r ∈ entries.rows, r.1 ≠ pk) :
      Posted entries entry (entries.insertAt pk entry fresh)

theorem createSettlementOutflow_eq_ok (db db' : Db) (s : Settlement)
    (h : createSettlementOutflow db s = .ok db') :
    ∃ proposal fund funds fundEntries fundEntryIds,
      db.proposals.get? s.proposal = some proposal ∧
      FundOpened db.funds funds proposal.building fund ∧
      Posted db.fundEntries (outflowEntry fund s) fundEntries ∧
      db' = { db with funds, fundEntries, fundEntryIds } := by
  simp only [createSettlementOutflow, bind_eq_ok, getRow_eq_ok] at h
  obtain ⟨proposal, hproposal, h⟩ := h
  obtain ⟨fund, funds, heq, hopened⟩ := getOrCreateFund_eq db proposal.building
  rw [heq] at h
  dsimp only at h
  split at h
  · next hany =>
    rw [pure_eq_ok] at h
    obtain ⟨key, e, he, hkey⟩ := (Table.any_eq_true _ _).mp hany
    exact ⟨proposal, fund, funds, db.fundEntries, db.fundEntryIds, hproposal, hopened,
      .already key e he (of_decide_eq_true hkey), h.symm⟩
  · obtain ⟨_, fresh, rfl⟩ := insertFundEntry_eq_ok _ _ _ _ h
    exact ⟨proposal, fund, funds, _, _, hproposal, hopened, .inserted _ fresh, rfl⟩

/-- What publishing a settlement does to the ledger. -/
inductive Ledgered (ledger : Table PublishedLedgerEntry) (case : Option ℕ)
    (proposal settlement : ℕ) : Table PublishedLedgerEntry → Prop where
  | already (key : ℕ) (l : PublishedLedgerEntry) (hget : ledger.get? key = some l)
      (hsettlement : l.settlement = settlement) : Ledgered ledger case proposal settlement ledger
  | inserted (l : PublishedLedgerEntry) (hcase : l.case = case) (hproposal : l.proposal = proposal)
      (hsettlement : l.settlement = settlement) :
      Ledgered ledger case proposal settlement (ledger.insert l)

theorem publishSettlementEntry_eq_ok (C : EvidenceConfig) (db db' : Db) (now settlement : ℕ)
    (row : Settlement) (proposal : Proposal) (hrow : db.settlements.get? settlement = some row)
    (hproposal : db.proposals.get? row.proposal = some proposal)
    (h : publishSettlementEntry C db now settlement = .ok db') :
    ∃ ledger audit, Ledgered db.ledger proposal.case row.proposal settlement ledger ∧
      db' = { db with ledger, audit } := by
  simp only [publishSettlementEntry, bind_eq_ok, getRow_eq_ok] at h
  obtain ⟨row', hrow', h⟩ := h
  cases hrow.symm.trans hrow'
  split at h
  · next hany =>
    rw [pure_eq_ok] at h
    obtain ⟨key, l, hl, hsettlement⟩ := (Table.any_eq_true _ _).mp hany
    exact ⟨db.ledger, db.audit, .already key l hl (of_decide_eq_true hsettlement), h.symm⟩
  · simp only [bind_eq_ok, getRow_eq_ok] at h
    obtain ⟨_, _, _, _, found, hfound, _, _, _, _, _, _, _, _, _, _, _, _, _, _, _, _, haudit⟩ := h
    obtain ⟨audit, rfl⟩ := recordAudit_eq_ok _ _ _ _ _ _ _ _ _ haudit
    cases hproposal.symm.trans hfound
    exact ⟨_, audit, .inserted _ rfl rfl rfl, rfl⟩

/-- A successful settlement. -/
structure Settling (C : EvidenceConfig) (db db' : Db) where
  proposal : ℕ
  row : Proposal
  current : ℕ
  version : ProposalVersion
  transfer : ℕ
  settledBy : ℕ
  now : ℕ
  payload : Json
  link : Text
  eventId : Text
  event : ℕ
  outbox : OutboxTable
  fund : ℕ
  funds : Table MaintenanceFund
  fundEntries : Table MaintenanceFundEntry
  fundEntryIds : ℕ
  ledger : Table PublishedLedgerEntry
  audit : Table AuditEvent
  row_get : db.proposals.get? proposal = some row
  row_completed : row.status = .completed
  unsettled : ∀ pk s, db.settlements.get? pk = some s → s.proposal ≠ proposal
  row_current : row.currentVersion = some current
  version_get : db.versions.get? current = some version
  transfer_is : IsDocument db transfer .paymentProof row.building
  built : buildSettlementEvidencePayload db db.settlements.next
    ⟨proposal, version.amountVnd, transfer, settledBy, now, none⟩ = .ok payload
  linked : anchoredHash db version = .ok link
  queued : queuePlatformEvent C now eventId settlementType (.ofJson payload) link row.building
    db.outbox = .ok (event, outbox)
  event_unused : ∀ pk s, db.settlements.get? pk = some s → s.outboxEvent ≠ some event
  opened : FundOpened db.funds funds row.building fund
  posted : Posted db.fundEntries
    (outflowEntry fund ⟨proposal, version.amountVnd, transfer, settledBy, now, none⟩) fundEntries
  ledgered : Ledgered db.ledger row.case proposal db.settlements.next ledger
  result : db' = { db with
    outbox, funds, fundEntries, fundEntryIds, ledger, audit
    settlements := (db.settlements.insert
      ⟨proposal, version.amountVnd, transfer, settledBy, now, none⟩).update db.settlements.next
        fun s => { s with outboxEvent := some event } }

theorem requireProof_eq_ok (db : Db) (proof : Option ℕ) (building pk : ℕ) (v : DocumentVersion)
    (h : requireProof db proof building = .ok (pk, v)) :
    IsDocument db pk .paymentProof building := by
  simp only [requireProof, bind_eq_ok, orRaise_eq_ok, getRow_eq_ok, require_eq_ok, pure_eq_ok,
    Prod.mk.injEq] at h
  obtain ⟨_, _, v, hv, d, hd, _, ⟨hkind, hbuilding, _⟩, rfl, rfl⟩ := h
  exact ⟨v, d, hv, hd, hkind, hbuilding⟩

theorem recordSettlement_eq_ok (C : EvidenceConfig) (db db' : Db) (now proposal member : ℕ)
    (transfer : Option ℕ) (eventId : Text) (pk : ℕ)
    (h : recordSettlement C db now proposal member transfer eventId = .ok (pk, db')) :
    ∃ s : Settling C db db', s.proposal = proposal := by
  simp only [recordSettlement, bind_eq_ok, getRow_eq_ok, orRaise_eq_ok, require_eq_ok, pure_eq_ok,
    Table.any_eq_false, Prod.mk.injEq] at h
  obtain ⟨row, hrow, ⟨actor, _⟩, _, _, hcompleted, _, hunsettled, current, hcurrent, version,
    hversion, ⟨original, _⟩, hproof, ⟨settlement, settlementRow, db₁⟩, hcreate, payload, hbuilt, link,
    hlink, ⟨event, outbox⟩, hqueue, db₂, hsave, db₃, houtflow, db₄, hpublish, db₅, haudit, _,
    rfl⟩ := h
  simp only [createSettlement, bind_eq_ok, pure_eq_ok, Prod.mk.injEq] at hcreate
  obtain ⟨amount, hamount, _, _, rfl, rfl, rfl⟩ := hcreate
  obtain ⟨rfl, _⟩ := positiveBigInt_eq_ok _ _ _ _ hamount
  simp only [saveSettlementEvent, bind_eq_ok, require_eq_ok, pure_eq_ok,
    Table.any_eq_false] at hsave
  obtain ⟨_, hunused, rfl⟩ := hsave
  obtain ⟨proposalRow, fund, funds, fundEntries, fundEntryIds, hproposalRow, hopened, hposted,
    rfl⟩ := createSettlementOutflow_eq_ok _ _ _ houtflow
  cases hrow.symm.trans hproposalRow
  obtain ⟨ledger, _, hledgered, rfl⟩ := publishSettlementEntry_eq_ok _ _ _ _ _
    ⟨proposal, version.amountVnd, original, actor, now, some event⟩ row (by simp) (by exact hrow)
    hpublish
  obtain ⟨audit, rfl⟩ := recordAudit_eq_ok _ _ _ _ _ _ _ _ _ haudit
  exact ⟨{
    proposal, row, current, version, now, payload, link, eventId, event, outbox, fund, funds,
    fundEntries, fundEntryIds, ledger, audit
    transfer := original
    settledBy := actor
    row_get := hrow
    row_completed := hcompleted
    unsettled := fun pk s hs => by simpa using hunsettled pk s hs
    row_current := hcurrent
    version_get := hversion
    transfer_is := requireProof_eq_ok _ _ _ _ _ hproof
    built := hbuilt
    linked := hlink
    queued := hqueue
    event_unused := fun pk s hs => by
      simpa using hunused pk s (Table.get?_insert_of_some _ _ _ _ hs)
    opened := hopened
    posted := hposted
    ledgered := hledgered
    result := rfl }, rfl⟩

/-! ## Every step -/

/-- The rows other parts of the application create: reports are the only ones of the
maintenance side that services go on to write, and a new one is submitted. -/
structure Setup (db db' : Db) : Prop where
  quiet : Quiet db db'
  cases : db'.cases.rows = db.cases.rows := by rfl
  caseReports : db'.caseReports.rows = db.caseReports.rows := by rfl
  infoRequests : db'.infoRequests.rows = db.infoRequests.rows := by rfl
  decisions : db'.decisions.rows = db.decisions.rows := by rfl
  proposals : db'.proposals.rows = db.proposals.rows := by rfl
  digests : ∀ pk v, db'.documentVersions.get? pk = some v →
    db.documentVersions.get? pk = some v ∨ isHash64 v.sha256 = true := by exact fun _ _ h => .inl h
  reports : db'.reports.rows = db.reports.rows ∨ ∃ reporter building isPrivate, 0 < building ∧
    db'.reports = db.reports.insert (.submitted reporter building isPrivate) := by exact .inl rfl
  members : ∀ pk m, db'.memberships.get? pk = some m →
    (∃ n, db.memberships.get? pk = some n ∧ m.building = n.building) ∨ 0 < m.building := by
      exact fun _ m h => .inl ⟨m, h, rfl⟩

/-- **What a step does**, whichever service is called. -/
inductive ServiceEffect (C : EvidenceConfig) (db db' : Db) : Command → Prop where
  | setup (a : Command) (h : Setup db db') : ServiceEffect C db db' a
  | work (a : Command) (h : WorkStep db a db') : ServiceEffect C db db' a
  | publish (creator : ℕ) (args : Publication) (p : Publishing C db db') :
      ServiceEffect C db db' (.publishProposalVersion p.now p.proposal creator args)
  | settle (now member : ℕ) (transfer : Option ℕ) (eventId : Text) (s : Settling C db db') :
      ServiceEffect C db db' (.recordSettlement now s.proposal member transfer eventId)
  | openFund (building fund : ℕ) (funds : Table MaintenanceFund)
      (h : FundOpened db.funds funds building fund) (result : db' = { db with funds }) :
      ServiceEffect C db db' (.getOrCreateFund building)
  | record (now : ℕ) (entryType : EntryType) (amountVnd : PyValue) (evidence : Option ℕ)
      (recorder : ℕ) (fundEntryId : PyValue) (aware : Bool) (r : Recording db db') :
      ServiceEffect C db db'
        (.recordFundSource now r.fund entryType amountVnd evidence recorder fundEntryId aware)
  | verify (now verifier : ℕ) (v : Verifying db db') :
      ServiceEffect C db db' (.verifyFundSource now v.entry verifier)

theorem returned_eq_some {α : Type} (x : Except ServiceError (α × Db)) (db : Db)
    (h : returned x = some db) : ∃ a, x = .ok (a, db) := by
  cases x with
  | error e => cases h
  | ok r =>
    obtain ⟨a, db₁⟩ := r
    cases h
    exact ⟨a, rfl⟩

theorem returnedDb_eq_some (x : Except ServiceError Db) (db : Db) (h : returnedDb x = some db) :
    x = .ok db := by
  cases x with
  | error e => cases h
  | ok db₁ =>
    cases h
    rfl

theorem guardDb_eq_some (p : Bool) (db db' : Db) (h : guardDb p db = some db') :
    p = true ∧ db' = db := by
  unfold guardDb at h
  split at h
  · next hp =>
    cases h
    exact ⟨hp, rfl⟩
  · cases h

/-- The key of a row that is there is positive. -/
theorem pos_of_isSome {α : Type} (t : Table α) (pk : ℕ) (h : (t.get? pk).isSome = true) : 0 < pk := by
  obtain ⟨a, ha⟩ := Option.isSome_iff_exists.mp h
  exact t.pos_of_get? pk a ha

/-- **Every step has one of these effects.** -/
theorem service_effect (C : EvidenceConfig) (db db' : Db) (a : Command)
    (h : Db.step C db a = some db') : ServiceEffect C db db' a := by
  cases a with
  | createBuilding =>
    cases h
    exact .setup _ { quiet := { buildings := fun pk hpk => isSome_get?_insert _ _ pk hpk } }
  | createMembership user building =>
    obtain ⟨hguard, rfl⟩ := guardDb_eq_some _ _ _ h
    refine .setup _ { quiet := {}, members := fun pk m hm => ?_ }
    rw [Table.get?_insert] at hm
    split at hm
    · cases hm
      exact .inr (pos_of_isSome _ _ (Bool.and_eq_true _ _ ▸ hguard).1)
    · exact .inl ⟨m, hm, rfl⟩
  | setMembershipActive membership active =>
    cases h
    refine .setup _ { quiet := {}, members := fun pk m hm => .inl ?_ }
    rw [Table.get?_update] at hm
    split at hm
    · next hpk =>
      obtain ⟨n, hn, rfl⟩ := Option.map_eq_some_iff.mp hm
      exact ⟨n, hpk ▸ hn, rfl⟩
    · exact ⟨m, hm, rfl⟩
  | createOccupancy user building =>
    obtain ⟨_, rfl⟩ := guardDb_eq_some _ _ _ h
    exact .setup _ { quiet := {} }
  | setOccupancyActive occupancy active =>
    cases h
    exact .setup _ { quiet := {} }
  | createLocation row =>
    cases h
    exact .setup _ { quiet := {} }
  | createDocument row =>
    obtain ⟨_, rfl⟩ := guardDb_eq_some _ _ _ h
    exact .setup _ { quiet := { documents := fun pk d hd => Table.get?_insert_of_some _ _ _ pk hd } }
  | createDocumentVersion row =>
    obtain ⟨hguard, rfl⟩ := guardDb_eq_some _ _ _ h
    refine .setup _ {
      quiet := { documentVersions := fun pk v hv => Table.get?_insert_of_some _ _ _ pk hv }
      digests := fun pk v hv => ?_ }
    rw [Table.get?_insert] at hv
    split at hv
    · cases hv
      exact .inr (Bool.and_eq_true _ _ ▸ hguard).2
    · exact .inl hv
  | submitReport reporter building isPrivate =>
    obtain ⟨hguard, rfl⟩ := guardDb_eq_some _ _ _ h
    have hbuilding := pos_of_isSome db.buildings building hguard
    exact .setup _ { quiet := {}, reports := .inr ⟨reporter, building, isPrivate, hbuilding, rfl⟩ }
  | suggest row =>
    cases h
    exact .setup _ { quiet := {} }
  | predict row =>
    cases h
    exact .setup _ { quiet := {} }
  | loseKeys lost =>
    cases h
    exact .setup _ { quiet := {} }
  | deliver event delivery =>
    cases h
    exact .setup _ { quiet := {
      identities := fun pk => Table.get?_update_map db.outbox event
        (OutboxEvent.deliver fun _ => delivery) OutboxEvent.toIdentity (fun _ => rfl) pk } }
  | reviewSubmitted report =>
    cases h
    exact .work _ (.reviewed db report)
  | confirmTriage now report operator category urgency location queue minutes =>
    obtain ⟨pk, h⟩ := returned_eq_some _ _ h
    exact .work _ (confirmTriage_step _ _ _ _ _ _ _ _ _ _ _ pk h)
  | groupReport case report operator =>
    obtain ⟨pk, h⟩ := returned_eq_some _ _ h
    exact .work _ (groupReport_step _ _ _ _ _ pk h)
  | startCaseWork now case manager =>
    exact .work _ (startCaseWork_step _ _ _ _ _ (returnedDb_eq_some _ _ h))
  | publishProgress case manager cause result proposal =>
    exact .work _ (publishProgress_step _ _ _ _ _ _ _ _ (returnedDb_eq_some _ _ h))
  | completeProposalWork now proposal manager cause result =>
    exact .work _ (completeProposalWork_step _ _ _ _ _ _ _ _ (returnedDb_eq_some _ _ h))
  | completeCaseWork now case manager cause result =>
    exact .work _ (completeCaseWork_step _ _ _ _ _ _ _ _ (returnedDb_eq_some _ _ h))
  | closeExpiredCompletedCases now =>
    cases h
    exact .work _ (.expired db now)
  | declineReport now report manager reason =>
    exact .work _ (declineReport_step _ _ _ _ _ _ _ (returnedDb_eq_some _ _ h))
  | requestInformation report manager message =>
    obtain ⟨pk, h⟩ := returned_eq_some _ _ h
    exact .work _ (requestInformation_step _ _ _ _ _ _ pk h)
  | replyInformation now resident report text =>
    obtain ⟨pk, h⟩ := returned_eq_some _ _ h
    exact .work _ (replyInformation_step _ _ _ _ _ _ _ pk h)
  | rateCompletedCase now resident case satisfied comment =>
    obtain ⟨pk, h⟩ := returned_eq_some _ _ h
    exact .work _ (rateCompletedCase_step _ _ _ _ _ _ _ _ pk h)
  | rateCompletedProposal now resident proposal satisfied comment =>
    obtain ⟨pk, h⟩ := returned_eq_some _ _ h
    exact .work _ (rateCompletedProposal_step _ _ _ _ _ _ _ _ pk h)
  | createProposal now case creator =>
    obtain ⟨pk, h⟩ := returned_eq_some _ _ h
    exact .work _ (createProposal_step _ _ _ _ _ pk h)
  | createStandaloneProposal now building creator =>
    obtain ⟨pk, h⟩ := returned_eq_some _ _ h
    exact .work _ (createStandaloneProposal_step _ _ _ _ _ pk h)
  | decideProposal now proposal manager proceed note =>
    exact .work _ (decideProposal_step _ _ _ _ _ _ _ _ (returnedDb_eq_some _ _ h))
  | decideAndStart now proposal manager proceed note =>
    exact .work _ (decideAndStart_step _ _ _ _ _ _ _ _ (returnedDb_eq_some _ _ h))
  | publishProposalVersion now proposal creator args =>
    obtain ⟨pk, h⟩ := returned_eq_some _ _ h
    obtain ⟨p, rfl, rfl⟩ := publishProposalVersion_eq_ok _ _ _ _ _ _ _ pk h
    exact .publish creator args p
  | getOrCreateFund building =>
    obtain ⟨_, rfl⟩ := guardDb_eq_some _ _ _ h
    obtain ⟨fund, funds, heq, hopened⟩ := getOrCreateFund_eq db building
    exact .openFund building fund funds hopened (by rw [heq])
  | recordFundSource now fund entryType amountVnd evidence recorder fundEntryId aware =>
    obtain ⟨pk, h⟩ := returned_eq_some _ _ h
    obtain ⟨r, rfl⟩ := recordFundSource_eq_ok _ _ _ _ _ _ _ _ _ _ pk h
    exact .record now entryType amountVnd evidence recorder fundEntryId aware r
  | verifyFundSource now entry verifier =>
    obtain ⟨pk, h⟩ := returned_eq_some _ _ h
    obtain ⟨v, rfl⟩ := verifyFundSource_eq_ok _ _ _ _ _ pk h
    exact .verify now verifier v
  | recordSettlement now proposal member transfer eventId =>
    obtain ⟨pk, h⟩ := returned_eq_some _ _ h
    obtain ⟨s, rfl⟩ := recordSettlement_eq_ok _ _ _ _ _ _ _ _ pk h
    exact .settle now member transfer eventId s
  | verifyPublishedEntry now entry storage chain =>
    obtain ⟨pk, h⟩ := returned_eq_some _ _ h
    exact .work _ (verifyPublishedEntry_step _ _ _ _ _ _ _ pk h)

/-! ## The books -/

/-- **What a step does to the books.** -/
inductive BookEffect (C : EvidenceConfig) (db db' : Db) : Command → Prop where
  | quiet (a : Command) (h : Quiet db db') : BookEffect C db db' a
  | publish (creator : ℕ) (args : Publication) (p : Publishing C db db') :
      BookEffect C db db' (.publishProposalVersion p.now p.proposal creator args)
  | settle (now member : ℕ) (transfer : Option ℕ) (eventId : Text) (s : Settling C db db') :
      BookEffect C db db' (.recordSettlement now s.proposal member transfer eventId)
  | openFund (building fund : ℕ) (funds : Table MaintenanceFund)
      (h : FundOpened db.funds funds building fund) (result : db' = { db with funds }) :
      BookEffect C db db' (.getOrCreateFund building)
  | record (now : ℕ) (entryType : EntryType) (amountVnd : PyValue) (evidence : Option ℕ)
      (recorder : ℕ) (fundEntryId : PyValue) (aware : Bool) (r : Recording db db') :
      BookEffect C db db'
        (.recordFundSource now r.fund entryType amountVnd evidence recorder fundEntryId aware)
  | verify (now verifier : ℕ) (v : Verifying db db') :
      BookEffect C db db' (.verifyFundSource now v.entry verifier)

/-- Setup and maintenance are quiet; what is left keeps books. -/
theorem book_effect (C : EvidenceConfig) (db db' : Db) (a : Command)
    (h : Db.step C db a = some db') : BookEffect C db db' a := by
  cases service_effect C db db' a h with
  | setup _ h => exact .quiet _ h.quiet
  | work _ h => exact .quiet _ (h.quiet db db' a)
  | publish creator args p => exact .publish creator args p
  | settle now member transfer eventId s => exact .settle now member transfer eventId s
  | openFund building fund funds hopened result => exact .openFund building fund funds hopened result
  | record now entryType amountVnd evidence recorder fundEntryId aware r =>
    exact .record now entryType amountVnd evidence recorder fundEntryId aware r
  | verify now verifier v => exact .verify now verifier v

end LamTo.Analysis
