import LamTo.Analysis.PublishedEvidence

/-!
# Published entries can be checked

What a check of a published entry reads is there in every reachable state: the proposal with
its current version, the settlement with its event, the quotations named in the stored
snapshot and the proof of payment. So `verify_published_entry` never fails before it has
compared anything (`entryDocuments_of_published`, `related_of_published`).

The stored snapshot is a `jsonb` value, with the meaning of the snapshot that was published
but perhaps not its text; what is read from it depends on its meaning only.

SOURCE: src/lamto/finance/publication.py:11-75, src/lamto/finance/integrity.py:114-120, 217-238
-/

set_option autoImplicit false

namespace LamTo.Analysis

open LamTo.Library LamTo.Model

variable {C : EvidenceConfig} {db db' : Db}

/-! ## Reading a stored snapshot -/

/-- The quotations of the stored snapshot name documents that exist. -/
def QuotationsReadable (db : Db) (snapshot : Json) : Prop :=
  ∃ items checks, snapshotQuotations snapshot = .ok items ∧
    items.mapM (quotationCheck db) = .ok checks

theorem QuotationsReadable.mono (snapshot : Json) (h : QuotationsReadable db snapshot)
    (hdocuments : ∀ pk v, db.documentVersions.get? pk = some v →
      db'.documentVersions.get? pk = some v) : QuotationsReadable db' snapshot := by
  obtain ⟨items, checks, hitems, hchecks⟩ := h
  have hread : ∀ item ∈ items, ∃ c, quotationCheck db' item = .ok c := by
    intro item hitem
    obtain ⟨c, _, hc⟩ := (mapM_eq_ok _ _ _ hchecks).2 item hitem
    simp only [quotationCheck, bind_eq_ok, getRow_eq_ok, orRaise_eq_ok, pure_eq_ok] at hc ⊢
    obtain ⟨id, hid, pk, hpk, row, hrow, rest⟩ := hc
    exact ⟨c, id, hid, pk, hpk, row, hdocuments pk row hrow, rest⟩
  obtain ⟨checks', hchecks'⟩ := exists_mapM_ok _ items hread
  exact ⟨items, checks', hitems, hchecks'⟩

/-- An item of the snapshot's quotations. -/
def quotationItem (q : ℕ × DocumentVersion) : Json :=
  .obj [("version_id".toList, .int q.1), ("sha256".toList, .str q.2.sha256)]

/-- A value with the meaning of an item names its document. -/
theorem quotationCheck_of_denote (q : ℕ × DocumentVersion) (item : Json)
    (hplain : Json.Plain item) (hdenote : Json.denote item = Json.denote (quotationItem q))
    (hget : db.documentVersions.get? q.1 = some q.2) : ∃ c, quotationCheck db item = .ok c := by
  have hkeys : ([("version_id".toList, Json.int q.1), ("sha256".toList, .str q.2.sha256)].map
      Prod.fst).Nodup := by
    simp only [List.map]
    decide
  obtain ⟨id, hid, _, hidval⟩ := exists_lookup_of_denote _ item "version_id" (.int q.1) hkeys hplain
    hdenote (by simp)
  obtain ⟨hash, hhash, _⟩ := exists_lookup_of_denote _ item "sha256" (.str q.2.sha256) hkeys hplain
    hdenote (by simp)
  obtain rfl := int_of_denote id q.1 hidval
  refine ⟨⟨q.1, q.2, hash, "QUOTATION"⟩, ?_⟩
  simp only [quotationCheck, hid, hhash, orRaise, ok_bind, readKey, Int.toNat_natCast, getRow, hget]
  rfl

theorem plain_quotationItem (q : ℕ × DocumentVersion) : Json.Plain (quotationItem q) := by
  refine ⟨by simp only [List.map]; decide, ?_⟩
  simp [Json.PlainMembers, Json.Plain]

/-- A list with the meaning of the items names their documents. -/
theorem quotationChecks_of_denote (quotations : List (ℕ × DocumentVersion)) (items : List Json)
    (hplain : ∀ item ∈ items, Json.Plain item)
    (hdenote : items.map Json.denote = quotations.map fun q => Json.denote (quotationItem q))
    (hget : ∀ q ∈ quotations, db.documentVersions.get? q.1 = some q.2) :
    ∀ item ∈ items, ∃ c, quotationCheck db item = .ok c := by
  intro item hitem
  have hmem : Json.denote item ∈ items.map Json.denote := List.mem_map_of_mem hitem
  rw [hdenote] at hmem
  obtain ⟨q, hq, hqitem⟩ := List.mem_map.mp hmem
  exact quotationCheck_of_denote q item (hplain item hitem) hqitem.symm (hget q hq)

/-- A snapshot has distinct keys and no float. -/
theorem plain_snapshot (proposal : ℕ) (row : Proposal) (terms : Terms)
    (versions : List (ℕ × DocumentVersion)) (number : ℕ) :
    Json.Plain (snapshot proposal row terms versions number) := by
  have hdate : ∀ d : Option Date, Json.Plain (dateJson d) := by
    intro d
    cases d with
    | none => trivial
    | some d => trivial
  have hkey : ∀ pk : Option ℕ, Json.Plain (keyJson pk) := by
    intro pk
    cases pk with
    | none => trivial
    | some n => trivial
  have hitems : Json.PlainElements (versions.map quotationItem) := by
    rw [Json.plainElements_iff]
    intro item hitem
    obtain ⟨q, _, rfl⟩ := List.mem_map.mp hitem
    exact plain_quotationItem q
  refine ⟨by simp only [List.map]; decide, ?_⟩
  exact ⟨trivial, trivial, hkey _, trivial, trivial, trivial, trivial, trivial, hdate _, hdate _,
    trivial, hitems, trivial⟩

/-- The stored snapshot of a publication can be read. -/
theorem quotationsReadable_of_column (proposal : ℕ) (row : Proposal) (terms : Terms)
    (quotations : List (ℕ × DocumentVersion)) (number : ℕ) (stored : Json)
    (hstored : C.jsonb.column (snapshot proposal row terms quotations number) = some stored)
    (hget : ∀ q ∈ quotations, db.documentVersions.get? q.1 = some q.2) :
    QuotationsReadable db stored := by
  have hsnap := plain_snapshot proposal row terms quotations number
  have hplain := C.jsonb.column_plain _ _ hsnap hstored
  have hdenote := C.jsonb.column_denote _ _ hsnap hstored
  obtain ⟨w, hlookup, hw, hwval⟩ := exists_lookup_of_denote _ stored "quotation_versions"
    (.arr (quotations.map quotationItem)) hsnap.1 hplain hdenote (by simp [quotationItem])
  obtain ⟨items, rfl⟩ : ∃ items, w = .arr items := by
    cases w <;> simp [Json.denote] at hwval
    exact ⟨_, rfl⟩
  simp only [Json.denote, Json.Tree.arr.injEq, Json.denoteElements_eq_map, List.map_map] at hwval
  have hread := quotationChecks_of_denote quotations items ((Json.plainElements_iff items).mp hw)
    hwval hget
  obtain ⟨checks, hchecks⟩ := exists_mapM_ok _ items hread
  refine ⟨items, checks, ?_, hchecks⟩
  cases stored with
  | obj ms => rw [snapshotQuotations, hlookup]
  | _ => cases hlookup

/-! ## The invariant -/

/-- What a stored version is known to hold. -/
structure RecordedVersion (db : Db) (v : ProposalVersion) : Prop where
  number : 0 < v.number
  amount : 0 < v.amountVnd ∧ v.amountVnd < 2 ^ 63
  contractor : nul ∉ v.contractorName
  quotations : QuotationsReadable db v.snapshot

/-- The settlement and the proposal of a published entry. -/
def EntryOf (db : Db) (l : PublishedLedgerEntry) : Prop :=
  ∃ s p, db.settlements.get? l.settlement = some s ∧ s.proposal = l.proposal ∧
    db.proposals.get? l.proposal = some p ∧ l.case = p.case

structure EntriesInv (C : EvidenceConfig) (db : Db) : Prop where
  evidence : EvidenceInv C db
  digest : ∀ pk v, db.documentVersions.get? pk = some v → isHash64 v.sha256 = true
  version : ∀ pk v, db.versions.get? pk = some v → RecordedVersion db v
  entry : ∀ pk l, db.ledger.get? pk = some l → EntryOf db l

theorem entriesInv_empty (C : EvidenceConfig) : EntriesInv C Db.empty where
  evidence := evidenceInv_empty C
  digest _ _ h := by cases h
  version _ _ h := by cases h
  entry _ _ h := by cases h

theorem EntryOf.mono (l : PublishedLedgerEntry) (h : EntryOf db l) (hext : Extends db db') :
    EntryOf db' l := by
  obtain ⟨s, p, hs, hproposal, hp, hcase⟩ := h
  obtain ⟨p', hp', hlater⟩ := hext.proposals _ p hp
  exact ⟨s, p', hext.settlements _ s hs, hproposal, hp', hcase.trans hlater.case_eq.symm⟩

theorem RecordedVersion.mono (v : ProposalVersion) (h : RecordedVersion db v)
    (hext : Extends db db') : RecordedVersion db' v :=
  ⟨h.number, h.amount, h.contractor, h.quotations.mono _ hext.documentVersions⟩

/-- A new document version holds a digest. -/
theorem documents_digested (C : EvidenceConfig) (db db' : Db) (a : Command)
    (h : Db.step C db a = some db') (pk : ℕ) (v : DocumentVersion)
    (hv : db'.documentVersions.get? pk = some v) :
    db.documentVersions.get? pk = some v ∨ isHash64 v.sha256 = true := by
  cases service_effect C db db' a h with
  | setup _ hsetup => exact hsetup.digests pk v hv
  | work _ hwork =>
    rw [hwork.sameRegisters.documentVersions] at hv
    exact .inl hv
  | publish creator args p =>
    rw [p.result] at hv
    exact .inl hv
  | settle now member transfer eventId s =>
    rw [s.result] at hv
    exact .inl hv
  | openFund building fund funds _ result =>
    rw [result] at hv
    exact .inl hv
  | record now entryType amountVnd evidence recorder fundEntryId aware r =>
    rw [r.result] at hv
    exact .inl hv
  | verify now verifier v' =>
    rw [v'.result] at hv
    exact .inl hv

/-- What a step does to versions: only a publication adds one, which can be read. -/
theorem versions_recorded (C : EvidenceConfig) (db db' : Db) (a : Command)
    (h : Db.step C db a = some db') (pk : ℕ) (v : ProposalVersion)
    (hv : db'.versions.get? pk = some v) :
    db.versions.get? pk = some v ∨ RecordedVersion db v := by
  cases book_effect C db db' a h with
  | quiet _ hquiet =>
    rw [Table.get?_congr _ _ hquiet.versions] at hv
    exact .inl hv
  | publish creator args p =>
    rw [p.versions_get] at hv
    split at hv
    · cases hv
      refine .inr ⟨?_, p.version_amount, p.version_contractor, ?_⟩
      · rw [p.version_number]
        exact Nat.succ_pos _
      · have hsnap := p.submitted
        simp only [submissionSnapshot, bind_eq_ok, pure_eq_ok, Prod.mk.injEq] at hsnap
        obtain ⟨_, _, _, _, _, _, hsnap, _⟩ := hsnap
        have hstored := p.version_snapshot
        rw [← hsnap] at hstored
        exact quotationsReadable_of_column _ _ _ _ _ _ hstored p.quotations_get
    · exact .inl hv
  | settle now member transfer eventId s =>
    rw [s.versions_eq] at hv
    exact .inl hv
  | openFund building fund funds _ result =>
    rw [result] at hv
    exact .inl hv
  | record now entryType amountVnd evidence recorder fundEntryId aware r =>
    rw [r.result] at hv
    exact .inl hv
  | verify now verifier v' =>
    rw [v'.result] at hv
    exact .inl hv

/-- What a step does to the ledger: only a settlement adds an entry, its own. -/
theorem ledger_entered (C : EvidenceConfig) (db db' : Db) (a : Command)
    (h : Db.step C db a = some db') (pk : ℕ) (l : PublishedLedgerEntry)
    (hl : db'.ledger.get? pk = some l) : db.ledger.get? pk = some l ∨ EntryOf db' l := by
  cases book_effect C db db' a h with
  | quiet _ hquiet =>
    rw [Table.get?_congr _ _ hquiet.ledger] at hl
    exact .inl hl
  | publish creator args p =>
    rw [p.result] at hl
    exact .inl hl
  | settle now member transfer eventId s =>
    have hledger : db'.ledger = s.ledger := congrArg (fun d : Db => d.ledger) s.result
    rw [hledger] at hl
    have hledgered := s.ledgered
    generalize s.ledger = ledger at hledgered hl
    cases hledgered with
    | already => exact .inl hl
    | inserted m hcase hproposal hsettlement =>
      rw [Table.get?_insert] at hl
      split at hl
      · cases hl
        refine .inr ⟨s.stored, s.row, ?_, hproposal.symm, ?_, hcase⟩
        · rw [hsettlement, s.settlements_get, if_pos rfl]
        · rw [hproposal, s.proposals_eq, s.row_get]
      · exact .inl hl
  | openFund building fund funds _ result =>
    rw [result] at hl
    exact .inl hl
  | record now entryType amountVnd evidence recorder fundEntryId aware r =>
    rw [r.result] at hl
    exact .inl hl
  | verify now verifier v' =>
    rw [v'.result] at hl
    exact .inl hl

theorem EntriesInv.step (hinv : EntriesInv C db) (a : Command) (h : Db.step C db a = some db') :
    EntriesInv C db' := by
  have hbook := bookStep_of_step C db db' a h
  have hext := hbook.extends hinv.evidence.chain.ownership
  refine ⟨hinv.evidence.step hbook, fun pk v hv => ?_, fun pk v hv => ?_, fun pk l hl => ?_⟩
  · rcases documents_digested C db db' a h pk v hv with hold | hdigest
    · exact hinv.digest pk v hold
    · exact hdigest
  · rcases versions_recorded C db db' a h pk v hv with hold | hnew
    · exact (hinv.version pk v hold).mono v hext
    · exact hnew.mono v hext
  · rcases ledger_entered C db db' a h pk l hl with hold | hnew
    · exact (hinv.entry pk l hold).mono l hext
    · exact hnew

/-- **In every reachable state published entries have what a check reads.** -/
theorem EntriesInv.reachable (h : db.Reachable C) : EntriesInv C db := by
  refine h.preserves (EntriesInv C) ?_ (entriesInv_empty C)
  exact fun u a v hinv _ hstep => hinv.step a hstep

/-! ## What a check reads -/

/-- The settlement of a proposal is found, with its event. -/
theorem loadExecutionChain_of_settled (hchain : ChainInv db) (pk : ℕ) (s : Settlement)
    (hs : db.settlements.get? pk = some s) : loadExecutionChain db s.proposal = .ok (pk, s) := by
  have hfirst : (db.settlements.first? fun t => t.proposal = s.proposal) = some (pk, s) := by
    refine Table.first?_eq_of_unique _ _ pk s hs (decide_eq_true rfl) fun q t ht hproposal => ?_
    exact hchain.once q t pk s ht hs (of_decide_eq_true hproposal)
  obtain ⟨event, _, hevent, _⟩ := hchain.ownership.settlement_event pk s hs
  have hset : s.outboxEvent ≠ none := by
    rw [hevent]
    exact fun h => by cases h
  simp only [loadExecutionChain, hfirst, orRaise, ok_bind, require_true _ _ hset]
  rfl

/-- The documents of a version and a settlement are found. -/
theorem EntriesInv.documents_found (hinv : EntriesInv C db) (current : ℕ) (v : ProposalVersion)
    (s : Settlement) (transfer : DocumentVersion) (hv : db.versions.get? current = some v)
    (htransfer : db.documentVersions.get? s.transfer = some transfer) :
    ∃ checks, collectDocumentChecks db v s = .ok checks := by
  obtain ⟨items, quotations, hitems, hquotations⟩ := (hinv.version current v hv).quotations
  refine ⟨quotations ++ [⟨s.transfer, transfer, .str transfer.sha256, "SETTLEMENT_TRANSFER"⟩], ?_⟩
  simp only [collectDocumentChecks, hitems, hquotations, ok_bind,
    (getRow_eq_ok _ _ _ _).mpr htransfer]
  rfl

/-- **The documents of a published entry are found.** -/
theorem EntriesInv.entryDocuments_of_published (hinv : EntriesInv C db) (entry : ℕ)
    (row : PublishedLedgerEntry) (hrow : db.ledger.get? entry = some row) :
    ∃ checks, entryDocuments db entry = .ok (row, checks) := by
  obtain ⟨s, p, hs, hproposal, hp, _⟩ := hinv.entry entry row hrow
  obtain ⟨q, current, v, _, _, hq, _, hcurrent, hv, _⟩ :=
    hinv.evidence.chain.settled row.settlement s hs
  rw [hproposal] at hq
  cases hp.symm.trans hq
  obtain ⟨_, _, payload, _, _, hbuilt, _⟩ := hinv.evidence.settlement row.settlement s hs
  simp only [buildSettlementEvidencePayload, bind_eq_ok, getRow_eq_ok] at hbuilt
  obtain ⟨_, _, _, _, _, _, transfer, htransfer, _⟩ := hbuilt
  have hchain := loadExecutionChain_of_settled hinv.evidence.chain row.settlement s hs
  rw [hproposal] at hchain
  obtain ⟨checks, hchecks⟩ := hinv.documents_found current v s transfer hv htransfer
  refine ⟨checks, ?_⟩
  simp only [entryDocuments, hrow, orRaise, ok_bind, (getRow_eq_ok _ _ _ _).mpr hp, hchain, hcurrent,
    (getRow_eq_ok _ _ _ _).mpr hv, hchecks]
  rfl

/-- **The events of a published entry are found.** -/
theorem EntriesInv.related_of_published (hinv : EntriesInv C db) (entry : ℕ)
    (row : PublishedLedgerEntry) (hrow : db.ledger.get? entry = some row) :
    ∃ events, relatedOutboxEvents db row.proposal = .ok events := by
  obtain ⟨s, p, hs, hproposal, _⟩ := hinv.entry entry row hrow
  have hchain := loadExecutionChain_of_settled hinv.evidence.chain row.settlement s hs
  rw [hproposal] at hchain
  have hown := hinv.evidence.chain.ownership
  have hread : ∀ key ∈ ((db.versions.select fun v => v.proposal = row.proposal).insertionSort
      fun a b => a.2.number ≤ b.2.number).map (fun v => v.2.outboxEvent) ++ s.outboxEvent.toList,
      ∃ e, (getRow "BlockchainOutboxEvent" db.outbox key).map (key, ·) = .ok e := by
    intro key hkey
    have hevent : ∃ i, eventOf db key = some i := by
      rcases List.mem_append.mp hkey with hversion | hsettlement
      · obtain ⟨⟨pk, v⟩, hv, rfl⟩ := List.mem_map.mp hversion
        have hmem := (List.mem_insertionSort _).mp hv
        obtain ⟨hget, _⟩ := (Table.mem_select _ _ pk v).mp hmem
        obtain ⟨i, hi, _⟩ := hown.version_event pk v hget
        exact ⟨i, hi⟩
      · obtain ⟨event, i, hevent, hi, _⟩ := hown.settlement_event row.settlement s hs
        rw [hevent, Option.toList_some, List.mem_singleton] at hsettlement
        rw [hsettlement]
        exact ⟨i, hi⟩
    obtain ⟨i, hi⟩ := hevent
    obtain ⟨e, he, _⟩ := Option.map_eq_some_iff.mp hi
    exact ⟨(key, e), (map_eq_ok _ _ _).mpr ⟨e, (getRow_eq_ok _ _ _ _).mpr he, rfl⟩⟩
  obtain ⟨events, hevents⟩ := exists_mapM_ok _ _ hread
  refine ⟨events, ?_⟩
  simp only [relatedOutboxEvents, hchain, ok_bind]
  exact hevents

end LamTo.Analysis
