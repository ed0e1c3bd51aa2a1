import LamTo.Analysis.ArchiveSteps
import LamTo.Analysis.Books
import LamTo.Analysis.ReportSteps

/-!
# What a linked document is

No reader of documents compares the building of a document with that of the row it is linked to.
That they agree is an invariant (`LinksInv`): the services check it when they write the link, no
later step changes the building of a proposal, a report, a bill or a document, and the cleanup
deletes nothing that is linked.

* **Link time**: a publication, a settlement, a report, an upload and a bill.
* **Kept** (`LinksInv.grow`): tables grow, or a row is moved that keeps its building.
* **Pruned** (`LinksInv.pruned`, `LinksInv.drafts`): what goes is not referenced.
-/

set_option autoImplicit false

namespace LamTo.Analysis

open LamTo.Library LamTo.Model

variable {K : ArchiveConfig} {s s' : Archive} {a : ArchiveAction}

/-- **The links of documents**, with the books they are read through. -/
structure LinksInv (s : Archive) : Prop where
  quotation : ∀ pk d, s.db.proposalDocuments.get? pk = some d →
    ∃ v p, s.db.versions.get? d.proposalVersion = some v ∧ s.db.proposals.get? v.proposal = some p ∧
      IsDocument s.db d.documentVersion .quotation p.building
  transfer : ∀ pk t, s.db.settlements.get? pk = some t →
    ∃ p, s.db.proposals.get? t.proposal = some p ∧
      IsDocument s.db t.transfer .paymentProof p.building
  ledger : ∀ pk l, s.db.ledger.get? pk = some l →
    ∃ t, s.db.settlements.get? l.settlement = some t ∧ t.proposal = l.proposal
  published : ∀ pk t, s.db.settlements.get? pk = some t →
    ∃ key l, s.db.ledger.get? key = some l ∧ l.settlement = pk
  photo : ∀ pk p, s.photos.get? pk = some p → ∃ r, s.db.reports.get? p.report = some r ∧
    IsDocument s.db p.version .reportPhoto r.building
  bill : ∀ pk b, s.bills.get? pk = some b → IsDocument s.db b.document .residentBill b.building

theorem linksInv_empty : LinksInv Archive.empty where
  quotation _ _ h := by cases h
  transfer _ _ h := by cases h
  ledger _ _ h := by cases h
  published _ _ h := by cases h
  photo _ _ h := by cases h
  bill _ _ h := by cases h

/-- A document stays one while the rows stay. -/
theorem IsDocument.mono (db db' : Db) (version building : ℕ) (kind : DocumentKind)
    (h : IsDocument db version kind building)
    (hversions : ∀ pk v, db.documentVersions.get? pk = some v →
      db'.documentVersions.get? pk = some v)
    (hdocuments : ∀ pk d, db.documents.get? pk = some d → db'.documents.get? pk = some d) :
    IsDocument db' version kind building := by
  obtain ⟨v, d, hv, hd, hkind⟩ := h
  exact ⟨v, d, hversions _ v hv, hdocuments _ d hd, hkind⟩

/-! ## Steps that keep the books -/

/-- What a step leaves to the links when the finance tables stay. -/
structure Grown (s s' : Archive) : Prop where
  finance : s'.db.toFinanceTables = s.db.toFinanceTables := by rfl
  versions : ∀ pk v, s.db.documentVersions.get? pk = some v →
    s'.db.documentVersions.get? pk = some v := by exact fun _ _ h => h
  documents : ∀ pk d, s.db.documents.get? pk = some d →
    s'.db.documents.get? pk = some d := by exact fun _ _ h => h
  reports : ∀ pk r, s.db.reports.get? pk = some r →
    s'.db.reports.get? pk = some r := by exact fun _ _ h => h
  photos : ∀ pk p, s'.photos.get? pk = some p → s.photos.get? pk = some p ∨
    ∃ r, s'.db.reports.get? p.report = some r ∧
      IsDocument s'.db p.version .reportPhoto r.building := by exact fun _ _ h => .inl h
  bills : ∀ pk b, s'.bills.get? pk = some b →
    (∃ b₀, s.bills.get? pk = some b₀ ∧ b.building = b₀.building ∧ b.document = b₀.document) ∨
      IsDocument s'.db b.document .residentBill b.building := by
        exact fun _ b h => .inl ⟨b, h, rfl, rfl⟩

theorem LinksInv.grow (hinv : LinksInv s) (h : Grown s s') : LinksInv s' := by
  have hmono : ∀ version kind building, IsDocument s.db version kind building →
      IsDocument s'.db version kind building :=
    fun version kind building hdoc => hdoc.mono s.db s'.db _ _ _ h.versions h.documents
  constructor
  · intro pk d hd
    rw [h.finance] at hd ⊢
    obtain ⟨v, p, hv, hp, hdoc⟩ := hinv.quotation pk d hd
    exact ⟨v, p, hv, hp, hmono _ _ _ hdoc⟩
  · intro pk t ht
    rw [h.finance] at ht ⊢
    obtain ⟨p, hp, hdoc⟩ := hinv.transfer pk t ht
    exact ⟨p, hp, hmono _ _ _ hdoc⟩
  · rw [h.finance]
    exact hinv.ledger
  · rw [h.finance]
    exact hinv.published
  · intro pk p hp
    rcases h.photos pk p hp with hold | hnew
    · obtain ⟨r, hr, hdoc⟩ := hinv.photo pk p hold
      exact ⟨r, h.reports _ r hr, hmono _ _ _ hdoc⟩
    · exact hnew
  · intro pk b hb
    rcases h.bills pk b hb with ⟨b₀, hold, hbuilding, hdocument⟩ | hnew
    · rw [hbuilding, hdocument]
      exact hmono _ _ _ (hinv.bill pk b₀ hold)
    · exact hnew

/-- The version of a document that is there. -/
theorem isDocument_withVersion (document : ℕ) (d : Document) (f : UploadedFile) (file : StoredFile)
    (event : AuditEvent) (hd : s.db.documents.get? document = some d) :
    IsDocument (withVersion K s document f file event).db s.db.documentVersions.next d.kind
      d.building :=
  ⟨_, d, Table.get?_insert_self _ _, hd, rfl, rfl⟩

theorem grown_withVersion (document : ℕ) (f : UploadedFile) (file : StoredFile)
    (event : AuditEvent) : Grown s (withVersion K s document f file event) :=
  { versions := fun pk _ hv => Table.get?_insert_of_some _ _ _ pk hv }

theorem grown_withDocument (d : Document) : Grown s (withDocument s d) :=
  { documents := fun pk _ hd => Table.get?_insert_of_some _ _ _ pk hd }

theorem VersionEffect.links (document : ℕ) (f : UploadedFile) (uploader : ℕ) (w : Surroundings)
    (allow : Bool) (t : Archive) (r : Except UploadError ℕ)
    (h : VersionEffect K s document f uploader w allow t r)
    (hinv : LinksInv s) : LinksInv t := by
  cases h with
  | unchanged => exact hinv
  | stored d file event hdocument hkey => exact hinv.grow (grown_withVersion document f file event)
  | _ => exact hinv.grow {}

theorem UploadEffect.links (caller : UploadCaller) (f : UploadedFile) (uploader : ℕ)
    (w : Surroundings) (t : Archive) (r : Except UploadError ℕ)
    (h : UploadEffect K s caller uploader f w t r) (hinv : LinksInv s) : LinksInv t := by
  cases h with
  | unchanged => exact hinv
  | direct document allow t r hcaller h => exact h.links document f uploader w allow t r hinv
  | rolledBack d t e hcaller htarget h => exact hinv.grow {}
  | stored d file event hkey =>
    exact (hinv.grow (grown_withDocument d)).grow (grown_withVersion _ f file event)
  | attached d file event report hphoto hkey =>
    have hgrown := (hinv.grow (grown_withDocument d)).grow
      (grown_withVersion (K := K) s.db.documents.next f file event)
    refine hgrown.grow { photos := fun pk p hp => ?_ }
    rw [Table.get?_insert] at hp
    split at hp
    · cases hp
      obtain ⟨r, hr, hbuilding⟩ := hphoto.report_get
      have hdoc := isDocument_withVersion (K := K) (s := withDocument s d) s.db.documents.next d f file
        event (Table.get?_insert_self _ _)
      rw [hphoto.kind_eq, ← hbuilding] at hdoc
      exact .inr ⟨r, hr, hdoc⟩
    · exact .inl hp

/-! ## Services -/

theorem ReportChange.owner_eq (db : Db) (command : Command) (pk : ℕ) (r r' : IssueReport)
    (h : ReportChange db pk r command r') : r'.building = r.building ∧ r'.reporter = r.reporter := by
  cases h with
  | _ => exact ⟨rfl, rfl⟩

/-- A link of a publication is an old one or one of its quotations. -/
theorem mem_of_foldl_insert (version : ℕ) (ds : List ℕ) (t : Table ProposalDocument) (pk : ℕ)
    (d : ProposalDocument)
    (h : (ds.foldl (fun t d => t.insert ⟨version, d⟩) t).get? pk = some d) :
    t.get? pk = some d ∨ d.proposalVersion = version ∧ d.documentVersion ∈ ds := by
  induction ds generalizing t with
  | nil => exact .inl h
  | cons e ds ih =>
    rcases ih (t.insert ⟨version, e⟩) h with hget | ⟨hversion, hmem⟩
    · rw [Table.get?_insert] at hget
      split at hget
      · cases hget
        exact .inr ⟨rfl, List.mem_cons_self⟩
      · exact .inl hget
    · exact .inr ⟨hversion, List.mem_cons_of_mem e hmem⟩

/-- The proposals after a service: each is there, in its building. -/
def BuildingsKept (db db' : Db) : Prop :=
  ∀ pk p, db.proposals.get? pk = some p →
    ∃ p', db'.proposals.get? pk = some p' ∧ p'.building = p.building

/-- What a service leaves to the links. -/
structure Served (db db' : Db) : Prop where
  proposals : BuildingsKept db db'
  versions : ∀ pk v, db.versions.get? pk = some v → db'.versions.get? pk = some v
  documentVersions : ∀ pk v, db.documentVersions.get? pk = some v →
    db'.documentVersions.get? pk = some v
  documents : ∀ pk d, db.documents.get? pk = some d → db'.documents.get? pk = some d
  quotations : ∀ pk d, db'.proposalDocuments.get? pk = some d →
    db.proposalDocuments.get? pk = some d ∨ ∃ v p, db'.versions.get? d.proposalVersion = some v ∧
      db'.proposals.get? v.proposal = some p ∧
      IsDocument db' d.documentVersion .quotation p.building
  settlements : ∀ pk t, db.settlements.get? pk = some t → db'.settlements.get? pk = some t
  transfers : ∀ pk t, db'.settlements.get? pk = some t → db.settlements.get? pk = some t ∨
    (∃ p, db'.proposals.get? t.proposal = some p ∧
      IsDocument db' t.transfer .paymentProof p.building) ∧
    ∃ key l, db'.ledger.get? key = some l ∧ l.settlement = pk
  ledger : ∀ pk l, db.ledger.get? pk = some l → db'.ledger.get? pk = some l
  entries : ∀ pk l, db'.ledger.get? pk = some l → db.ledger.get? pk = some l ∨
    ∃ t, db'.settlements.get? l.settlement = some t ∧ t.proposal = l.proposal

/-- The books stay as they are, and rows are added to the documents. -/
theorem Served.of_quiet (db db' : Db) (h : Quiet db db') : Served db db' where
  proposals pk p hp := by
    obtain ⟨p', hp', hmoved⟩ := h.proposals.kept pk p hp
    exact ⟨p', hp', hmoved.building_eq⟩
  versions pk v hv := (Table.get?_congr _ _ h.versions pk).trans hv
  documentVersions := h.documentVersions
  documents := h.documents
  quotations pk d hd := .inl ((Table.get?_congr _ _ h.proposalDocuments pk).symm.trans hd)
  settlements pk t ht := (Table.get?_congr _ _ h.settlements pk).trans ht
  transfers pk t ht := .inl ((Table.get?_congr _ _ h.settlements pk).symm.trans ht)
  ledger pk l hl := (Table.get?_congr _ _ h.ledger pk).trans hl
  entries pk l hl := .inl ((Table.get?_congr _ _ h.ledger pk).symm.trans hl)

/-- The fund is no link. -/
theorem Served.of_fund (db : Db) (funds : Table MaintenanceFund)
    (fundEntries : Table MaintenanceFundEntry) (fundEntryIds : ℕ)
    (verifications : Table FundEntryVerification) (audit : Table AuditEvent) :
    Served db { db with funds, fundEntries, fundEntryIds, verifications, audit } where
  proposals _ p hp := ⟨p, hp, rfl⟩
  versions _ _ h := h
  documentVersions _ _ h := h
  documents _ _ h := h
  quotations _ _ h := .inl h
  settlements _ _ h := h
  transfers _ _ h := .inl h
  ledger _ _ h := h
  entries _ _ h := .inl h

theorem Served.of_publishing (C : EvidenceConfig) (db db' : Db) (p : Publishing C db db') :
    Served db db' where
  proposals pk q hq := by
    rw [p.proposals_get]
    split
    · next hpk =>
      rw [hpk, p.row_get] at hq
      cases hq
      exact ⟨p.rowAfter, rfl, rfl⟩
    · exact ⟨q, hq, rfl⟩
  versions pk v hv := by
    rw [p.versions_get, if_neg (Nat.ne_of_lt (Table.lt_next_of_get? _ _ _ hv)), hv]
  documentVersions pk v hv := by rw [p.documentVersions_eq]; exact hv
  documents pk d hd := by
    rw [congrArg (fun d : Db => d.documents) p.result]
    exact hd
  quotations pk d hd := by
    rw [p.proposalDocuments_eq] at hd
    rcases mem_of_foldl_insert _ _ _ _ _ hd with hold | ⟨hversion, hmem⟩
    · exact .inl hold
    · obtain ⟨q, hq, hdocument⟩ := List.mem_map.mp hmem
      refine .inr ⟨p.version, p.rowAfter, ?_, ?_, ?_⟩
      · rw [hversion, p.versions_get, if_pos rfl]
      · rw [p.version_proposal, p.proposals_get, if_pos rfl]
      · rw [← hdocument]
        refine (p.quotations_are q hq).mono db db' _ _ _ (fun pk v hv => ?_) fun pk d hd => ?_
        · rw [p.documentVersions_eq]
          exact hv
        · rw [congrArg (fun d : Db => d.documents) p.result]
          exact hd
  settlements pk t ht := by rw [p.settlements_eq]; exact ht
  transfers pk t ht := by
    rw [p.settlements_eq] at ht
    exact .inl ht
  ledger pk l hl := by
    rw [congrArg (fun d : Db => d.ledger) p.result]
    exact hl
  entries pk l hl := by
    rw [congrArg (fun d : Db => d.ledger) p.result] at hl
    exact .inl hl

/-- A settlement is published: no entry can name a settlement that is not there. -/
theorem Settling.entry_inserted (C : EvidenceConfig) (db db' : Db) (s : Settling C db db')
    (hledger : ∀ pk l, db.ledger.get? pk = some l →
      ∃ t, db.settlements.get? l.settlement = some t ∧ t.proposal = l.proposal) :
    ∃ l, l.proposal = s.proposal ∧ l.settlement = db.settlements.next ∧
      db'.ledger = db.ledger.insert l := by
  have hresult : db'.ledger = s.ledger := congrArg (fun d : Db => d.ledger) s.result
  rw [hresult]
  have hledgered := s.ledgered
  generalize s.ledger = ledger at hledgered ⊢
  cases hledgered with
  | already key l hget hsettlement =>
    obtain ⟨t, ht, _⟩ := hledger key l hget
    rw [hsettlement, Table.get?_next] at ht
    cases ht
  | inserted l _ hproposal hsettlement => exact ⟨l, hproposal, hsettlement, rfl⟩

theorem Served.of_settling (C : EvidenceConfig) (db db' : Db) (s : Settling C db db')
    (hledger : ∀ pk l, db.ledger.get? pk = some l →
      ∃ t, db.settlements.get? l.settlement = some t ∧ t.proposal = l.proposal) :
    Served db db' := by
  obtain ⟨entry, hproposal, hsettlement, hinserted⟩ := s.entry_inserted C db db' hledger
  have hdocuments : ∀ pk d, db.documents.get? pk = some d → db'.documents.get? pk = some d := by
    intro pk d hd
    rw [congrArg (fun d : Db => d.documents) s.result]
    exact hd
  have hversions : ∀ pk v, db.documentVersions.get? pk = some v →
      db'.documentVersions.get? pk = some v := by
    intro pk v hv
    rw [s.documentVersions_eq]
    exact hv
  have hstored : db'.settlements.get? db.settlements.next = some s.stored := by
    rw [s.settlements_get, if_pos rfl]
  constructor
  · intro pk p hp
    rw [s.proposals_eq]
    exact ⟨p, hp, rfl⟩
  · rw [s.versions_eq]
    exact fun _ _ h => h
  · exact hversions
  · exact hdocuments
  · rw [s.proposalDocuments_eq]
    exact fun _ _ h => .inl h
  · intro pk t ht
    rw [s.settlements_get, if_neg (Nat.ne_of_lt (Table.lt_next_of_get? _ _ _ ht)), ht]
  · intro pk t ht
    rw [s.settlements_get] at ht
    split at ht
    · next hpk =>
      cases ht
      refine .inr ⟨⟨s.row, ?_, s.transfer_is.mono db db' _ _ _ hversions hdocuments⟩,
        db.ledger.next, entry, ?_, hsettlement.trans hpk.symm⟩
      · rw [s.proposals_eq]
        exact s.row_get
      · rw [hinserted, Table.get?_insert_self]
    · exact .inl ht
  · intro pk l hl
    rw [hinserted]
    exact Table.get?_insert_of_some _ _ _ _ hl
  · intro pk l hl
    rw [hinserted, Table.get?_insert] at hl
    split at hl
    · cases hl
      refine .inr ⟨s.stored, ?_, hproposal.symm⟩
      rw [hsettlement]
      exact hstored
    · exact .inl hl

theorem LinksInv.serve (hinv : LinksInv s) (db : Db) (h : Served s.db db)
    (hreports : ∀ pk r, s.db.reports.get? pk = some r →
      ∃ r', db.reports.get? pk = some r' ∧ r'.building = r.building) : LinksInv { s with db } := by
  have hmono : ∀ version kind building, IsDocument s.db version kind building →
      IsDocument db version kind building :=
    fun version kind building hdoc => hdoc.mono s.db db _ _ _ h.documentVersions h.documents
  constructor
  · intro pk d hd
    rcases h.quotations pk d hd with hold | hnew
    · obtain ⟨v, p, hv, hp, hdoc⟩ := hinv.quotation pk d hold
      obtain ⟨p', hp', hbuilding⟩ := h.proposals _ p hp
      refine ⟨v, p', h.versions _ v hv, hp', ?_⟩
      rw [hbuilding]
      exact hmono _ _ _ hdoc
    · exact hnew
  · intro pk t ht
    rcases h.transfers pk t ht with hold | ⟨hnew, _⟩
    · obtain ⟨p, hp, hdoc⟩ := hinv.transfer pk t hold
      obtain ⟨p', hp', hbuilding⟩ := h.proposals _ p hp
      refine ⟨p', hp', ?_⟩
      rw [hbuilding]
      exact hmono _ _ _ hdoc
    · exact hnew
  · intro pk l hl
    rcases h.entries pk l hl with hold | hnew
    · obtain ⟨t, ht, hproposal⟩ := hinv.ledger pk l hold
      exact ⟨t, h.settlements _ t ht, hproposal⟩
    · exact hnew
  · intro pk t ht
    rcases h.transfers pk t ht with hold | ⟨_, hnew⟩
    · obtain ⟨key, l, hl, hsettlement⟩ := hinv.published pk t hold
      exact ⟨key, l, h.ledger key l hl, hsettlement⟩
    · exact hnew
  · intro pk p hp
    obtain ⟨r, hr, hdoc⟩ := hinv.photo pk p hp
    obtain ⟨r', hr', hbuilding⟩ := hreports _ r hr
    refine ⟨r', hr', ?_⟩
    rw [hbuilding]
    exact hmono _ _ _ hdoc
  · intro pk b hb
    exact hmono _ _ _ (hinv.bill pk b hb)

theorem LinksInv.service (hinv : LinksInv s) (C : EvidenceConfig) (command : Command) (db : Db)
    (h : Db.step C s.db command = some db) : LinksInv { s with db } := by
  refine hinv.serve db ?_ fun pk r hr => ?_
  · cases book_effect C s.db db command h with
    | quiet _ hquiet => exact .of_quiet _ _ hquiet
    | publish creator args p => exact .of_publishing C _ _ p
    | settle now member transfer eventId t => exact .of_settling C _ _ t hinv.ledger
    | openFund building fund funds hopened result =>
      rw [result]
      exact .of_fund _ funds _ _ _ _
    | record now entryType amountVnd evidence recorder fundEntryId aware r =>
      rw [r.result]
      exact .of_fund _ _ _ _ _ _
    | verify now verifier v =>
      rw [v.result]
      exact .of_fund _ _ _ _ _ _
  · obtain ⟨r', hr', hchange⟩ := (reports_changed C s.db db command h).kept pk r hr
    exact ⟨r', hr', (hchange.owner_eq _ _ _ _ _).1⟩

/-! ## The cleanup -/

/-- A document that is referenced survives. -/
theorem DocumentsPruned.isDocument (h : DocumentsPruned s s') (version building : ℕ)
    (kind : DocumentKind) (hreferenced : s.references version = true)
    (hdoc : IsDocument s.db version kind building) : IsDocument s'.db version kind building := by
  obtain ⟨v, d, hv, hd, hkind⟩ := hdoc
  obtain ⟨hv', hd'⟩ := h.kept version v d hv hreferenced hd
  exact ⟨v, d, hv', hd', hkind⟩

theorem any_of_get? {α : Type} (t : Table α) (p : α → Bool) (pk : ℕ) (a : α)
    (h : t.get? pk = some a) (ha : p a = true) : t.any p = true :=
  (Table.any_eq_true _ _).mpr ⟨pk, a, h, ha⟩

theorem LinksInv.pruned (hinv : LinksInv s) (h : DocumentsPruned s s') : LinksInv s' := by
  have hfinance : s'.db.toFinanceTables = s.db.toFinanceTables := by rw [h.db_eq]
  have hreports : s'.db.reports = s.db.reports := by rw [h.db_eq]
  constructor
  · intro pk d hd
    rw [hfinance] at hd ⊢
    obtain ⟨v, p, hv, hp, hdoc⟩ := hinv.quotation pk d hd
    refine ⟨v, p, hv, hp, h.isDocument _ _ _ ?_ hdoc⟩
    simp only [Archive.references, Archive.evidenceOf,
      any_of_get? s.db.proposalDocuments (fun e => e.documentVersion = d.documentVersion) pk d hd
        (decide_eq_true rfl), Bool.true_or]
  · intro pk t ht
    rw [hfinance] at ht ⊢
    obtain ⟨p, hp, hdoc⟩ := hinv.transfer pk t ht
    refine ⟨p, hp, h.isDocument _ _ _ ?_ hdoc⟩
    simp only [Archive.references, Archive.evidenceOf,
      any_of_get? s.db.settlements (fun u => u.transfer = t.transfer) pk t ht (decide_eq_true rfl),
      Bool.true_or, Bool.or_true]
  · rw [hfinance]
    exact hinv.ledger
  · rw [hfinance]
    exact hinv.published
  · intro pk p hp
    rw [h.photos_eq] at hp
    rw [hreports]
    obtain ⟨r, hr, hdoc⟩ := hinv.photo pk p hp
    refine ⟨r, hr, h.isDocument _ _ _ ?_ hdoc⟩
    simp only [Archive.references, Archive.evidenceOf,
      any_of_get? s.photos (fun q => q.version = p.version) pk p hp (decide_eq_true rfl),
      Bool.true_or, Bool.or_true]
  · intro pk b hb
    rw [h.bills_eq] at hb
    refine h.isDocument _ _ _ ?_ (hinv.bill pk b hb)
    simp only [Archive.references,
      any_of_get? s.bills (fun c => c.document = b.document) pk b hb (decide_eq_true rfl),
      Bool.or_true]

theorem LinksInv.drafts (hinv : LinksInv s) (h : DraftsPruned s s') : LinksInv s' := by
  rw [h.eq]
  constructor
  · intro pk d hd
    obtain ⟨v, p, hv, hp, hdoc⟩ := hinv.quotation pk d hd
    refine ⟨v, p, hv, h.kept _ p hp ?_, hdoc⟩
    simp only [Archive.proposalReferenced,
      any_of_get? s.db.versions (fun u => u.proposal = v.proposal) _ v hv (decide_eq_true rfl),
      Bool.true_or]
  · intro pk t ht
    obtain ⟨p, hp, hdoc⟩ := hinv.transfer pk t ht
    refine ⟨p, h.kept _ p hp ?_, hdoc⟩
    simp only [Archive.proposalReferenced,
      any_of_get? s.db.settlements (fun u => u.proposal = t.proposal) pk t ht (decide_eq_true rfl),
      Bool.true_or, Bool.or_true]
  · exact hinv.ledger
  · exact hinv.published
  · exact hinv.photo
  · exact hinv.bill

/-! ## Every step -/

/-- **A step keeps the links.** -/
theorem LinksInv.step (hinv : LinksInv s) (h : Archive.step K s a = some s') : LinksInv s' := by
  cases archive_effect h with
  | unchanged => exact hinv
  | service command db hstep => exact hinv.service K.toEvidenceConfig command db hstep
  | submitted a report photos audit hphotos =>
    refine hinv.grow {
      reports := fun pk r hr => Table.get?_insert_of_some _ _ _ pk hr
      photos := fun pk p hp => ?_ }
    rcases hphotos pk p hp with hold | ⟨hreport, hdoc⟩
    · exact .inl hold
    · refine .inr ⟨report, ?_, hdoc⟩
      rw [hreport]
      exact Table.get?_insert_self _ _
  | uploaded caller uploader f w t r hfresh heffect =>
    exact heffect.links caller f uploader w s' r hinv
  | quarantined f uploader reason w t r hmay heffect =>
    cases heffect with
    | refused => exact hinv
    | orphaned => exact hinv.grow {}
    | registered => exact hinv.grow {}
  | billed a bill audit hbill =>
    refine hinv.grow { bills := fun pk b hb => ?_ }
    rw [Table.get?_insert] at hb
    split at hb
    · cases hb
      exact .inr hbill
    · exact .inl ⟨b, hb, rfl, rfl⟩
  | rebilled a key change audit hchange =>
    refine hinv.grow { bills := fun pk b hb => ?_ }
    rw [Table.get?_update] at hb
    split at hb
    · next hpk =>
      obtain ⟨b₀, hold, rfl⟩ := Option.map_eq_some_iff.mp hb
      exact .inl ⟨b₀, hpk ▸ hold, (hchange b₀).1, (hchange b₀).2⟩
    · exact .inl ⟨b, hb, rfl, rfl⟩
  | purged => exact hinv.grow {}
  | cleaned c s' heffect =>
    cases heffect with
    | unchanged => exact hinv
    | rolledBack t hpruned => exact hinv.grow {}
    | pruned t s' hpruned hdrafts => exact (hinv.pruned hpruned).drafts hdrafts
  | lost => exact hinv.grow {}

theorem LinksInv.reachable (h : s.Reachable K) : LinksInv s :=
  h.preserves LinksInv (fun _ _ _ hinv _ hstep => hinv.step hstep) linksInv_empty

end LamTo.Analysis
