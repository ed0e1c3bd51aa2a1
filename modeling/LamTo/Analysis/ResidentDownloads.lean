import LamTo.Analysis.DocumentLinks
import LamTo.Analysis.ProposalChain

/-!
# What a resident may download

`resident_can_download` follows links; it reads the building of the proposal, the reporter of the
report and the resident of the bill, and never the building of the document. By `LinksInv` the
document is one of that building and of the kind that goes with the link, in every archive the
services reach. So a resident gets the photos of his own reports, the documents of his own bills
that are not void, and of the buildings he occupies the quotations of proposals that are no drafts
and the transfers of settled expenses (`Downloadable`); nothing else, and nothing of another
building.

SOURCE: src/lamto/api/downloads.py:95-137
-/

set_option autoImplicit false

namespace LamTo.Analysis

open LamTo.Library LamTo.Model

variable {K : ArchiveConfig} {s : Archive}

/-! ## What may be downloaded -/

/-- The user has an active occupancy in the building. -/
def Occupies (db : Db) (user building : ℕ) : Prop :=
  ∃ pk o, db.occupancies.get? pk = some o ∧ o.user = user ∧ o.active = true ∧ o.building = building

/-- A photo of a report the user submitted, of the building of the report. -/
def OwnPhoto (s : Archive) (user version : ℕ) : Prop :=
  ∃ pk p r, s.photos.get? pk = some p ∧ p.version = version ∧
    s.db.reports.get? p.report = some r ∧ r.reporter = user ∧
    IsDocument s.db version .reportPhoto r.building

/-- The document of a bill to the user that is not void, of the building of the bill. -/
def OwnBill (s : Archive) (user version : ℕ) : Prop :=
  ∃ pk b, s.bills.get? pk = some b ∧ b.document = version ∧ b.resident = user ∧ b.status ≠ .void ∧
    IsDocument s.db version .residentBill b.building

/-- A quotation of a proposal of the building that is no draft. -/
def PublishedQuotation (db : Db) (building version : ℕ) : Prop :=
  IsDocument db version .quotation building ∧ ∃ pk d v p,
    db.proposalDocuments.get? pk = some d ∧ d.documentVersion = version ∧
    db.versions.get? d.proposalVersion = some v ∧ db.proposals.get? v.proposal = some p ∧
    p.building = building ∧ p.status ≠ .draft

/-- The transfer of a published expense of the building, with both events settled. -/
def SettledTransfer (db : Db) (building version : ℕ) : Prop :=
  IsDocument db version .paymentProof building ∧ ∃ pk l p t,
    db.ledger.get? pk = some l ∧ db.proposals.get? l.proposal = some p ∧ p.building = building ∧
    db.settlements.get? l.settlement = some t ∧ t.proposal = l.proposal ∧ t.transfer = version ∧
    settlementSettled db t = true ∧ currentVersionSettled db p = true

/-- What a resident may have. -/
def Downloadable (s : Archive) (user version : ℕ) : Prop :=
  OwnPhoto s user version ∨ OwnBill s user version ∨
    ∃ building, Occupies s.db user building ∧
      (PublishedQuotation s.db building version ∨ SettledTransfer s.db building version)

/-! ## The queries -/

theorem mem_occupiedBuildings (db : Db) (user building : ℕ) :
    building ∈ occupiedBuildings db user ↔ Occupies db user building := by
  unfold occupiedBuildings
  rw [List.mem_map]
  constructor
  · rintro ⟨⟨pk, o⟩, hmem, rfl⟩
    obtain ⟨ho, hboth⟩ := (Table.mem_select _ _ _ _).mp hmem
    simp only [Bool.and_eq_true, decide_eq_true_eq] at hboth
    exact ⟨pk, o, ho, hboth.1, hboth.2, rfl⟩
  · rintro ⟨pk, o, ho, huser, hactive, hbuilding⟩
    refine ⟨(pk, o), (Table.mem_select _ _ _ _).mpr ⟨ho, ?_⟩, hbuilding⟩
    simp only [Bool.and_eq_true, decide_eq_true_eq]
    exact ⟨huser, hactive⟩

theorem quotationStatuses_ne_draft (status : ProposalStatus) (h : status ∈ quotationStatuses) :
    status ≠ .draft := by
  rintro rfl
  revert h
  decide

theorem LinksInv.quoted (hinv : LinksInv s) (buildings : List ℕ) (version : ℕ)
    (h : quotedIn s.db buildings version = true) :
    ∃ building ∈ buildings, PublishedQuotation s.db building version := by
  obtain ⟨pk, d, hd, hlink⟩ := (Table.any_eq_true _ _).mp h
  rw [Bool.and_eq_true, decide_eq_true_eq] at hlink
  obtain ⟨v, hv, hversion⟩ := (Option.any_eq_true _ _).mp hlink.2
  obtain ⟨p, hp, hproposal⟩ := (Option.any_eq_true _ _).mp hversion
  simp only [Bool.and_eq_true, decide_eq_true_eq] at hproposal
  obtain ⟨v', p', hv', hp', hdoc⟩ := hinv.quotation pk d hd
  cases hv.symm.trans hv'
  cases hp.symm.trans hp'
  rw [hlink.1] at hdoc
  exact ⟨p.building, hproposal.1, hdoc, pk, d, v, p, hd, hlink.1, hv, hp, rfl,
    quotationStatuses_ne_draft _ hproposal.2⟩

theorem LinksInv.settled (hinv : LinksInv s) (buildings : List ℕ) (version : ℕ)
    (h : settledIn s.db buildings version = true) :
    ∃ building ∈ buildings, SettledTransfer s.db building version := by
  obtain ⟨pk, l, hl, hboth⟩ := (Table.any_eq_true _ _).mp h
  rw [Bool.and_eq_true] at hboth
  obtain ⟨p, hp, hproposal⟩ := (Option.any_eq_true _ _).mp hboth.1
  obtain ⟨t, ht, hsettlement⟩ := (Option.any_eq_true _ _).mp hboth.2
  simp only [Bool.and_eq_true, decide_eq_true_eq] at hproposal hsettlement
  obtain ⟨t', ht', hsame⟩ := hinv.ledger pk l hl
  cases ht.symm.trans ht'
  obtain ⟨p', hp', hdoc⟩ := hinv.transfer _ t ht
  rw [hsame] at hp'
  cases hp.symm.trans hp'
  rw [hsettlement.2] at hdoc
  exact ⟨p.building, hproposal.1, hdoc, pk, l, p, t, hl, hp, rfl, ht, hsame, hsettlement.2,
    hsettlement.1, hproposal.2⟩

theorem LinksInv.ownPhoto (hinv : LinksInv s) (user version : ℕ)
    (h : (s.photos.any fun p => p.version = version &&
      (s.db.reports.get? p.report).any fun r => r.reporter = user) = true) :
    OwnPhoto s user version := by
  obtain ⟨pk, p, hp, hboth⟩ := (Table.any_eq_true _ _).mp h
  rw [Bool.and_eq_true, decide_eq_true_eq] at hboth
  obtain ⟨r, hr, hreporter⟩ := (Option.any_eq_true _ _).mp hboth.2
  obtain ⟨r', hr', hdoc⟩ := hinv.photo pk p hp
  cases hr.symm.trans hr'
  rw [hboth.1] at hdoc
  exact ⟨pk, p, r, hp, hboth.1, hr, of_decide_eq_true hreporter, hdoc⟩

theorem LinksInv.ownBill (hinv : LinksInv s) (user version : ℕ)
    (h : (s.bills.any fun b =>
      b.document = version && b.resident = user && b.status ≠ .void) = true) :
    OwnBill s user version := by
  obtain ⟨pk, b, hb, hall⟩ := (Table.any_eq_true _ _).mp h
  simp only [Bool.and_eq_true, decide_eq_true_eq] at hall
  obtain ⟨⟨hdocument, hresident⟩, hstatus⟩ := hall
  have hdoc := hinv.bill pk b hb
  rw [hdocument] at hdoc
  exact ⟨pk, b, hb, hdocument, hresident, hstatus, hdoc⟩

/-- **What the query allows is downloadable.** -/
theorem LinksInv.downloadable (hinv : LinksInv s) (user version : ℕ)
    (h : residentCanDownload s user version = true) : Downloadable s user version := by
  obtain ⟨v, _, hversion⟩ := (Option.any_eq_true _ _).mp h
  obtain ⟨d, _, hallowed⟩ := (Option.any_eq_true _ _).mp hversion
  split at hallowed
  · cases hallowed
  · split at hallowed
    · exact .inr (.inl (hinv.ownBill user version hallowed))
    · split at hallowed
      · exact .inl (hinv.ownPhoto user version hallowed)
      · dsimp only at hallowed
        split at hallowed
        · cases hallowed
        · split at hallowed
          · next hquotation =>
            rw [Bool.and_eq_true] at hquotation
            obtain ⟨building, hmem, hpublished⟩ := hinv.quoted _ version hquotation.2
            exact .inr (.inr ⟨building, (mem_occupiedBuildings _ _ _).mp hmem, .inl hpublished⟩)
          · obtain ⟨building, hmem, hsettled⟩ := hinv.settled _ version hallowed
            exact .inr (.inr ⟨building, (mem_occupiedBuildings _ _ _).mp hmem, .inr hsettled⟩)

theorem IsDocument.unique (db : Db) (version building building' : ℕ) (kind kind' : DocumentKind)
    (h : IsDocument db version kind building) (h' : IsDocument db version kind' building') :
    kind = kind' ∧ building = building' := by
  obtain ⟨v, d, hv, hd, rfl, rfl⟩ := h
  obtain ⟨v', d', hv', hd', rfl, rfl⟩ := h'
  cases hv.symm.trans hv'
  cases hd.symm.trans hd'
  exact ⟨rfl, rfl⟩

/-- The kinds outside the list are refused before any lookup. -/
theorem residentCanDownload_kind (user version building : ℕ) (kind : DocumentKind)
    (h : IsDocument s.db version kind building) (hkind : kind ∉ residentDownloadableKinds) :
    residentCanDownload s user version = false := by
  obtain ⟨v, d, hv, hd, rfl, _⟩ := h
  rw [residentCanDownload, hv, Option.any_some, hd, Option.any_some, if_pos hkind]

/-- **Downloads are isolated**, in every archive the services reach: a resident gets only his own
photos, his own bills, and of the buildings he occupies the quotations of published proposals and
the transfers of settled expenses. The other kinds are refused, and so is a document of a building
he does not occupy unless it is of his own report or bill. -/
theorem resident_downloads_isolated (h : s.Reachable K) (user version : ℕ) :
    (residentCanDownload s user version = true → Downloadable s user version) ∧
      ∀ kind building, IsDocument s.db version kind building →
        (kind ∉ residentDownloadableKinds → residentCanDownload s user version = false) ∧
        (¬ Occupies s.db user building → ¬ OwnPhoto s user version → ¬ OwnBill s user version →
          residentCanDownload s user version = false) := by
  have hinv := LinksInv.reachable h
  refine ⟨hinv.downloadable user version, fun kind building hdoc => ⟨fun hkind => ?_, ?_⟩⟩
  · exact residentCanDownload_kind user version building kind hdoc hkind
  · intro hoccupies hphoto hbill
    rw [← Bool.not_eq_true]
    intro hallowed
    rcases hinv.downloadable user version hallowed with hown | hown | ⟨b, hb, hlinked⟩
    · exact hphoto hown
    · exact hbill hown
    · have hsame : building = b := by
        rcases hlinked with ⟨hlinked, _⟩ | ⟨hlinked, _⟩
        · exact (hdoc.unique _ _ _ _ _ _ hlinked).2
        · exact (hdoc.unique _ _ _ _ _ _ hlinked).2
      rw [hsame] at hoccupies
      exact hoccupies hb

/-! ## A settled expense -/

/-- Files of up to 100 bytes, kept a month on a file system; every image is one. -/
def sampleArchive : ArchiveConfig where
  toEvidenceConfig := sampleConfig
  maxBytes := 100
  retention := 30 * 86400 * second
  backend := .fileSystem
  verifyImage _ := .valid

/-- A document of one byte after its signature. -/
def samplePdf (b : UInt8) : UploadedFile where
  name := some "scan.pdf".toList
  contentType := some "application/pdf".toList
  size := some 6
  chunks := [[0x25, 0x50, 0x44, 0x46, 0x2d, b]]

/-- The services answer; the uuid ends in a digit of its own. -/
def sampleCall (now : ℕ) (scan : ScanOutcome) (digit : Char) : Surroundings where
  now := now
  scan := scan
  put := .taken "v1".toList
  uuid := List.replicate 31 '0' ++ [digit]

/-- A building with a manager and a resident, a quotation and a transfer; the proposal is
published, done and settled. -/
def settledRun : List ArchiveAction :=
  [.service .createBuilding, .service (.createMembership 7 1), .service (.createOccupancy 8 1),
    .upload (.uploadDocument 1 .quotation) 7 (samplePdf 1) (sampleCall 100 .clean '1'),
    .upload (.uploadDocument 1 .paymentProof) 7 (samplePdf 2) (sampleCall 200 .clean '2'),
    .service (.createStandaloneProposal 500 1 7),
    .service (.publishProposalVersion 1000 1 7 (samplePublication 500 '1')),
    .service (.decideProposal 3000 1 7 (.bool true) []),
    .service (.completeProposalWork 4000 1 7 "Old pipe".toList "Replaced".toList),
    .service (.recordSettlement 7000 1 7 (some 2) ('0' :: 'x' :: List.replicate 64 '3'))]

/-- The resident gets the quotation, and not yet the transfer. -/
theorem resident_downloads_isolated_sample : ∃ s : Archive, s.Reachable sampleArchive ∧
    residentCanDownload s 8 1 = true ∧ residentCanDownload s 8 2 = false ∧
    Downloadable s 8 1 := by
  obtain ⟨s, hreach, hquotation, htransfer⟩ := exists_of_run (Archive.step sampleArchive)
    Archive.empty
    (fun s => residentCanDownload s 8 1 = true ∧ residentCanDownload s 8 2 = false) settledRun
    (by decide +kernel)
  exact ⟨s, hreach, hquotation, htransfer, (resident_downloads_isolated hreach 8 1).1 hquotation⟩

end LamTo.Analysis
