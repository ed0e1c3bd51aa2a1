import LamTo.Model.Uploads

/-!
# The archive as one system

The services that link documents (reports with photos, bills) or delete them (the cleanup of stale
documents), what a resident may download and what the public explorer shows, and the system of all
of these with the services of `Db`.

Left out: the notifications of a bill and the text, unit and location of a report. Users have no
table; that a user exists follows from the occupancy. The cleanup runs as the owner of the tables,
since it fails before it deletes anything otherwise; deletions of blobs that fail are logged.

SOURCE: src/lamto/billing/services.py, src/lamto/maintenance/reporting.py:20-109,
src/lamto/web/staff_documents.py:97-244, src/lamto/api/downloads.py:95-137,
src/lamto/explorer/views.py:244-276, 366-384
-/

set_option autoImplicit false

namespace LamTo.Model

open LamTo.Library

/-! ## Reports with photos -/

/-- A version that may be attached to a report. SOURCE: reporting.py:56-66 -/
def Archive.attachable (s : Archive) (resident building version : ℕ) : Bool :=
  (s.files version).any (fun f => f.uploader = resident) &&
    (s.db.documentVersions.get? version).any fun v => v.clean &&
      (s.db.documents.get? v.document).any fun d => d.building = building && d.kind = .reportPhoto

/-- The photos of a new report. -/
def insertPhotos (report : ℕ) (versions : List (ℕ × Text)) (photos : Table ReportPhoto) :
    Table ReportPhoto :=
  versions.foldl (fun t v => t.insert ⟨report, v.1, v.2⟩) photos

/-- `submit_report`, from the occupancy on. SOURCE: reporting.py:29-109 -/
def submitReport (s : Archive) (resident building : ℕ) (isPrivate : Bool) (photos : List ℕ) :
    Except ServiceError Archive := do
  let (occupancy, _) ← orRaise
    (s.db.occupancies.first? fun o => o.user = resident && o.building = building && o.active)
    (.permissionDenied "Active occupancy is required to submit a report.")
  require photos.Nodup (ServiceError.validation "A photo version can only be attached once.")
  require (photos.all (s.attachable resident building) = true)
    (ServiceError.validation
      "Report photos must be owned, clean original photos in the unit building.")
  let versions := photos.filterMap fun pk =>
    (s.db.documentVersions.get? pk).map fun v => (pk, v.sha256)
  require (versions.map Prod.snd).Nodup (ServiceError.integrity "report_photo_content_sha_once")
  let report := s.db.reports.next
  let db := { s.db with
    reports := s.db.reports.insert (.submitted resident building isPrivate) }
  let db ← recordAuditWithoutMembership db resident "report.submit" "IssueReport" report "accepted"
    (some occupancy) [("occupancy_id".toList, .int occupancy)]
  return { s with db, photos := insertPhotos report versions s.photos }

/-! ## Bills -/

/-- The texts of a bill, its amount and its unguessable reference. -/
structure BillTerms where
  title : Text
  amountVnd : ℤ
  note : Text
  period : Text
  dueDate : Option Date
  reference : Text

/-- `issue_bill`: the key of the bill. SOURCE: billing/services.py:39-107 -/
def issueBill (s : Archive) (actor building resident document : ℕ) (terms : BillTerms) :
    Except ServiceError (ℕ × Archive) := do
  let (membership, _) ← requireManagement s.db actor building
  require (s.db.occupancies.any (fun o => o.user = resident && o.active && o.building = building)
      = true)
    (ServiceError.validation "Resident has no active occupancy in this building.")
  let version ← getRow "DocumentVersion" s.db.documentVersions document
  let d ← getRow "Document" s.db.documents version.document
  require (d.kind = .residentBill) (ServiceError.validation "Document must be a resident bill.")
  require (d.building = building)
    (ServiceError.validation "Document must belong to the target building.")
  let title ← textColumn "title" (some 160) terms.title
  let note ← textColumn "note" none terms.note
  let period ← textColumn "period" (some 64) terms.period
  let amountVnd ← positiveBigInt "amount_vnd" "bill_amount_positive" terms.amountVnd
  let bill := s.bills.next
  let db ← recordAudit s.db actor membership "bill.issued" "Bill" bill "accepted"
    [("bill_id".toList, .int bill), ("amount_vnd".toList, .int amountVnd)]
  return (bill, { s with
    db
    bills := s.bills.insert {
      building, resident, title, note, period, dueDate := terms.dueDate, amountVnd, document,
      reference := terms.reference, status := .issued, paymentSource := none, issuedBy := actor,
      paidAt := none, paidConfirmedBy := none, voidBy := none, voidAt := none, voidReason := [] } })

/-- `PaymentSource` as it is stored. -/
def PaymentSource.code : PaymentSource → Text
  | .selfAttestedDemo => "SELF_ATTESTED_DEMO".toList
  | .bankWebhook => "BANK_WEBHOOK".toList
  | .managementManual => "MANAGEMENT_MANUAL".toList

/-- `confirm_payment`. SOURCE: billing/services.py:110-144 -/
def confirmPayment (s : Archive) (now bill actor : ℕ) (source : PaymentSource) (reference : Text) :
    Except ServiceError Archive := do
  let row ← getRow "Bill" s.bills bill
  require (row.status ≠ .void) (ServiceError.validation "BillVoidedError")
  require (reference = row.reference) (ServiceError.validation "BillReferenceError")
  require (source = .selfAttestedDemo → actor = row.resident)
    (ServiceError.validation "Self-attested payment must be confirmed by the bill resident.")
  if row.status = .paid then return s
  else
    let db ← recordAuditWithoutMembership s.db actor "bill.payment_recorded" "Bill" bill "accepted"
      none [("bill_id".toList, .int bill), ("source".toList, .str source.code)]
    return { s with
      db
      bills := s.bills.update bill fun b => { b with
        status := .paid, paymentSource := some source, paidAt := some now,
        paidConfirmedBy := some actor } }

/-- `void_bill`. SOURCE: billing/services.py:147-177 -/
def voidBill (U : Unicode) (s : Archive) (now actor bill : ℕ) (reason : Text) :
    Except ServiceError Archive := do
  let reason := strip U reason
  require (reason ≠ []) (ServiceError.validation "A void reason is required.")
  let row ← getRow "Bill" s.bills bill
  let (membership, _) ← requireManagement s.db actor row.building
  require (row.status = .issued)
    (ServiceError.validation "Only an issued bill can be voided.")
  let reason ← textColumn "void_reason" none reason
  let db ← recordAudit s.db actor membership "bill.voided" "Bill" bill "accepted"
    [("bill_id".toList, .int bill)]
  return { s with
    db
    bills := s.bills.update bill fun b => { b with
      status := .void, voidBy := some actor, voidAt := some now, voidReason := reason } }

/-! ## The cleanup of stale documents -/

/-- The foreign keys to a document version, but those of bills. -/
def Archive.evidenceOf (s : Archive) (version : ℕ) : Bool :=
  s.db.proposalDocuments.any (fun d => d.documentVersion = version) ||
    s.db.fundEntries.any (fun e => e.evidence = some version) ||
    s.db.settlements.any (fun t => t.transfer = version) ||
    s.photos.any fun p => p.version = version

/-- Every foreign key to a document version; each of them protects the row. -/
def Archive.references (s : Archive) (version : ℕ) : Bool :=
  s.evidenceOf version || s.bills.any fun b => b.document = version

/-- `_referenced_document_ids`: the document is in the set. SOURCE: staff_documents.py:118-150 -/
def Archive.referencedDocument (s : Archive) (document : ℕ) : Bool :=
  s.db.documentVersions.rows.any fun r => r.2.document = document && s.evidenceOf r.1

/-- A version of the document has a time of creation with the property. -/
def Archive.versionCreated (s : Archive) (document : ℕ) (p : ℤ → Bool) : Bool :=
  s.db.documentVersions.rows.any fun r => r.2.document = document &&
    (s.files r.1).any fun f => p f.createdAt

/-- The documents of `stale_prepared_ops_candidates`. SOURCE: staff_documents.py:153-177 -/
def staleDocuments (s : Archive) (cutoff : ℤ) : List ℕ :=
  (s.db.documents.rows.map Prod.fst).filter fun pk =>
    !s.referencedDocument pk && s.versionCreated pk (· < cutoff) &&
      !s.versionCreated pk (cutoff ≤ ·)

/-- The exception of the cleanup: a row is protected by a foreign key. -/
inductive CleanupError where
  | protectedRows
deriving DecidableEq

/-- The storage keys of the versions of a document. -/
def Archive.storageKeys (s : Archive) (document : ℕ) : List Text :=
  (s.db.documentVersions.select fun v => v.document = document).filterMap fun r =>
    (s.files r.1).map StoredFile.storageKey

/-- `_hard_delete_document`: the number of blobs purged. A version that is referenced protects the
whole deletion. SOURCE: staff_documents.py:97-115 -/
def hardDeleteDocument (s : Archive) (document : ℕ) (unreachable : Text → Bool) :
    Archive × Except CleanupError ℕ :=
  let versions := s.db.documentVersions.select fun v => v.document = document
  if versions.any fun r => s.references r.1 then (s, .error .protectedRows)
  else
    let purged := (s.storageKeys document).filter fun k => !unreachable k
    ({ s with
      db := { s.db with
        documentVersions := s.db.documentVersions.remove fun _ v => v.document = document
        documents := s.db.documents.remove fun pk _ => pk = document }
      files := fun pk => if versions.any (fun r => r.1 = pk) then none else s.files pk
      objects := s.objects.filter fun k => !purged.contains k }, .ok purged.length)

/-- The loop over the documents: how many were deleted, and how many blobs. -/
def deleteDocuments (unreachable : Text → Bool) :
    List ℕ → Archive → Archive × Except CleanupError (ℕ × ℕ)
  | [], s => (s, .ok (0, 0))
  | document :: documents, s =>
    match hardDeleteDocument s document unreachable with
    | (s, .error e) => (s, .error e)
    | (s, .ok purged) =>
      match deleteDocuments unreachable documents s with
      | (s, .error e) => (s, .error e)
      | (s, .ok (deleted, rest)) => (s, .ok (deleted + 1, purged + rest))

/-- The drafts the cleanup deletes. -/
def staleDraft (cutoff : ℤ) (p : Proposal) : Bool := p.currentVersion = none && p.createdAt < cutoff

/-- The foreign keys to a proposal; each of them protects the row. -/
def Archive.proposalReferenced (s : Archive) (proposal : ℕ) : Bool :=
  s.db.versions.any (fun v => v.proposal = proposal) ||
    s.db.settlements.any (fun t => t.proposal = proposal) ||
    s.db.fundEntries.any (fun e => e.proposal = some proposal) ||
    s.db.ledger.any (fun l => l.proposal = proposal) ||
    s.db.workUpdates.any (fun u => u.proposal = some proposal) ||
    s.db.ratings.any fun r => r.proposal = some proposal

/-- `Proposal.objects.filter(...).delete()` -/
def deleteDrafts (s : Archive) (cutoff : ℤ) : Archive × Except CleanupError ℕ :=
  let drafts := s.db.proposals.select (staleDraft cutoff)
  if drafts.any fun r => s.proposalReferenced r.1 then (s, .error .protectedRows)
  else
    ({ s with
      db := { s.db with proposals := s.db.proposals.remove fun _ p => staleDraft cutoff p } },
      .ok drafts.length)

/-- A cleanup: `cutoff` and `draftCutoff` are the time less the threshold at the two reads of the
clock, and the threshold may be negative; `order` is the order the documents come in. -/
structure Cleanup where
  cutoff : ℤ
  draftCutoff : ℤ
  dryRun : Bool
  order : List ℕ
  unreachable : Text → Bool

/-- What `cleanup_stale_prepared_ops` returns. -/
structure CleanupCounts where
  documentsDeleted : ℕ
  proposalsDeleted : ℕ
  storagePurged : ℕ
deriving DecidableEq

/-- `cleanup_stale_prepared_ops`. SOURCE: staff_documents.py:180-244 -/
def cleanupStalePreparedOps (s : Archive) (c : Cleanup) :
    Archive × Except CleanupError CleanupCounts :=
  if c.dryRun then (s, .ok ⟨0, 0, 0⟩)
  else
    match atomic s (deleteDocuments c.unreachable c.order) with
    | (s, .error e) => (s, .error e)
    | (s, .ok (documentsDeleted, storagePurged)) =>
      match deleteDrafts s c.draftCutoff with
      | (s, .error e) => (s, .error e)
      | (s, .ok proposalsDeleted) => (s, .ok ⟨documentsDeleted, proposalsDeleted, storagePurged⟩)

/-! ## What a resident may download -/

/-- `RESIDENT_DOWNLOADABLE_KINDS` -/
def residentDownloadableKinds : List DocumentKind :=
  [.reportPhoto, .quotation, .paymentProof, .residentBill]

/-- `SETTLED_STATUSES` -/
def Status.settled : Status → Bool
  | .localSettled | .confirmed => true
  | _ => false

/-- The event of a row is settled. -/
def eventSettled (db : Db) (event : ℕ) : Bool := (db.outbox.get? event).any (·.status.settled)

/-- The event of the current version of a proposal is settled. -/
def currentVersionSettled (db : Db) (p : Proposal) : Bool :=
  p.currentVersion.any fun pk => (db.versions.get? pk).any fun v => eventSettled db v.outboxEvent

/-- The event of a settlement is settled. -/
def settlementSettled (db : Db) (t : Settlement) : Bool := t.outboxEvent.any (eventSettled db)

/-- The buildings of `active_occupancies`. -/
def occupiedBuildings (db : Db) (user : ℕ) : List ℕ :=
  (db.occupancies.select fun o => o.user = user && o.active).map fun r => r.2.building

/-- The statuses whose quotations residents may read. SOURCE: downloads.py:117-123 -/
def quotationStatuses : List ProposalStatus :=
  [.published, .notProceeding, .inProgress, .completed, .closed]

/-- The version is a quotation of a proposal with such a status, in one of the buildings.
SOURCE: downloads.py:113-126 -/
def quotedIn (db : Db) (buildings : List ℕ) (version : ℕ) : Bool :=
  db.proposalDocuments.any fun d => d.documentVersion = version &&
    (db.versions.get? d.proposalVersion).any fun v =>
      (db.proposals.get? v.proposal).any fun p =>
        p.building ∈ buildings && p.status ∈ quotationStatuses

/-- The version is the transfer of a published expense in one of the buildings, with its events
settled. SOURCE: downloads.py:127-137 -/
def settledIn (db : Db) (buildings : List ℕ) (version : ℕ) : Bool :=
  db.ledger.any fun l =>
    (db.proposals.get? l.proposal).any (fun p => p.building ∈ buildings &&
      currentVersionSettled db p) &&
    (db.settlements.get? l.settlement).any fun t => settlementSettled db t && t.transfer = version

/-- `resident_can_download`. SOURCE: downloads.py:95-137 -/
def residentCanDownload (s : Archive) (user version : ℕ) : Bool :=
  (s.db.documentVersions.get? version).any fun v => (s.db.documents.get? v.document).any fun d =>
    if d.kind ∉ residentDownloadableKinds then false
    else if d.kind = .residentBill then
      s.bills.any fun b => b.document = version && b.resident = user && b.status ≠ .void
    else if d.kind = .reportPhoto then
      s.photos.any fun p => p.version = version &&
        (s.db.reports.get? p.report).any fun r => r.reporter = user
    else
      let buildings := occupiedBuildings s.db user
      if buildings = [] then false
      else if d.kind = .quotation && quotedIn s.db buildings version then true
      else settledIn s.db buildings version

/-! ## What the explorer shows -/

/-- The settlement step of `explorer_page` shows the transfer. SOURCE: explorer/views.py:244-276 -/
def explorerShowsTransfer (db : Db) (proposal : ℕ) : Bool :=
  (db.settlements.first? fun t => t.proposal = proposal).any fun t => settlementSettled db t.2

/-- `_explorer_document`: the version the route serves for a hash. SOURCE: explorer/views.py:366-384 -/
def explorerDocument (db : Db) (proposal : ℕ) (sha256 : Text) : Option ℕ :=
  let quotation := (db.documentVersions.rows.find? fun r => r.2.sha256 = sha256 &&
    db.proposalDocuments.any fun d => d.documentVersion = r.1 &&
      (db.versions.get? d.proposalVersion).any fun v => v.proposal = proposal).map Prod.fst
  match db.settlements.first? fun t => t.proposal = proposal with
  | some (_, t) =>
    if settlementSettled db t &&
        (db.documentVersions.get? t.transfer).any (fun v => v.sha256 = sha256) then
      some t.transfer
    else quotation
  | none => quotation

/-! ## The system -/

inductive ArchiveAction where
  | service (command : Command)
  | submitReport (resident building : ℕ) (isPrivate : Bool) (photos : List ℕ)
  | upload (caller : UploadCaller) (uploader : ℕ) (file : UploadedFile) (w : Surroundings)
  | quarantineUpload (file : UploadedFile) (uploader : ℕ) (reason : Text) (w : Surroundings)
  | issueBill (actor building resident document : ℕ) (terms : BillTerms)
  | confirmPayment (now bill actor : ℕ) (source : PaymentSource) (reference : Text)
  | voidBill (now actor bill : ℕ) (reason : Text)
  | purge (now : ℕ) (unreachable : Text → Bool)
  | cleanup (c : Cleanup)
  | loseKeys (documents versions quarantine photos bills : ℕ)

/-- The commands of `Db` that the actions of the archive stand for. -/
def Command.replaced : Command → Bool
  | .createDocumentVersion _ | .submitReport _ _ _ => true
  | _ => false

/-- `uuid4().hex`: 32 digits, and no value twice: no key of an object or of a row ends in it. -/
def Archive.freshUuid (s : Archive) (uuid : Text) : Bool :=
  uuid.length = 32 && uuid.all isLowerHex && !s.objects.any (uuid.isSuffixOf ·) &&
    !s.quarantine.any (fun q => q.storageKey.any (uuid.isSuffixOf ·)) &&
    !s.db.documentVersions.rows.any fun r =>
      (s.files r.1).any fun f => uuid.isSuffixOf f.storageKey

/-- The archive after a call that returns. -/
def returnedArchive : Except ServiceError Archive → Option Archive
  | .ok s => some s
  | .error _ => none

/-- One step. A call of an upload, a purge or a cleanup may raise and yet leave a new archive. -/
def Archive.step (K : ArchiveConfig) (s : Archive) : ArchiveAction → Option Archive
  | .service command =>
    if command.replaced then none
    else (Db.step K.toEvidenceConfig s.db command).map fun db => { s with db }
  | .submitReport resident building isPrivate photos =>
    returnedArchive (submitReport s resident building isPrivate photos)
  | .upload caller uploader file w =>
    if s.freshUuid w.uuid then some (upload K s caller uploader file w).1 else none
  | .quarantineUpload file uploader reason w =>
    if s.freshUuid w.uuid then some (quarantineUpload K s file uploader reason w).1 else none
  | .issueBill actor building resident document terms =>
    returnedArchive ((issueBill s actor building resident document terms).map Prod.snd)
  | .confirmPayment now bill actor source reference =>
    returnedArchive (confirmPayment s now bill actor source reference)
  | .voidBill now actor bill reason => returnedArchive (voidBill K.unicode s now actor bill reason)
  | .purge now unreachable => some (purgeExpiredQuarantine K s now unreachable).1
  -- The query of the candidates has no order.
  | .cleanup c =>
    if c.order.Perm (staleDocuments s c.cutoff) then some (cleanupStalePreparedOps s c).1 else none
  | .loseKeys documents versions quarantine photos bills =>
    some { s with
      db := { s.db with
        documents := s.db.documents.skip documents
        documentVersions := s.db.documentVersions.skip versions }
      quarantine := s.quarantine.skip quarantine
      photos := s.photos.skip photos
      bills := s.bills.skip bills }

/-- The archives reached from the empty one. -/
def Archive.Reachable (K : ArchiveConfig) (s : Archive) : Prop :=
  Reaches (Archive.step K) Always Archive.empty s

end LamTo.Model
