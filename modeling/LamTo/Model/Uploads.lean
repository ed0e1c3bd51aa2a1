import LamTo.Model.Services

/-!
# Uploads, their files and the quarantine

The database and the private storage are two things: an exception takes back what a transaction
wrote to the tables and leaves the objects it stored. `Archive` has both, with the columns of a
document version that only its file needs, the quarantine, the photos of the reports and the
bills. A call returns the archive it leaves beside its value or its exception, so that what a call
outside a transaction has written stays.

The scanner, the image library and the storage service answer as an argument says. `uuid` is what
`uuid4` draws. The text of an uploaded file's name is as the caller gives it.

SOURCE: src/lamto/documents/services.py, models.py, src/lamto/web/staff_documents.py:24-71,
src/lamto/maintenance/reporting.py:147-217
-/

set_option autoImplicit false

namespace LamTo.Model

open LamTo.Library

/-! ## Rows -/

/-- The columns of a `DocumentVersion` beside those of `Db.documentVersions`. -/
structure StoredFile where
  version : ℕ
  storageKey : Text
  providerVersionId : Text
  filename : Text
  contentType : Text
  byteSize : ℕ
  uploader : ℕ
  createdAt : ℕ
deriving DecidableEq

structure QuarantinedUpload where
  uploader : ℕ
  building : Option ℕ
  filename : Text
  contentType : Text
  byteSize : ℕ
  sha256 : Text
  reason : Text
  storageKey : Option Text
  providerVersionId : Text
  retentionExpiresAt : ℕ
deriving DecidableEq

structure ReportPhoto where
  report : ℕ
  version : ℕ
  contentSha : Text
deriving DecidableEq

/-- `Bill.Status`. -/
inductive BillStatus where
  | issued
  | paid
  | void
deriving DecidableEq

/-- `Bill.PaymentSource`. -/
inductive PaymentSource where
  | selfAttestedDemo
  | bankWebhook
  | managementManual
deriving DecidableEq

structure Bill where
  building : ℕ
  resident : ℕ
  title : Text
  note : Text
  period : Text
  dueDate : Option Date
  amountVnd : ℕ
  document : ℕ
  reference : Text
  status : BillStatus
  paymentSource : Option PaymentSource
  issuedBy : ℕ
  paidAt : Option ℕ
  paidConfirmedBy : Option ℕ
  voidBy : Option ℕ
  voidAt : Option ℕ
  voidReason : Text
deriving DecidableEq

/-- The tables and the private storage; `objects` are the keys of the stored objects. -/
structure Archive where
  db : Db
  files : ℕ → Option StoredFile
  quarantine : Table QuarantinedUpload
  photos : Table ReportPhoto
  bills : Table Bill
  objects : List Text

def Archive.empty : Archive where
  db := .empty
  files _ := none
  quarantine := .empty
  photos := .empty
  bills := .empty
  objects := []

/-! ## Parameters -/

/-- The class of the private storage. -/
inductive StorageBackend where
  | fileSystem
  | s3
deriving DecidableEq

/-- `Image.open(...).verify()`: it returns, raises an error that is caught, or another one. -/
inductive ImageCheck where
  | valid
  | invalid
  | raised
deriving DecidableEq

/-- What the scanner does. -/
inductive ScanOutcome where
  | clean
  | infected
  | raised
deriving DecidableEq

/-- What the storage service does: nothing, or it takes the object and answers. -/
inductive PutOutcome where
  | refused
  | taken (versionId : Text)
deriving DecidableEq

structure ArchiveConfig extends EvidenceConfig where
  /-- `DOCUMENT_MAX_UPLOAD_BYTES` -/
  maxBytes : ℕ
  /-- `DOCUMENT_QUARANTINE_RETENTION_DAYS`, in microseconds -/
  retention : ℕ
  backend : StorageBackend
  verifyImage : List UInt8 → ImageCheck

/-- The file of a request; an attribute may be missing. -/
structure UploadedFile where
  name : Option Text
  contentType : Option Text
  size : Option ℕ
  chunks : List (List UInt8)

inductive UploadError where
  | rejected (reason : Text)
  | quarantined (reason : Text)
  | storage
  | image
  | service (error : ServiceError)
deriving DecidableEq

/-- `DocumentUploadRejected` or `DocumentUploadQuarantined`. -/
def UploadError.refusal : UploadError → Bool
  | .rejected _ | .quarantined _ => true
  | _ => false

/-! ## The checks of a file -/

/-- `MIME_SIGNATURES` -/
def mimeSignature (contentType : Text) : Option (List UInt8) :=
  if contentType = "application/pdf".toList then some [0x25, 0x50, 0x44, 0x46, 0x2d]
  else if contentType = "image/jpeg".toList then some [0xff, 0xd8, 0xff]
  else if contentType = "image/png".toList then
    some [0x89, 0x50, 0x4e, 0x47, 0x0d, 0x0a, 0x1a, 0x0a]
  else none

/-- `_allowed_content_types`. SOURCE: services.py:82-87 -/
def allowedContentTypes : DocumentKind → List Text
  | .reportPhoto => ["image/jpeg".toList, "image/png".toList]
  | .residentBill => ["application/pdf".toList, "image/jpeg".toList, "image/png".toList]
  | _ => ["application/pdf".toList]

/-- `os.path.basename` -/
def basename (path : Text) : Text := (path.reverse.takeWhile (· ≠ '/')).reverse

structure FileMetadata where
  filename : Text
  contentType : Text
  byteSize : ℕ
deriving DecidableEq

/-- `_metadata`. SOURCE: services.py:90-95 -/
def UploadedFile.metadata (f : UploadedFile) : FileMetadata where
  filename := (basename (f.name.getD "upload".toList)).take 255
  contentType := f.contentType.getD []
  byteSize := f.size.getD 0

/-- The bytes of the file. -/
def UploadedFile.content (f : UploadedFile) : List UInt8 := f.chunks.flatten

/-- The bytes written when the limit is first passed, with `written` before. -/
def passedLimit (limit : ℕ) : ℕ → List (List UInt8) → Option ℕ
  | _, [] => none
  | written, chunk :: chunks =>
    if limit < written + chunk.length then some (written + chunk.length)
    else passedLimit limit (written + chunk.length) chunks

/-- What the checks before the scan decide. -/
inductive Inspection where
  | accepted (m : FileMetadata)
  | rejected (m : FileMetadata) (reason : Text)
  | raised
deriving DecidableEq

/-- The checks of `create_document_version` before the scan. SOURCE: services.py:225-253 -/
def inspect (K : ArchiveConfig) (kind : DocumentKind) (f : UploadedFile) : Inspection :=
  let m := f.metadata
  if !(allowedContentTypes kind).contains m.contentType then
    .rejected m "unsupported content type".toList
  else if K.maxBytes < m.byteSize then .rejected m "upload exceeds size limit".toList
  else match passedLimit K.maxBytes 0 f.chunks with
    | some n => .rejected { m with byteSize := n } "upload exceeds size limit".toList
    | none =>
      let m := { m with byteSize := f.content.length }
      if !(mimeSignature m.contentType).any (·.isPrefixOf (f.content.take 8)) then
        .rejected m "file signature does not match content type".toList
      else if "image/".toList.isPrefixOf m.contentType then
        match K.verifyImage f.content with
        | .valid => .accepted m
        | .invalid => .rejected m "image verification failed".toList
        | .raised => .raised
      else .accepted m

/-! ## Storage -/

/-- The test of a `VersionId`. SOURCE: services.py:152 -/
def validVersionId (id : Text) : Bool := id ≠ [] && lower id ≠ "null".toList

/-- `_store`: S3 has to answer with a version of its own, and a file system answers with the key.
SOURCE: services.py:136-156 -/
def store (K : ArchiveConfig) (s : Archive) (key : Text) (put : PutOutcome) :
    Archive × Except UploadError Text :=
  match put with
  | .refused => (s, .error .storage)
  | .taken id =>
    let s := { s with objects := key :: s.objects }
    match K.backend with
    | .fileSystem => (s, .ok key)
    | .s3 => if validVersionId id then (s, .ok id) else (s, .error .storage)

/-- An exception rolls the tables back; the storage stays. -/
def atomic {ε α : Type} (s : Archive) (call : Archive → Archive × Except ε α) :
    Archive × Except ε α :=
  match call s with
  | (t, .ok a) => (t, .ok a)
  | (t, .error e) => ({ s with objects := t.objects }, .error e)

/-! ## Refusals -/

/-- Who uploads: a manager under a membership, or a resident under an occupancy. -/
inductive Uploading where
  | member (membership : ℕ)
  | resident (occupancy : ℕ)
deriving DecidableEq

/-- The first checks of `create_document_version`. SOURCE: services.py:210-224 -/
def uploadingAs (db : Db) (document : Document) (uploader : ℕ) (allowResidentOccupancy : Bool) :
    Except ServiceError Uploading :=
  match requireManagement db uploader document.building with
  | .ok (pk, _) => .ok (.member pk)
  | .error _ =>
    if allowResidentOccupancy && document.kind = .reportPhoto then
      match db.occupancies.first? fun o =>
          o.user = uploader && o.active && o.building = document.building with
      | some (pk, _) => .ok (.resident pk)
      | none => .error (.permissionDenied "Active occupancy is required to upload report photos.")
    else .error (.permissionDenied "Document uploader does not belong to this building.")

/-- `QuarantinedUpload.objects.create` -/
def createQuarantinedUpload (s : Archive) (row : QuarantinedUpload) :
    Except ServiceError (ℕ × Archive) := do
  let _ ← textColumn "filename" (some 255) row.filename
  let _ ← textColumn "content_type" (some 127) row.contentType
  let _ ← textColumn "reason" (some 255) row.reason
  let _ ← textColumn "provider_version_id" (some 512) row.providerVersionId
  require (row.byteSize < 2 ^ 63) (ServiceError.data "byte_size")
  require (row.storageKey.any (fun k => s.quarantine.any (·.storageKey = some k)) = false)
    (ServiceError.integrity "documents_quarantinedupload_storage_key_key")
  return (s.quarantine.next, { s with quarantine := s.quarantine.insert row })

/-- The audit event of a refused upload. SOURCE: services.py:119-133, 281-298 -/
def auditRefusal (db : Db) (uploader : ℕ) (actor : Uploading) (action result : String) (target : ℕ)
    (reason : Text) : Except ServiceError Db :=
  match actor with
  | .member membership =>
    recordAudit db uploader membership action "DocumentUpload" target result
      [("reason".toList, .str reason)]
  | .resident occupancy =>
    recordAuditWithoutMembership db uploader "document.upload" "DocumentVersion" target result
      (some occupancy) [("occupancy_id".toList, .int occupancy), ("reason".toList, .str reason)]

/-- The row of a refused upload and its audit event, each a statement of its own: the key of the
row. -/
def registerRefusal (s : Archive) (uploader : ℕ) (actor : Uploading) (row : QuarantinedUpload)
    (action result : String) : Archive × Except UploadError ℕ :=
  match createQuarantinedUpload s row with
  | .error e => (s, .error (.service e))
  | .ok (pk, s) =>
    match auditRefusal s.db uploader actor action result pk row.reason with
    | .error e => (s, .error (.service e))
    | .ok db => ({ s with db }, .ok pk)

/-- A call that raises where it would return. -/
def raising (call : Archive × Except UploadError ℕ) (error : UploadError) :
    Archive × Except UploadError ℕ :=
  match call with
  | (s, .ok _) => (s, .error error)
  | (s, .error e) => (s, .error e)

/-- `_create_rejection`. SOURCE: services.py:102-133 -/
def createRejection (K : ArchiveConfig) (s : Archive) (now uploader building : ℕ)
    (actor : Uploading) (m : FileMetadata) (reason : Text) : Archive × Except UploadError ℕ :=
  raising (registerRefusal s uploader actor
    { uploader, building := some building, filename := m.filename, contentType := m.contentType,
      byteSize := m.byteSize, sha256 := [], reason, storageKey := none, providerVersionId := [],
      retentionExpiresAt := now + K.retention }
    "document.upload_rejected" "rejected") (.rejected reason)

/-- `quarantine/<uuid>` -/
def quarantineKey (uuid : Text) : Text := "quarantine/".toList ++ uuid

/-- `hashlib.sha256(content).hexdigest()` -/
def contentHash (K : ArchiveConfig) (f : UploadedFile) : Text :=
  K.hashing.sha256hex ⟨f.content.toArray⟩

/-- What a call depends on beside the archive: the time, and how the services answer. -/
structure Surroundings where
  now : ℕ
  scan : ScanOutcome
  put : PutOutcome
  uuid : Text

/-- The row of a stored object. SOURCE: services.py:178-187, 271-280 -/
def quarantinedRow (K : ArchiveConfig) (uploader building : ℕ) (f : UploadedFile)
    (m : FileMetadata) (reason : Text) (w : Surroundings) (providerVersionId : Text) :
    QuarantinedUpload where
  uploader := uploader
  building := some building
  filename := m.filename
  contentType := m.contentType
  byteSize := m.byteSize
  sha256 := contentHash K f
  reason := reason
  storageKey := some (quarantineKey w.uuid)
  providerVersionId := providerVersionId
  retentionExpiresAt := w.now + K.retention

/-- The object of a refused upload is stored before its row. SOURCE: services.py:175-196, 262-299 -/
def storeQuarantined (K : ArchiveConfig) (s : Archive) (uploader building : ℕ) (actor : Uploading)
    (f : UploadedFile) (m : FileMetadata) (reason : Text) (w : Surroundings) :
    Archive × Except UploadError ℕ :=
  match store K s (quarantineKey w.uuid) w.put with
  | (s, .error e) => (s, .error e)
  | (s, .ok providerVersionId) =>
    registerRefusal s uploader actor
      (quarantinedRow K uploader building f m reason w providerVersionId)
      "document.upload_quarantined" "quarantined"

/-- `quarantine_upload`: the key of the row. SOURCE: services.py:159-206 -/
def quarantineUpload (K : ArchiveConfig) (s : Archive) (f : UploadedFile) (uploader : ℕ)
    (reason : Text) (w : Surroundings) : Archive × Except UploadError ℕ :=
  match s.db.memberships.select fun m => m.user = uploader && m.active with
  | [] => (s, .error (.service (.permissionDenied "Quarantine upload cannot be audited.")))
  | (pk, m) :: rest =>
    if rest.all fun r => r.2.building = m.building then
      storeQuarantined K s uploader m.building (.member pk) f
        { f.metadata with byteSize := f.content.length } reason w
    else
      (s, .error (.service (.permissionDenied ("Ambiguous building for quarantine; " ++
        "active membership must be unique to one building."))))

/-! ## Document versions -/

/-- The largest version number of a document. -/
def Archive.lastVersion (s : Archive) (document : ℕ) : ℕ :=
  ((s.db.documentVersions.select fun v => v.document = document).map fun r =>
    ((s.files r.1).map StoredFile.version).getD 0).foldr max 0

/-- A document version has the key of an object. -/
def Archive.keyTaken (s : Archive) (key : Text) : Bool :=
  s.db.documentVersions.rows.any fun r => (s.files r.1).any fun f => f.storageKey = key

/-- `documents/<pk>/<uuid>` -/
def documentKey (document : ℕ) (uuid : Text) : Text :=
  "documents/".toList ++ Nat.toDigits 10 document ++ '/' :: uuid

/-- `DocumentVersion.objects.create` -/
def createVersionRow (K : ArchiveConfig) (s : Archive) (document : ℕ) (f : UploadedFile)
    (file : StoredFile) : Except ServiceError (ℕ × Archive) := do
  let _ ← textColumn "filename" (some 255) file.filename
  let _ ← textColumn "provider_version_id" (some 512) file.providerVersionId
  require (file.byteSize < 2 ^ 63) (ServiceError.data "byte_size")
  require (s.keyTaken file.storageKey = false)
    (ServiceError.integrity "documents_documentversion_storage_key_key")
  let pk := s.db.documentVersions.next
  return (pk, { s with
    db := { s.db with
      documentVersions := s.db.documentVersions.insert ⟨document, contentHash K f, true⟩ }
    files := Function.update s.files pk (some file) })

/-- The audit event of an upload that is kept. SOURCE: services.py:322-333 -/
def auditUpload (db : Db) (uploader : ℕ) (actor : Uploading) (version : ℕ) :
    Except ServiceError Db :=
  match actor with
  | .member membership =>
    recordAudit db uploader membership "document.upload" "DocumentUpload" version "allowed" []
  | .resident occupancy =>
    recordAuditWithoutMembership db uploader "document.upload" "DocumentVersion" version "allowed"
      (some occupancy) [("occupancy_id".toList, .int occupancy)]

/-- The row of a stored version, and its audit event. -/
def recordVersion (K : ArchiveConfig) (s : Archive) (uploader document : ℕ) (actor : Uploading)
    (f : UploadedFile) (file : StoredFile) : Archive × Except UploadError ℕ :=
  match createVersionRow K s document f file with
  | .error e => (s, .error (.service e))
  | .ok (pk, s) =>
    match auditUpload s.db uploader actor pk with
    | .error e => (s, .error (.service e))
    | .ok db => ({ s with db }, .ok pk)

/-- The object of a clean upload, and its row. SOURCE: services.py:301-334 -/
def storeVersion (K : ArchiveConfig) (s : Archive) (uploader document : ℕ) (actor : Uploading)
    (f : UploadedFile) (m : FileMetadata) (w : Surroundings) : Archive × Except UploadError ℕ :=
  let version := s.lastVersion document + 1
  let storageKey := documentKey document w.uuid
  match store K s storageKey w.put with
  | (s, .error e) => (s, .error e)
  | (s, .ok providerVersionId) =>
    recordVersion K s uploader document actor f
      { version, storageKey, providerVersionId, filename := m.filename,
        contentType := m.contentType, byteSize := m.byteSize, uploader, createdAt := w.now }

/-- `create_document_version`: the key of the version. SOURCE: services.py:209-334 -/
def createDocumentVersion (K : ArchiveConfig) (s : Archive) (document : ℕ) (f : UploadedFile)
    (uploader : ℕ) (w : Surroundings) (allowResidentOccupancy : Bool) :
    Archive × Except UploadError ℕ :=
  match s.db.documents.get? document with
  | none => (s, .error (.service (.doesNotExist "Document")))
  | some d =>
    match uploadingAs s.db d uploader allowResidentOccupancy with
    | .error e => (s, .error (.service e))
    | .ok actor =>
      match inspect K d.kind f with
      | .raised => (s, .error .image)
      | .rejected m reason => createRejection K s w.now uploader d.building actor m reason
      | .accepted m =>
        match w.scan with
        | .clean => storeVersion K s uploader document actor f m w
        | .infected =>
          raising (storeQuarantined K s uploader d.building actor f m "malware detected".toList w)
            (.quarantined "malware detected".toList)
        | .raised =>
          raising
            (storeQuarantined K s uploader d.building actor f m "scanner unavailable".toList w)
            (.quarantined "scanner unavailable".toList)

/-! ## Callers -/

/-- A new document and its first version. -/
def createWithDocument (K : ArchiveConfig) (s : Archive) (document : Document) (f : UploadedFile)
    (uploader : ℕ) (w : Surroundings) (allowResidentOccupancy : Bool) :
    Archive × Except UploadError ℕ :=
  createDocumentVersion K
    { s with db := { s.db with documents := s.db.documents.insert document } } s.db.documents.next f
    uploader w allowResidentOccupancy

/-- `upload_document`. The list of blobs it purges after an exception is filled when the version
is there, so it is empty then. The `ValidationError` it raises for a refusal has the refusal's
reason; here it stays the refusal. SOURCE: staff_documents.py:42-71 -/
def uploadDocument (K : ArchiveConfig) (s : Archive) (building : ℕ) (kind : DocumentKind)
    (uploader : ℕ) (f : UploadedFile) (w : Surroundings) : Archive × Except UploadError ℕ :=
  atomic s fun s => createWithDocument K s ⟨building, kind⟩ f uploader w false

/-- The photo of a report with a content. -/
def Archive.photoOf (s : Archive) (report : ℕ) (contentSha : Text) : Option (ℕ × ReportPhoto) :=
  s.photos.first? fun p => p.report = report && p.contentSha = contentSha

/-- `attach_report_photo`: the key of the version. SOURCE: reporting.py:157-217 -/
def attachReportPhoto (K : ArchiveConfig) (s : Archive) (resident report : ℕ) (f : UploadedFile)
    (w : Surroundings) : Archive × Except UploadError ℕ :=
  match s.db.reports.get? report with
  | none => (s, .error (.service (.doesNotExist "IssueReport")))
  | some r =>
    if s.db.occupancies.any fun o => o.user = resident && o.active && o.building = r.building then
      match s.photoOf report (contentHash K f) with
      | some (_, photo) => (s, .ok photo.version)
      | none =>
        atomic s fun s =>
          match createWithDocument K s ⟨r.building, .reportPhoto⟩ f resident w true with
          | (s, .error e) => (s, .error e)
          | (s, .ok version) =>
            ({ s with photos := s.photos.insert ⟨report, version, contentHash K f⟩ }, .ok version)
    else
      (s, .error (.service (.permissionDenied
        "Active occupancy in the report building is required.")))

/-- The callers of `create_document_version`. -/
inductive UploadCaller where
  | direct (document : ℕ) (allowResidentOccupancy : Bool)
  | uploadDocument (building : ℕ) (kind : DocumentKind)
  | attachReportPhoto (report : ℕ)
deriving DecidableEq

def upload (K : ArchiveConfig) (s : Archive) (caller : UploadCaller) (uploader : ℕ)
    (f : UploadedFile) (w : Surroundings) : Archive × Except UploadError ℕ :=
  match caller with
  | .direct document allow => createDocumentVersion K s document f uploader w allow
  | .uploadDocument building kind => uploadDocument K s building kind uploader f w
  | .attachReportPhoto report => attachReportPhoto K s uploader report f w

/-! ## The end of the retention -/

/-- The quarantined objects whose retention is over. SOURCE: services.py:339-341 -/
def expiredQuarantine (s : Archive) (now : ℕ) : List (ℕ × QuarantinedUpload) :=
  s.quarantine.select fun q => q.storageKey.any (· ≠ []) && q.retentionExpiresAt ≤ now

/-- The loop of `purge_expired_quarantine`; `unreachable` are the keys whose deletion raises. -/
def purgeObjects (K : ArchiveConfig) (unreachable : Text → Bool) :
    List (ℕ × QuarantinedUpload) → List Text → List Text × Except UploadError Unit
  | [], objects => (objects, .ok ())
  | (_, q) :: rest, objects =>
    if K.backend = .s3 && !validVersionId q.providerVersionId then (objects, .error .storage)
    else if q.storageKey.any unreachable then (objects, .error .storage)
    else purgeObjects K unreachable rest (objects.filter fun k => q.storageKey ≠ some k)

/-- `purge_expired_quarantine`: the number of rows. SOURCE: services.py:337-354 -/
def purgeExpiredQuarantine (K : ArchiveConfig) (s : Archive) (now : ℕ)
    (unreachable : Text → Bool) : Archive × Except UploadError ℕ :=
  let expired := expiredQuarantine s now
  match purgeObjects K unreachable expired s.objects with
  | (objects, .ok ()) => ({ s with objects }, .ok expired.length)
  | (objects, .error e) => ({ s with objects }, .error e)

end LamTo.Model
