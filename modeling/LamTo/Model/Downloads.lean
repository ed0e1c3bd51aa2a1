import LamTo.Library.HeaderParameters
import LamTo.Model.Archive

/-!
# Downloads

The three routes on which a stored document leaves the application: the resident's and the
manager's, each behind a signed token, and the public explorer's. Around the archive stand the
clock of the tokens and the tokens that were issued.

* Each route asks the storage for the object of the version and compares the hash of what it gets
  with the row. The storage answers what it likes: the bytes, other bytes, or nothing.
* The signer is that of Django: a parameter that signs the key of a version and of a user under a
  salt, and reads a token back unless it has expired.
* A resident is issued a token for any version, as various pages do; a manager gets one when the
  redirect has authorized him. Which building a manager has selected, the pages of an error and
  the headers beside the type and the name of the file are left out.

`uploads` is what was uploaded under the key of each version; no route reads it.

SOURCE: src/lamto/api/downloads.py, src/lamto/api/views.py:626-648, src/lamto/documents/access.py,
src/lamto/web/views/documents.py, src/lamto/explorer/views.py:364-422
-/

set_option autoImplicit false

namespace LamTo.Model

open LamTo.Library

/-! ## Names of files -/

/-- `text or "download"` -/
def orDownload (t : Text) : Text := if t = [] then "download".toList else t

/-- `sanitize_download_filename`. SOURCE: downloads.py:50-64 -/
def sanitizeDownloadFilename (U : Unicode) : Option Text → Text
  | none | some [] => "download".toList
  | some (c :: t) =>
    -- `rsplit("/", 1)[-1]` is what `os.path.basename` gives.
    let name := basename ((c :: t).map fun c => if c = '\\' then '/' else c)
    orDownload (strip U (name.filter fun c => c ≠ '\r' && c ≠ '\n' && c ≠ '"'))

/-- `_ascii_fallback_filename`. SOURCE: downloads.py:67-74 -/
def asciiFallbackFilename (U : Unicode) (name : Text) : Text :=
  orDownload (strip U ((name.filter fun c => c.toNat < 128).filter fun c => c ≠ '\\' && c ≠ ';'))

/-- `content_disposition_inline`. SOURCE: downloads.py:77-87 -/
def contentDispositionInline (U : Unicode) (filename : Option Text) : Text :=
  let name := sanitizeDownloadFilename U filename
  "inline; filename=\"".toList ++ (asciiFallbackFilename U name ++
    ("\"; filename*=UTF-8''".toList ++ Percent.quote name))

/-! ## Tokens -/

/-- The payload of a token. -/
structure TokenPayload where
  version : ℕ
  user : ℕ
deriving DecidableEq

/-- `django.core.signing`: `dumps salt payload time` and `loads salt token max_age time`. -/
structure Signing where
  dumps : Text → TokenPayload → ℕ → Text
  loads : Text → Text → ℕ → ℕ → Option TokenPayload

/-- What was signed is read back under its salt, until its age exceeds the maximum. -/
def Signing.Lawful (S : Signing) : Prop :=
  ∀ salt payload issuedAt maxAge now, S.loads salt (S.dumps salt payload issuedAt) maxAge now =
    if now ≤ issuedAt + maxAge then some payload else none

/-- `DOWNLOAD_SALT` -/
def downloadSalt : Text := "lamto.api.download".toList

/-- `STAFF_DOWNLOAD_SALT` -/
def staffDownloadSalt : Text := "lamto.web.staff_download".toList

/-- `DOWNLOAD_MAX_AGE` -/
def downloadMaxAge : ℕ := 300

/-! ## Stored bytes -/

/-- What `_read_stored_version` and the comparison of the hash come to. -/
inductive StoredBytes where
  | unavailable
  | mismatch
  | verified (data : List UInt8)
deriving DecidableEq

/-- The object of a version; a bucket is not asked without the id of a version of the object.
SOURCE: access.py:39-71, 90-108 -/
def readVersion (K : ArchiveConfig) (row : DocumentVersion) (file : StoredFile)
    (answer : Option (List UInt8)) : StoredBytes :=
  if K.backend = .s3 && !validVersionId file.providerVersionId then .unavailable
  else match answer with
    | none => .unavailable
    | some data =>
      if K.hashing.sha256hex ⟨data.toArray⟩ = row.sha256 then .verified data else .mismatch

/-- A version with its file. -/
def Archive.findVersion (s : Archive) (version : ℕ) : Option (DocumentVersion × StoredFile) :=
  (s.db.documentVersions.get? version).bind fun row => (s.files version).map (row, ·)

/-! ## Authorization -/

inductive DocumentAccessError where
  | denied
  | unavailable
  | mismatch
  | service (error : ServiceError)
deriving DecidableEq

/-- Under which rows a user asks for a document. -/
structure DocumentAccess where
  membership : Option ℕ
  auditMembership : Option ℕ
  occupancy : Option ℕ

/-- The memberships and the occupancy that `authorize_download` finds. SOURCE: access.py:74-85 -/
def documentAccess (db : Db) (user building : ℕ) : DocumentAccess :=
  let membership := (requireManagement db user building).toOption.map Prod.fst
  let auditMembership := membership.or
    ((db.memberships.first? fun m => m.user = user && m.active).map Prod.fst)
  let occupancy := if membership.isSome then none else
    (db.occupancies.first? fun o => o.user = user && o.active && o.building = building).map Prod.fst
  let anywhere := if auditMembership.isSome || occupancy.isSome then none else
    (db.occupancies.first? fun o => o.user = user && o.active).map Prod.fst
  ⟨membership, auditMembership, occupancy.or anywhere⟩

/-- `_allowed`. SOURCE: access.py:35-36 -/
def DocumentAccess.allowed (access : DocumentAccess) : Bool :=
  access.membership.isSome || access.occupancy.isSome

/-- `_audit`; `checked` is what is noted when the bytes are not as they should be.
SOURCE: access.py:17-26, 85-109 -/
def auditDownload (db : Db) (user : ℕ) (access : DocumentAccess) (version : ℕ) (result : String)
    (checked : Bool) : Except ServiceError Db :=
  let noted := if checked then
    [("action_item".toList, Json.str "document_integrity_check".toList)] else []
  let metadata := noted ++
    (access.occupancy.map fun pk => ("occupancy_id".toList, Json.int pk)).toList
  match access.auditMembership with
  | some membership =>
    recordAudit db user membership "document.download" "DocumentVersion" version result metadata
  | none =>
    recordAuditWithoutMembership db user "document.download" "DocumentVersion" version result
      access.occupancy metadata

/-- The outcome, once its event is recorded. -/
def afterAudit {α : Type} (db : Db) (recorded : Except ServiceError Db)
    (outcome : Except DocumentAccessError α) : Db × Except DocumentAccessError α :=
  match recorded with
  | .ok db' => (db', outcome)
  | .error e => (db, .error (.service e))

/-- `authorize_download`. SOURCE: access.py:74-110 -/
def authorizeDownload (K : ArchiveConfig) (db : Db) (user version : ℕ) (row : DocumentVersion)
    (file : StoredFile) (building : ℕ) (answer : Option (List UInt8)) :
    Db × Except DocumentAccessError (List UInt8) :=
  let access := documentAccess db user building
  if access.allowed then
    match readVersion K row file answer with
    | .unavailable =>
      afterAudit db (auditDownload db user access version "unavailable" true) (.error .unavailable)
    | .mismatch =>
      afterAudit db (auditDownload db user access version "integrity_mismatch" true)
        (.error .mismatch)
    | .verified data =>
      afterAudit db (auditDownload db user access version "allowed" false) (.ok data)
  else afterAudit db (auditDownload db user access version "denied" false) (.error .denied)

/-! ## Responses -/

structure ServedFile where
  version : ℕ
  body : List UInt8
  contentType : Text
  disposition : Text
deriving DecidableEq

inductive DownloadResponse where
  | document (file : ServedFile)
  | redirect (token : Text)
  | notFound
  | forbidden
  | integrityPage
  | conflict
deriving DecidableEq

structure DownloadConfig extends ArchiveConfig where
  signing : Signing

/-- A token that was handed out. -/
structure IssuedToken where
  salt : Text
  payload : TokenPayload
  issuedAt : ℕ
  token : Text
deriving DecidableEq

structure DownloadState where
  now : ℕ
  archive : Archive
  issued : List IssuedToken
  uploads : ℕ → Option UploadedFile

namespace DownloadState

def empty : DownloadState where
  now := 0
  archive := .empty
  issued := []
  uploads _ := none

def serve (K : DownloadConfig) (version : ℕ) (file : StoredFile) (contentType : Text)
    (data : List UInt8) : DownloadResponse :=
  .document ⟨version, data, contentType, contentDispositionInline K.unicode (some file.filename)⟩

/-- `version.content_type or "application/octet-stream"` -/
def contentTypeOr (file : StoredFile) : Text :=
  if file.contentType = [] then "application/octet-stream".toList else file.contentType

/-- `DocumentDownloadView.get`. SOURCE: api/views.py:628-648 -/
def documentDownload (K : DownloadConfig) (s : DownloadState) (user : ℕ) (token : Text)
    (answer : Option (List UInt8)) : DownloadResponse :=
  match K.signing.loads downloadSalt token downloadMaxAge s.now with
  | none => .notFound
  | some payload =>
    if payload.user ≠ user then .notFound
    else match s.archive.findVersion payload.version with
      | none => .notFound
      | some (row, file) =>
        if residentCanDownload s.archive user payload.version then
          match readVersion K.toArchiveConfig row file answer with
          | .verified data => serve K payload.version file file.contentType data
          | _ => .notFound
        else .notFound

def issue (K : DownloadConfig) (s : DownloadState) (salt : Text) (payload : TokenPayload) :
    DownloadState :=
  { s with issued :=
      ⟨salt, payload, s.now, K.signing.dumps salt payload s.now⟩ :: s.issued }

/-- `require_management_context` raises. SOURCE: web/staff.py:22-25, 48-49 -/
def managesNothing (db : Db) (user : ℕ) : Bool :=
  !db.memberships.any fun m => m.user = user && m.active

def withDb (s : DownloadState) (db : Db) : DownloadState :=
  { s with archive := { s.archive with db } }

/-- A version, authorized for a manager. -/
def authorize (K : DownloadConfig) (s : DownloadState) (user version : ℕ) (row : DocumentVersion)
    (file : StoredFile) (answer : Option (List UInt8))
    (granted : DownloadState → List UInt8 → DownloadState × DownloadResponse) :
    DownloadState × DownloadResponse :=
  match s.archive.db.documents.get? row.document with
  | none => (s, .notFound)
  | some d =>
    match authorizeDownload K.toArchiveConfig s.archive.db user version row file d.building
        answer with
    | (db, .ok data) => granted (s.withDb db) data
    | (db, .error .unavailable) | (db, .error .mismatch) => (s.withDb db, .integrityPage)
    | (db, .error _) => (s.withDb db, .notFound)

/-- `staff_document_redirect`. SOURCE: web/views/documents.py:50-64 -/
def staffDocumentRedirect (K : DownloadConfig) (s : DownloadState) (user version : ℕ)
    (answer : Option (List UInt8)) : DownloadState × DownloadResponse :=
  if managesNothing s.archive.db user then (s, .forbidden)
  else match s.archive.findVersion version with
    | none => (s, .notFound)
    | some (row, file) =>
      s.authorize K user version row file answer fun t _ =>
        (t.issue K staffDownloadSalt ⟨version, user⟩,
          .redirect (K.signing.dumps staffDownloadSalt ⟨version, user⟩ t.now))

/-- `staff_document_download`. SOURCE: web/views/documents.py:67-94 -/
def staffDocumentDownload (K : DownloadConfig) (s : DownloadState) (user : ℕ) (token : Text)
    (answer : Option (List UInt8)) : DownloadState × DownloadResponse :=
  if managesNothing s.archive.db user then (s, .forbidden)
  else match K.signing.loads staffDownloadSalt token downloadMaxAge s.now with
    | none => (s, .notFound)
    | some payload =>
      if payload.user ≠ user then (s, .notFound)
      else match s.archive.findVersion payload.version with
        | none => (s, .notFound)
        | some (row, file) =>
          s.authorize K user payload.version row file answer fun t data =>
            (t, serve K payload.version file (contentTypeOr file) data)

/-- `document_download`. SOURCE: explorer/views.py:387-422 -/
def explorerDownload (K : DownloadConfig) (s : DownloadState) (publicToken sha256 : Text)
    (answer : Option (List UInt8)) : DownloadResponse :=
  match s.archive.db.proposals.first? fun p => p.publicToken = some publicToken with
  | none => .notFound
  | some (proposal, _) =>
    match explorerDocument s.archive.db proposal sha256 with
    | none => .notFound
    | some version =>
      match s.archive.findVersion version with
      | none => .notFound
      | some (row, file) =>
        match readVersion K.toArchiveConfig row file answer with
        | .verified data => serve K version file (contentTypeOr file) data
        | _ => .conflict

end DownloadState

/-! ## The system -/

inductive DownloadAction where
  | tick (elapsed : ℕ)
  | archive (action : ArchiveAction)
  | issueDownloadToken (user version : ℕ)
  | documentDownload (user : ℕ) (token : Text) (answer : Option (List UInt8))
  | staffDocumentRedirect (user version : ℕ) (answer : Option (List UInt8))
  | staffDocumentDownload (user : ℕ) (token : Text) (answer : Option (List UInt8))
  | explorerDownload (publicToken sha256 : Text) (answer : Option (List UInt8))

namespace DownloadState

/-- What was uploaded under each key, after a step of the archive. -/
def uploadsAfter (s : DownloadState) (t : Archive) : ArchiveAction → ℕ → Option UploadedFile
  | .upload _ _ f _ =>
    let pk := s.archive.db.documentVersions.next
    if (t.db.documentVersions.get? pk).isSome then Function.update s.uploads pk (some f)
    else s.uploads
  | _ => s.uploads

/-- One request, or a step of the archive; the state after it and the response. -/
def respond (K : DownloadConfig) (s : DownloadState) :
    DownloadAction → Option (DownloadState × Option DownloadResponse)
  | .tick elapsed => some ({ s with now := s.now + elapsed }, none)
  | .archive action =>
    (Archive.step K.toArchiveConfig s.archive action).map fun t =>
      ({ s with archive := t, uploads := s.uploadsAfter t action }, none)
  | .issueDownloadToken user version =>
    some (s.issue K downloadSalt ⟨version, user⟩, none)
  | .documentDownload user token answer => some (s, some (s.documentDownload K user token answer))
  | .staffDocumentRedirect user version answer =>
    let (t, response) := s.staffDocumentRedirect K user version answer
    some (t, some response)
  | .staffDocumentDownload user token answer =>
    let (t, response) := s.staffDocumentDownload K user token answer
    some (t, some response)
  | .explorerDownload publicToken sha256 answer =>
    some (s, some (s.explorerDownload K publicToken sha256 answer))

def step (K : DownloadConfig) (s : DownloadState) (a : DownloadAction) : Option DownloadState :=
  (s.respond K a).map Prod.fst

/-- A token that the signer accepts was issued under the salt of the route. -/
def unforged (K : DownloadConfig) (s : DownloadState) : DownloadAction → Bool
  | .documentDownload _ token _ => known K s downloadSalt token
  | .staffDocumentDownload _ token _ => known K s staffDownloadSalt token
  | _ => true
where
  known (K : DownloadConfig) (s : DownloadState) (salt token : Text) : Bool :=
    (K.signing.loads salt token downloadMaxAge s.now).isNone ||
      s.issued.any fun i => i.salt = salt && i.token = token

end DownloadState

end LamTo.Model
