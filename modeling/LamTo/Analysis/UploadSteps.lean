import LamTo.Analysis.FinanceSteps
import LamTo.Model.Archive

/-!
# What an upload leaves

`create_document_version` read backwards: whatever the file and the services do, the call leaves
the archive as it was, with an object no row names, with the row of a refusal, or with a version
(`VersionEffect`). The audit event of an uploader that passed the first check is always accepted,
so that a refusal that is raised has been registered. A caller that wraps the call in a transaction
keeps the objects and takes the rows back (`UploadEffect`).

SOURCE: src/lamto/documents/services.py:102-334, src/lamto/web/staff_documents.py:42-71,
src/lamto/maintenance/reporting.py:157-217
-/

set_option autoImplicit false

namespace LamTo.Analysis

open LamTo.Library LamTo.Model

variable {K : ArchiveConfig} {s : Archive}

/-! ## The audit of an upload -/

/-- The audit event names the uploader, its target and the result. -/
structure AuditOf (event : AuditEvent) (actor target : ℕ) (result : String) : Prop where
  actor_eq : event.actor = actor
  target_eq : event.targetId = target
  result_eq : event.result = result

/-- The actor of an upload may be recorded. -/
def MayAudit (db : Db) (uploader : ℕ) : Uploading → Prop
  | .member membership => (db.memberships.get? membership).any fun m => m.user = uploader && m.active
  | .resident occupancy => (db.occupancies.get? occupancy).any fun o => o.user = uploader && o.active

theorem uploadingAs_mayAudit (db : Db) (d : Document) (uploader : ℕ) (allow : Bool)
    (actor : Uploading) (h : uploadingAs db d uploader allow = .ok actor) :
    MayAudit db uploader actor := by
  unfold uploadingAs at h
  split at h
  · next pk m hmember =>
    cases h
    obtain ⟨hget, huser, _, hactive⟩ := requireManagement_eq_ok _ _ _ _ _ hmember
    show ((db.memberships.get? pk).any fun m => m.user = uploader && m.active) = true
    rw [hget, Option.any_some, huser, hactive]
    simp
  · split at h
    · split at h
      · next pk o hfind =>
        cases h
        obtain ⟨hget, ho⟩ := Table.first?_eq_some _ _ _ _ hfind
        rw [Bool.and_eq_true] at ho
        show ((db.occupancies.get? pk).any fun o => o.user = uploader && o.active) = true
        rw [hget, Option.any_some]
        exact ho.1
      · cases h
    · cases h

theorem recordAudit_ok (db : Db) (actor membership target : ℕ) (action targetType result : String)
    (metadata : List (Text × Json))
    (h : (db.memberships.get? membership).any (fun m => m.user = actor && m.active) = true) :
    ∃ event, AuditOf event actor target result ∧
      recordAudit db actor membership action targetType target result metadata =
        .ok { db with audit := db.audit.insert event } := by
  refine ⟨⟨actor, some membership, action, targetType, target, .obj metadata, result⟩,
    ⟨rfl, rfl, rfl⟩, ?_⟩
  rw [recordAudit, require_true _ _ h]
  rfl

theorem recordUpload_ok (db : Db) (actor occupancy target : ℕ) (result : String)
    (metadata : List (Text × Json))
    (h : (db.occupancies.get? occupancy).any (fun o => o.user = actor && o.active) = true) :
    ∃ event, AuditOf event actor target result ∧
      recordAuditWithoutMembership db actor "document.upload" "DocumentVersion" target result
        (some occupancy) metadata = .ok { db with audit := db.audit.insert event } := by
  refine ⟨⟨actor, none, "document.upload", "DocumentVersion", target, .obj metadata, result⟩,
    ⟨rfl, rfl, rfl⟩, ?_⟩
  have hresident : residentAction "document.upload" "DocumentVersion" = true := by decide
  rw [recordAuditWithoutMembership, Option.any_some, h, hresident, require_true]
  · rfl
  · rw [Bool.and_true, Bool.or_true, Bool.true_or]

theorem auditRefusal_ok (db : Db) (uploader target : ℕ) (actor : Uploading) (action result : String)
    (reason : Text) (h : MayAudit db uploader actor) :
    ∃ event, AuditOf event uploader target result ∧
      auditRefusal db uploader actor action result target reason =
        .ok { db with audit := db.audit.insert event } := by
  cases actor with
  | member membership => exact recordAudit_ok db uploader membership target _ _ result _ h
  | resident occupancy => exact recordUpload_ok db uploader occupancy target result _ h

theorem auditUpload_ok (db : Db) (uploader target : ℕ) (actor : Uploading)
    (h : MayAudit db uploader actor) :
    ∃ event, AuditOf event uploader target "allowed" ∧
      auditUpload db uploader actor target = .ok { db with audit := db.audit.insert event } := by
  cases actor with
  | member membership => exact recordAudit_ok db uploader membership target _ _ _ _ h
  | resident occupancy => exact recordUpload_ok db uploader occupancy target _ _ h

/-! ## The row of a refusal -/

/-- A text that the column takes. -/
def fits (limit : ℕ) (t : Text) : Bool := nul ∉ t && t.length ≤ limit

theorem textColumn_ok (column : String) (limit : ℕ) (t : Text) (h : fits limit t = true) :
    textColumn column (some limit) t = .ok t := by
  simp only [fits, Bool.and_eq_true, decide_eq_true_eq] at h
  rw [textColumn, require_true _ _ h.1]
  show (require _ _ >>= fun _ => pure t) = _
  rw [require_true _ _ (by simpa using h.2)]
  rfl

/-- What is asked of a row of the quarantine. -/
structure RowFits (s : Archive) (row : QuarantinedUpload) : Prop where
  filename : fits 255 row.filename = true
  contentType : fits 127 row.contentType = true
  reason : fits 255 row.reason = true
  providerVersionId : fits 512 row.providerVersionId = true
  byteSize : row.byteSize < 2 ^ 63
  unique : row.storageKey.any (fun k => s.quarantine.any (·.storageKey = some k)) = false

theorem createQuarantinedUpload_ok (row : QuarantinedUpload) (h : RowFits s row) :
    createQuarantinedUpload s row =
      .ok (s.quarantine.next, { s with quarantine := s.quarantine.insert row }) := by
  rw [createQuarantinedUpload, textColumn_ok _ _ _ h.filename, ok_bind,
    textColumn_ok _ _ _ h.contentType, ok_bind, textColumn_ok _ _ _ h.reason, ok_bind,
    textColumn_ok _ _ _ h.providerVersionId, ok_bind, require_true _ _ h.byteSize, ok_bind,
    require_true _ _ h.unique, ok_bind]
  rfl

/-- **A refusal is registered**, or its row does not fit the columns and nothing is written. -/
theorem registerRefusal_eq (uploader : ℕ) (actor : Uploading) (row : QuarantinedUpload)
    (action result : String) (hactor : MayAudit s.db uploader actor) :
    (∃ e, ¬ RowFits s row ∧
      registerRefusal s uploader actor row action result = (s, .error (.service e))) ∨
    ∃ event, AuditOf event uploader s.quarantine.next result ∧
      registerRefusal s uploader actor row action result =
        ({ s with
          quarantine := s.quarantine.insert row
          db := { s.db with audit := s.db.audit.insert event } }, .ok s.quarantine.next) := by
  unfold registerRefusal
  cases hcreate : createQuarantinedUpload s row with
  | error e =>
    refine .inl ⟨e, fun hfits => ?_, rfl⟩
    rw [createQuarantinedUpload_ok row hfits] at hcreate
    cases hcreate
  | ok created =>
    have hcreated : created = (s.quarantine.next, { s with quarantine := s.quarantine.insert row }) := by
      simp only [createQuarantinedUpload, bind_eq_ok, pure_eq_ok] at hcreate
      obtain ⟨_, _, _, _, _, _, _, _, _, _, _, _, heq⟩ := hcreate
      exact heq.symm
    subst hcreated
    obtain ⟨event, haudit, hok⟩ := auditRefusal_ok s.db uploader s.quarantine.next actor action result
      row.reason hactor
    exact .inr ⟨event, haudit, by dsimp only; rw [hok]⟩

/-! ## Fresh keys -/

theorem freshUuid_object (uuid pre : Text) (h : s.freshUuid uuid = true) :
    pre ++ uuid ∉ s.objects := by
  intro hmem
  simp only [Archive.freshUuid, Bool.and_eq_true, Bool.not_eq_true'] at h
  have hany := List.any_eq_false.mp h.1.1.2 (pre ++ uuid) hmem
  exact hany (List.isSuffixOf_iff_suffix.mpr (List.suffix_append pre uuid))

theorem freshUuid_quarantine (uuid pre : Text) (h : s.freshUuid uuid = true) :
    s.quarantine.any (·.storageKey = some (pre ++ uuid)) = false := by
  simp only [Archive.freshUuid, Bool.and_eq_true, Bool.not_eq_true'] at h
  rw [Table.any_eq_false]
  intro pk q hq
  have hnone := (Table.any_eq_false _ _).mp h.1.2 pk q hq
  refine decide_eq_false fun hkey => ?_
  rw [hkey, Option.any_some] at hnone
  rw [List.isSuffixOf_iff_suffix.mpr (List.suffix_append pre uuid)] at hnone
  cases hnone

theorem freshUuid_keyTaken (uuid pre : Text) (h : s.freshUuid uuid = true) :
    s.keyTaken (pre ++ uuid) = false := by
  simp only [Archive.freshUuid, Bool.and_eq_true, Bool.not_eq_true'] at h
  refine List.any_eq_false.mpr fun r hr htaken => ?_
  have hnone := List.any_eq_false.mp h.2 r hr
  refine hnone ?_
  obtain ⟨file, hfile, hkey⟩ := (Option.any_eq_true _ _).mp htaken
  rw [decide_eq_true_eq] at hkey
  rw [hfile, Option.any_some, hkey]
  exact List.isSuffixOf_iff_suffix.mpr (List.suffix_append pre uuid)

/-- The digits of a fresh key fit every column. -/
theorem fits_quarantineKey (uuid : Text) (h : s.freshUuid uuid = true) :
    fits 512 (quarantineKey uuid) = true := by
  simp only [Archive.freshUuid, Bool.and_eq_true, decide_eq_true_eq] at h
  obtain ⟨⟨⟨⟨hlength, hdigits⟩, _⟩, _⟩, _⟩ := h
  have hprefix : nul ∉ "quarantine/".toList := by decide
  have huuid : nul ∉ uuid := fun hmem => by
    have hdigit := List.all_eq_true.mp hdigits nul hmem
    revert hdigit
    decide
  have hlong : (quarantineKey uuid).length ≤ 512 := by
    have hlong : (quarantineKey uuid).length = "quarantine/".toList.length + uuid.length :=
      List.length_append
    have hprefixed : "quarantine/".toList.length = 11 := rfl
    omega
  rw [fits, Bool.and_eq_true, decide_eq_true_eq, decide_eq_true_eq]
  exact ⟨fun hmem => (List.mem_append.mp hmem).elim hprefix huuid, hlong⟩

/-! ## Quarantine -/

/-- The row of a quarantined object can be written: the storage answers as it should, and the
columns take what the request says. -/
def registrable (K : ArchiveConfig) (f : UploadedFile) (reason : Text) (w : Surroundings) : Bool :=
  match w.put with
  | .refused => true
  | .taken id =>
    (K.backend = .fileSystem || validVersionId id && fits 512 id) &&
      fits 255 f.metadata.filename && fits 127 f.metadata.contentType && fits 255 reason &&
      f.content.length < 2 ^ 63

/-- The metadata of a file once all of it was read. -/
def UploadedFile.read (f : UploadedFile) : FileMetadata :=
  { f.metadata with byteSize := f.content.length }

/-- The row of a quarantined object. -/
structure QuarantineRow (K : ArchiveConfig) (uploader : ℕ) (reason : Text) (w : Surroundings)
    (row : QuarantinedUpload) : Prop where
  storageKey_eq : row.storageKey = some (quarantineKey w.uuid)
  uploader_eq : row.uploader = uploader
  reason_eq : row.reason = reason
  retention_eq : row.retentionExpiresAt = w.now + K.retention
  versionId : K.backend = .s3 → validVersionId row.providerVersionId = true

/-- What putting a file into the quarantine does. -/
inductive QuarantineEffect (K : ArchiveConfig) (s : Archive) (f : UploadedFile) (uploader : ℕ)
    (reason : Text) (w : Surroundings) : Archive → Except UploadError ℕ → Prop where
  | refused (hput : w.put = .refused) :
      QuarantineEffect K s f uploader reason w s (.error .storage)
  | orphaned (e : UploadError) (herror : e.refusal = false) (hput : w.put ≠ .refused)
      (hunfit : registrable K f reason w = false) :
      QuarantineEffect K s f uploader reason w
        { s with objects := quarantineKey w.uuid :: s.objects } (.error e)
  | registered (row : QuarantinedUpload) (event : AuditEvent)
      (hrow : QuarantineRow K uploader reason w row) (hput : w.put ≠ .refused)
      (haudit : AuditOf event uploader s.quarantine.next "quarantined") :
      QuarantineEffect K s f uploader reason w
        { s with
          objects := quarantineKey w.uuid :: s.objects
          quarantine := s.quarantine.insert row
          db := { s.db with audit := s.db.audit.insert event } } (.ok s.quarantine.next)

theorem storeQuarantined_effect (uploader building : ℕ) (actor : Uploading) (f : UploadedFile)
    (reason : Text) (w : Surroundings) (hfresh : s.freshUuid w.uuid = true)
    (hactor : MayAudit s.db uploader actor) :
    QuarantineEffect K s f uploader reason w
      (storeQuarantined K s uploader building actor f (UploadedFile.read f) reason w).1
      (storeQuarantined K s uploader building actor f (UploadedFile.read f) reason w).2 := by
  unfold storeQuarantined store
  cases hput : w.put with
  | refused => exact .refused hput
  | taken id =>
    have htaken : w.put ≠ .refused := by rw [hput]; exact fun h => by cases h
    have hunique : s.quarantine.any (·.storageKey = some (quarantineKey w.uuid)) = false :=
      freshUuid_quarantine w.uuid _ hfresh
    -- With the version id the storage gives, the row is written or does not fit.
    have hregister : ∀ versionId : Text,
        (K.backend = .s3 → validVersionId versionId = true) →
        (registrable K f reason w = true → fits 512 versionId = true) →
        QuarantineEffect K s f uploader reason w
          (registerRefusal { s with objects := quarantineKey w.uuid :: s.objects } uploader actor
            (quarantinedRow K uploader building f (UploadedFile.read f) reason w versionId)
            "document.upload_quarantined" "quarantined").1
          (registerRefusal { s with objects := quarantineKey w.uuid :: s.objects } uploader actor
            (quarantinedRow K uploader building f (UploadedFile.read f) reason w versionId)
            "document.upload_quarantined" "quarantined").2 := by
      intro versionId hvalid hversion
      rcases registerRefusal_eq (s := { s with objects := quarantineKey w.uuid :: s.objects })
          uploader actor _ "document.upload_quarantined" "quarantined" hactor with
        ⟨e, hunfit, heq⟩ | ⟨event, haudit, heq⟩
      · rw [heq]
        refine .orphaned _ rfl htaken ?_
        by_contra hnot
        rw [Bool.not_eq_false] at hnot
        have hall := hnot
        rw [registrable, hput] at hall
        simp only [Bool.and_eq_true, decide_eq_true_eq] at hall
        obtain ⟨⟨⟨⟨_, hname⟩, htype⟩, hreason⟩, hsize⟩ := hall
        exact hunfit ⟨hname, htype, hreason, hversion hnot, hsize, hunique⟩
      · rw [heq]
        exact .registered _ event ⟨rfl, rfl, rfl, rfl, hvalid⟩ htaken haudit
    cases hbackend : K.backend with
    | fileSystem =>
      refine hregister (quarantineKey w.uuid) (fun h => ?_) fun _ => fits_quarantineKey w.uuid hfresh
      rw [hbackend] at h
      cases h
    | s3 =>
      by_cases hvalid : validVersionId id = true
      · simp only [hvalid, if_true]
        refine hregister id (fun _ => hvalid) fun hall => ?_
        rw [registrable, hput, hbackend] at hall
        simp only [Bool.and_eq_true, Bool.or_eq_true, decide_eq_true_eq] at hall
        rcases hall.1.1.1.1 with h | h
        · cases h
        · exact h.2
      · rw [Bool.not_eq_true] at hvalid
        simp only [hvalid, Bool.false_eq_true, if_false]
        refine .orphaned _ rfl htaken ?_
        simp [registrable, hput, hbackend, hvalid]

/-! ## Versions -/

/-- The reason of a file that is not clean. -/
def scanReason : ScanOutcome → Text
  | .infected => "malware detected".toList
  | _ => "scanner unavailable".toList

theorem inspect_accepted (kind : DocumentKind) (f : UploadedFile) (m : FileMetadata)
    (h : inspect K kind f = .accepted m) : m = UploadedFile.read f := by
  unfold inspect at h
  dsimp only at h
  split at h
  · cases h
  · split at h
    · cases h
    · split at h
      · cases h
      · split at h
        · cases h
        · split at h
          · split at h
            · cases h
              rfl
            · cases h
            · cases h
          · cases h
            rfl

theorem createVersionRow_eq_ok (s' : Archive) (document pk : ℕ) (f : UploadedFile)
    (file : StoredFile) (h : createVersionRow K s document f file = .ok (pk, s')) :
    pk = s.db.documentVersions.next ∧ s' = { s with
      db := { s.db with
        documentVersions := s.db.documentVersions.insert ⟨document, contentHash K f, true⟩ }
      files := Function.update s.files pk (some file) } := by
  simp only [createVersionRow, bind_eq_ok, pure_eq_ok, Prod.mk.injEq] at h
  obtain ⟨_, _, _, _, _, _, _, _, rfl, rfl⟩ := h
  exact ⟨rfl, rfl⟩

/-- The archive with a new version of a document. -/
def withVersion (K : ArchiveConfig) (s : Archive) (document : ℕ) (f : UploadedFile)
    (file : StoredFile) (event : AuditEvent) : Archive :=
  { s with
    db := { s.db with
      documentVersions := s.db.documentVersions.insert ⟨document, contentHash K f, true⟩
      audit := s.db.audit.insert event }
    files := Function.update s.files s.db.documentVersions.next (some file)
    objects := file.storageKey :: s.objects }

/-- The uploader is permitted and the file passes the checks before the scan. -/
def reachesScan (K : ArchiveConfig) (db : Db) (d : Document) (uploader : ℕ) (allow : Bool)
    (f : UploadedFile) : Bool :=
  match uploadingAs db d uploader allow, inspect K d.kind f with
  | .ok _, .accepted _ => true
  | _, _ => false

theorem reachesScan_eq (db : Db) (d : Document) (uploader : ℕ) (allow : Bool) (f : UploadedFile)
    (actor : Uploading) (m : FileMetadata) (hactor : uploadingAs db d uploader allow = .ok actor)
    (haccepted : inspect K d.kind f = .accepted m) :
    reachesScan K db d uploader allow f = true := by
  unfold reachesScan
  rw [hactor, haccepted]

/-- **What `create_document_version` does.** -/
inductive VersionEffect (K : ArchiveConfig) (s : Archive) (document : ℕ) (f : UploadedFile)
    (uploader : ℕ) (w : Surroundings) (allow : Bool) :
    Archive → Except UploadError ℕ → Prop where
  | unchanged (e : UploadError) (herror : e.refusal = false) :
      VersionEffect K s document f uploader w allow s (.error e)
  | orphanedDocument (e : UploadError) (herror : e.refusal = false) :
      VersionEffect K s document f uploader w allow
        { s with objects := documentKey document w.uuid :: s.objects } (.error e)
  | orphanedObject (d : Document) (e : UploadError) (herror : e.refusal = false)
      (hdocument : s.db.documents.get? document = some d)
      (hreaches : reachesScan K s.db d uploader allow f = true) (hscan : w.scan ≠ .clean)
      (hunfit : registrable K f (scanReason w.scan) w = false) :
      VersionEffect K s document f uploader w allow
        { s with objects := quarantineKey w.uuid :: s.objects } (.error e)
  | rejected (row : QuarantinedUpload) (event : AuditEvent) (reason : Text)
      (hkey : row.storageKey = none) (huploader : row.uploader = uploader)
      (hreason : row.reason = reason)
      (haudit : AuditOf event uploader s.quarantine.next "rejected") :
      VersionEffect K s document f uploader w allow
        { s with
          quarantine := s.quarantine.insert row
          db := { s.db with audit := s.db.audit.insert event } } (.error (.rejected reason))
  | quarantined (d : Document) (row : QuarantinedUpload) (event : AuditEvent)
      (hdocument : s.db.documents.get? document = some d)
      (hreaches : reachesScan K s.db d uploader allow f = true)
      (hscan : w.scan ≠ .clean) (hput : w.put ≠ .refused)
      (hrow : QuarantineRow K uploader (scanReason w.scan) w row)
      (haudit : AuditOf event uploader s.quarantine.next "quarantined") :
      VersionEffect K s document f uploader w allow
        { s with
          objects := quarantineKey w.uuid :: s.objects
          quarantine := s.quarantine.insert row
          db := { s.db with audit := s.db.audit.insert event } }
        (.error (.quarantined (scanReason w.scan)))
  | stored (d : Document) (file : StoredFile) (event : AuditEvent)
      (hdocument : s.db.documents.get? document = some d)
      (hkey : file.storageKey = documentKey document w.uuid) :
      VersionEffect K s document f uploader w allow (withVersion K s document f file event)
        (.ok s.db.documentVersions.next)

theorem storeVersion_effect (uploader document : ℕ) (actor : Uploading) (f : UploadedFile)
    (m : FileMetadata) (w : Surroundings) (allow : Bool) (d : Document)
    (hdocument : s.db.documents.get? document = some d) (hactor : MayAudit s.db uploader actor) :
    VersionEffect K s document f uploader w allow (storeVersion K s uploader document actor f m w).1
      (storeVersion K s uploader document actor f m w).2 := by
  unfold storeVersion store
  cases hput : w.put with
  | refused => exact .unchanged _ rfl
  | taken id =>
    -- Whatever the version id is, the row is written or nothing but the object is left.
    have hrecord : ∀ file : StoredFile, file.storageKey = documentKey document w.uuid →
        VersionEffect K s document f uploader w allow
          (recordVersion K { s with objects := documentKey document w.uuid :: s.objects } uploader
            document actor f file).1
          (recordVersion K { s with objects := documentKey document w.uuid :: s.objects } uploader
            document actor f file).2 := by
      intro file hkey
      unfold recordVersion
      split
      · exact .orphanedDocument _ rfl
      · next pk t hrow =>
        obtain ⟨rfl, rfl⟩ := createVersionRow_eq_ok _ _ _ _ _ hrow
        obtain ⟨event, _, hok⟩ := auditUpload_ok
          { s.db with
            documentVersions := s.db.documentVersions.insert ⟨document, contentHash K f, true⟩ }
          uploader s.db.documentVersions.next actor hactor
        dsimp only
        rw [hok]
        have hstored := @VersionEffect.stored K s document f uploader w allow d file event hdocument hkey
        rw [withVersion, hkey] at hstored
        exact hstored
    cases K.backend with
    | fileSystem => exact hrecord _ rfl
    | s3 =>
      by_cases hvalid : validVersionId id = true
      · simp only [hvalid, if_true]
        exact hrecord _ rfl
      · rw [Bool.not_eq_true] at hvalid
        simp only [hvalid, Bool.false_eq_true, if_false]
        exact .orphanedDocument _ rfl

/-- A file that is not clean is quarantined with the reason of the scan. -/
theorem VersionEffect.of_quarantine (document uploader building : ℕ) (f : UploadedFile)
    (w : Surroundings) (allow : Bool) (actor : Uploading) (d : Document)
    (hdocument : s.db.documents.get? document = some d)
    (hreaches : reachesScan K s.db d uploader allow f = true) (hscan : w.scan ≠ .clean)
    (hfresh : s.freshUuid w.uuid = true) (hactor : MayAudit s.db uploader actor) :
    VersionEffect K s document f uploader w allow
      (raising (storeQuarantined K s uploader building actor f (UploadedFile.read f)
        (scanReason w.scan) w) (.quarantined (scanReason w.scan))).1
      (raising (storeQuarantined K s uploader building actor f (UploadedFile.read f)
        (scanReason w.scan) w) (.quarantined (scanReason w.scan))).2 := by
  have heffect := storeQuarantined_effect (K := K) uploader building actor f (scanReason w.scan) w
    hfresh hactor
  generalize storeQuarantined K s uploader building actor f (UploadedFile.read f)
    (scanReason w.scan) w = call at heffect ⊢
  obtain ⟨t, r⟩ := call
  cases heffect with
  | refused hput => exact .unchanged _ rfl
  | orphaned e herror hput hunfit => exact .orphanedObject d e herror hdocument hreaches hscan hunfit
  | registered row event hrow hput haudit =>
    exact .quarantined d row event hdocument hreaches hscan hput hrow haudit

/-- **Whatever the file and the services do, the call has one of these effects.** -/
theorem createDocumentVersion_effect (document uploader : ℕ) (f : UploadedFile) (w : Surroundings)
    (allow : Bool) (hfresh : s.freshUuid w.uuid = true) :
    VersionEffect K s document f uploader w allow (createDocumentVersion K s document f uploader w allow).1
      (createDocumentVersion K s document f uploader w allow).2 := by
  unfold createDocumentVersion
  split
  · exact .unchanged _ rfl
  · next d hdocument =>
    split
    · exact .unchanged _ rfl
    · next actor huploading =>
      have hactor := uploadingAs_mayAudit _ _ _ _ _ huploading
      split
      · exact .unchanged _ rfl
      · next m reason _ =>
        unfold createRejection
        rcases registerRefusal_eq uploader actor _ "document.upload_rejected" "rejected" hactor with
          ⟨e, _, heq⟩ | ⟨event, haudit, heq⟩
        · rw [heq]
          exact .unchanged _ rfl
        · rw [heq]
          exact .rejected _ event reason rfl rfl rfl haudit
      · next m haccepted =>
        have hreaches := reachesScan_eq _ _ _ _ _ _ _ huploading haccepted
        obtain rfl := inspect_accepted _ _ _ haccepted
        cases hscan : w.scan with
        | clean => exact storeVersion_effect uploader document actor f _ w allow d hdocument hactor
        | infected =>
          have hquarantine := VersionEffect.of_quarantine document uploader d.building f w allow
            actor d hdocument hreaches (by rw [hscan]; exact fun h => by cases h) hfresh hactor
          rw [hscan] at hquarantine
          exact hquarantine
        | raised =>
          have hquarantine := VersionEffect.of_quarantine document uploader d.building f w allow
            actor d hdocument hreaches (by rw [hscan]; exact fun h => by cases h) hfresh hactor
          rw [hscan] at hquarantine
          exact hquarantine

/-! ## Callers -/

/-- The call is not wrapped in a transaction. -/
def UploadCaller.isDirect : UploadCaller → Bool
  | .direct _ _ => true
  | _ => false

/-- The caller lets a resident upload. -/
def UploadCaller.allowsResident : UploadCaller → Bool
  | .direct _ allow => allow
  | .uploadDocument _ _ => false
  | .attachReportPhoto _ => true

/-- The document a caller uploads to; none where it raises or returns before. -/
def targetDocument (K : ArchiveConfig) (s : Archive) (uploader : ℕ) (f : UploadedFile) :
    UploadCaller → Option Document
  | .direct document _ => s.db.documents.get? document
  | .uploadDocument building kind => some ⟨building, kind⟩
  | .attachReportPhoto report => (s.db.reports.get? report).bind fun r =>
    if s.db.occupancies.any (fun o => o.user = uploader && o.active && o.building = r.building) &&
        (s.photoOf report (contentHash K f)).isNone then
      some ⟨r.building, .reportPhoto⟩
    else none

/-- The archive with a new document. -/
def withDocument (s : Archive) (d : Document) : Archive :=
  { s with db := { s.db with documents := s.db.documents.insert d } }

/-- The photo of a report of the building. -/
structure PhotoOf (s : Archive) (d : Document) (report : ℕ) : Prop where
  kind_eq : d.kind = .reportPhoto
  report_get : ∃ r, s.db.reports.get? report = some r ∧ r.building = d.building

/-- **What an upload does**, whoever calls it. -/
inductive UploadEffect (K : ArchiveConfig) (s : Archive) (caller : UploadCaller) (uploader : ℕ)
    (f : UploadedFile) (w : Surroundings) : Archive → Except UploadError ℕ → Prop where
  | unchanged (r : Except UploadError ℕ) (hr : ∀ e, r = .error e → e.refusal = false) :
      UploadEffect K s caller uploader f w s r
  | direct (document : ℕ) (allow : Bool) (t : Archive) (r : Except UploadError ℕ)
      (hcaller : caller = .direct document allow)
      (h : VersionEffect K s document f uploader w allow t r) :
      UploadEffect K s caller uploader f w t r
  | rolledBack (d : Document) (t : Archive) (e : UploadError)
      (hcaller : UploadCaller.isDirect caller = false)
      (htarget : targetDocument K s uploader f caller = some d)
      (h : VersionEffect K (withDocument s d) s.db.documents.next f uploader w
        (UploadCaller.allowsResident caller) t (.error e)) :
      UploadEffect K s caller uploader f w { s with objects := t.objects } (.error e)
  | stored (d : Document) (file : StoredFile) (event : AuditEvent)
      (hkey : file.storageKey = documentKey s.db.documents.next w.uuid) :
      UploadEffect K s caller uploader f w
        (withVersion K (withDocument s d) s.db.documents.next f file event)
        (.ok s.db.documentVersions.next)
  | attached (d : Document) (file : StoredFile) (event : AuditEvent) (report : ℕ)
      (hphoto : PhotoOf s d report)
      (hkey : file.storageKey = documentKey s.db.documents.next w.uuid) :
      UploadEffect K s caller uploader f w
        { withVersion K (withDocument s d) s.db.documents.next f file event with
          photos := s.photos.insert ⟨report, s.db.documentVersions.next, contentHash K f⟩ }
        (.ok s.db.documentVersions.next)

theorem createWithDocument_effect (d : Document) (uploader : ℕ) (f : UploadedFile)
    (w : Surroundings) (allow : Bool) (hfresh : s.freshUuid w.uuid = true) :
    VersionEffect K (withDocument s d) s.db.documents.next f uploader w allow
      (createWithDocument K s d f uploader w allow).1
      (createWithDocument K s d f uploader w allow).2 :=
  createDocumentVersion_effect s.db.documents.next uploader f w allow hfresh

theorem uploadDocument_effect (building : ℕ) (kind : DocumentKind) (uploader : ℕ)
    (f : UploadedFile) (w : Surroundings) (hfresh : s.freshUuid w.uuid = true) :
    UploadEffect K s (.uploadDocument building kind) uploader f w
      (uploadDocument K s building kind uploader f w).1
      (uploadDocument K s building kind uploader f w).2 := by
  have heffect := createWithDocument_effect (K := K) ⟨building, kind⟩ uploader f w false hfresh
  unfold uploadDocument atomic
  dsimp only
  generalize createWithDocument K s ⟨building, kind⟩ f uploader w false = call at heffect ⊢
  obtain ⟨t, r⟩ := call
  cases r with
  | error e => exact .rolledBack ⟨building, kind⟩ t e rfl rfl heffect
  | ok pk =>
    cases heffect with
    | stored d file event hdocument hkey => exact .stored ⟨building, kind⟩ file event hkey

theorem attachReportPhoto_effect (report uploader : ℕ) (f : UploadedFile) (w : Surroundings)
    (hfresh : s.freshUuid w.uuid = true) :
    UploadEffect K s (.attachReportPhoto report) uploader f w
      (attachReportPhoto K s uploader report f w).1
      (attachReportPhoto K s uploader report f w).2 := by
  unfold attachReportPhoto
  split
  · exact .unchanged _ fun e he => by cases he; rfl
  · next r hreport =>
    split
    · next hoccupies =>
      split
      · exact .unchanged _ fun e he => by cases he
      · next hphoto =>
        have htarget : targetDocument K s uploader f (.attachReportPhoto report) =
            some ⟨r.building, .reportPhoto⟩ := by
          rw [targetDocument, hreport, Option.bind_some, hoccupies, hphoto]
          rfl
        have heffect := createWithDocument_effect (K := K) ⟨r.building, .reportPhoto⟩ uploader f w
          true hfresh
        unfold atomic
        dsimp only
        generalize createWithDocument K s ⟨r.building, .reportPhoto⟩ f uploader w true = call
          at heffect ⊢
        obtain ⟨t, result⟩ := call
        cases result with
        | error e => exact .rolledBack ⟨r.building, .reportPhoto⟩ t e rfl htarget heffect
        | ok pk =>
          cases heffect with
          | stored d file event hdocument hkey =>
            exact .attached ⟨r.building, .reportPhoto⟩ file event report
              ⟨rfl, r, hreport, rfl⟩ hkey
    · exact .unchanged _ fun e he => by cases he; rfl

theorem upload_effect (caller : UploadCaller) (uploader : ℕ) (f : UploadedFile) (w : Surroundings)
    (hfresh : s.freshUuid w.uuid = true) :
    UploadEffect K s caller uploader f w (upload K s caller uploader f w).1
      (upload K s caller uploader f w).2 := by
  cases caller with
  | direct document allow =>
    exact .direct document allow _ _ rfl
      (createDocumentVersion_effect document uploader f w allow hfresh)
  | uploadDocument building kind => exact uploadDocument_effect building kind uploader f w hfresh
  | attachReportPhoto report => exact attachReportPhoto_effect report uploader f w hfresh

/-- The user is an active member of one building. -/
def mayQuarantine (db : Db) (uploader : ℕ) : Bool :=
  match db.memberships.select fun m => m.user = uploader && m.active with
  | [] => false
  | (_, m) :: rest => rest.all fun r => r.2.building = m.building

/-- `quarantine_upload` stores as an upload does, or raises before. -/
theorem quarantineUpload_effect (f : UploadedFile) (uploader : ℕ) (reason : Text) (w : Surroundings)
    (hfresh : s.freshUuid w.uuid = true) :
    (quarantineUpload K s f uploader reason w).1 = s ∨ mayQuarantine s.db uploader = true ∧
      QuarantineEffect K s f uploader reason w (quarantineUpload K s f uploader reason w).1
        (quarantineUpload K s f uploader reason w).2 := by
  unfold quarantineUpload
  split
  · exact .inl rfl
  · next pk m rest hselect =>
    split
    · next hone =>
      right
      have hmay : mayQuarantine s.db uploader = true := by
        rw [mayQuarantine, hselect]
        exact hone
      refine ⟨hmay, ?_⟩
      have hmem : (pk, m) ∈ s.db.memberships.select fun m => m.user = uploader && m.active := by
        rw [hselect]
        exact List.mem_cons_self
      obtain ⟨hget, hactive⟩ := (Table.mem_select _ _ _ _).mp hmem
      refine storeQuarantined_effect uploader m.building (.member pk) f reason w hfresh ?_
      show ((s.db.memberships.get? pk).any fun m => m.user = uploader && m.active) = true
      rw [hget, Option.any_some]
      exact hactive
    · exact .inl rfl

end LamTo.Analysis
