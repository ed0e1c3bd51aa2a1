import LamTo.Analysis.ServedDocuments

/-!
# What is intact is served

The other direction, for residents and for the explorer. With a token that was issued, a resident
gets the file exactly when the token is his and no older than five minutes, he may have the version
at that moment, and the storage answers with bytes of the hash of the upload; every other request
gets the same "not found". The explorer serves what it names by a hash exactly when the storage
answers with bytes of that hash.

* Every row of a version has its file, and on S3 the file has the id of a version of its object
  (`FiledInv`): an upload that the bucket answers without one writes no row. So no route fails for
  want of an id.

SOURCE: src/lamto/api/views.py:626-648, src/lamto/documents/access.py:39-71,
src/lamto/documents/services.py:136-156, 209-334, src/lamto/explorer/views.py:364-422
-/

set_option autoImplicit false

namespace LamTo.Analysis

open LamTo.Library LamTo.Model

section Files

variable {K : ArchiveConfig} {s s' t : Archive} {a : ArchiveAction}

/-! ## The files of an upload -/

/-- A bucket can be asked for the object of the file. -/
def Retrievable (K : ArchiveConfig) (file : StoredFile) : Prop :=
  K.backend = .s3 → validVersionId file.providerVersionId = true

/-- A new file is retrievable. -/
def FilesGrown (K : ArchiveConfig) (s t : Archive) : Prop :=
  ∀ pk file, t.files pk = some file → s.files pk = some file ∨ Retrievable K file

theorem FilesGrown.refl (s : Archive) : FilesGrown K s s := fun _ _ h => .inl h

theorem recordVersion_grown (uploader document : ℕ) (actor : Uploading) (f : UploadedFile)
    (file : StoredFile) (hfile : Retrievable K file) :
    FilesGrown K s (recordVersion K s uploader document actor f file).1 := by
  have hupdate : ∀ pk q stored, Function.update s.files pk (some file) q = some stored →
      s.files q = some stored ∨ Retrievable K stored := by
    intro pk q stored h
    by_cases hq : q = pk
    · subst hq
      rw [Function.update_self] at h
      cases h
      exact .inr hfile
    · rw [Function.update_of_ne hq] at h
      exact .inl h
  unfold recordVersion
  split
  · exact .refl s
  · next pk t hrow =>
    obtain ⟨rfl, rfl⟩ := createVersionRow_eq_ok _ _ _ _ _ hrow
    split
    · exact fun q stored h => hupdate _ q stored h
    · exact fun q stored h => hupdate _ q stored h

/-- The row is written once the storage has answered with an id of its own. -/
theorem storeVersion_grown (uploader document : ℕ) (actor : Uploading) (f : UploadedFile)
    (m : FileMetadata) (w : Surroundings) :
    FilesGrown K s (storeVersion K s uploader document actor f m w).1 := by
  unfold storeVersion store
  cases w.put with
  | refused => exact .refl s
  | taken id =>
    cases hbackend : K.backend with
    | fileSystem =>
      refine recordVersion_grown (s := { s with objects := _ :: s.objects }) _ _ _ _ _ fun hs3 => ?_
      rw [hbackend] at hs3
      cases hs3
    | s3 =>
      by_cases hvalid : validVersionId id = true
      · dsimp only
        rw [if_pos hvalid]
        exact recordVersion_grown (s := { s with objects := _ :: s.objects }) _ _ _ _ _
          fun _ => hvalid
      · dsimp only
        rw [if_neg hvalid]
        exact .refl s

theorem raising_fst (call : Archive × Except UploadError ℕ) (error : UploadError) :
    (raising call error).1 = call.1 := by
  unfold raising
  split
  · rfl
  · rfl

/-- The quarantine has no file of a version. -/
theorem storeQuarantined_grown (uploader building : ℕ) (actor : Uploading) (f : UploadedFile)
    (reason : Text) (w : Surroundings) (hfresh : s.freshUuid w.uuid = true)
    (hactor : MayAudit s.db uploader actor) :
    FilesGrown K s
      (storeQuarantined K s uploader building actor f (UploadedFile.read f) reason w).1 := by
  have heffect := storeQuarantined_effect (K := K) uploader building actor f reason w hfresh hactor
  generalize storeQuarantined K s uploader building actor f (UploadedFile.read f) reason w = call
    at heffect ⊢
  obtain ⟨t, r⟩ := call
  cases heffect with
  | _ => exact fun _ _ h => .inl h

theorem createDocumentVersion_grown (document uploader : ℕ) (f : UploadedFile) (w : Surroundings)
    (allow : Bool) (hfresh : s.freshUuid w.uuid = true) :
    FilesGrown K s (createDocumentVersion K s document f uploader w allow).1 := by
  unfold createDocumentVersion
  split
  · exact .refl s
  · next d hdocument =>
    split
    · exact .refl s
    · next actor huploading =>
      have hactor := uploadingAs_mayAudit _ _ _ _ _ huploading
      split
      · exact .refl s
      · next m reason _ =>
        unfold createRejection
        rcases registerRefusal_eq uploader actor _ "document.upload_rejected" "rejected" hactor with
          ⟨e, _, heq⟩ | ⟨event, haudit, heq⟩
        · rw [heq]
          exact .refl s
        · rw [heq]
          exact fun _ _ h => .inl h
      · next m haccepted =>
        obtain rfl := inspect_accepted _ _ _ haccepted
        cases w.scan with
        | clean => exact storeVersion_grown _ _ _ _ _ _
        | infected =>
          dsimp only
          rw [raising_fst]
          exact storeQuarantined_grown _ _ _ _ _ _ hfresh hactor
        | raised =>
          dsimp only
          rw [raising_fst]
          exact storeQuarantined_grown _ _ _ _ _ _ hfresh hactor

theorem createWithDocument_grown (d : Document) (uploader : ℕ) (f : UploadedFile)
    (w : Surroundings) (allow : Bool) (hfresh : s.freshUuid w.uuid = true) :
    FilesGrown K s (createWithDocument K s d f uploader w allow).1 :=
  createDocumentVersion_grown (s := withDocument s d) _ uploader f w allow hfresh

theorem atomic_grown {ε α : Type} (call : Archive → Archive × Except ε α)
    (h : FilesGrown K s (call s).1) : FilesGrown K s (atomic s call).1 := by
  unfold atomic
  split
  · next t a heq =>
    rw [heq] at h
    exact h
  · exact fun _ _ h => .inl h

theorem upload_grown (caller : UploadCaller) (uploader : ℕ) (f : UploadedFile) (w : Surroundings)
    (hfresh : s.freshUuid w.uuid = true) :
    FilesGrown K s (upload K s caller uploader f w).1 := by
  cases caller with
  | direct document allow => exact createDocumentVersion_grown _ _ _ _ _ hfresh
  | uploadDocument building kind => exact atomic_grown _ (createWithDocument_grown _ _ _ _ _ hfresh)
  | attachReportPhoto report =>
    unfold upload attachReportPhoto
    dsimp only
    split
    · exact .refl s
    · next r hreport =>
      split
      · split
        · exact .refl s
        · refine atomic_grown _ ?_
          have hcreated := createWithDocument_grown (K := K) (s := s) ⟨r.building, .reportPhoto⟩
            uploader f w true hfresh
          split
          · next heq =>
            rw [heq] at hcreated
            exact hcreated
          · next heq =>
            rw [heq] at hcreated
            exact hcreated
      · exact .refl s

/-! ## Every version has its file -/

/-- Every row of a version has its file. -/
def Filed (s : Archive) : Prop :=
  ∀ pk v, s.db.documentVersions.get? pk = some v → ∃ file, s.files pk = some file

theorem Filed.withVersion (hfiled : Filed s) (document : ℕ) (f : UploadedFile) (file : StoredFile)
    (event : AuditEvent) : Filed (withVersion K s document f file event) := by
  intro pk v hv
  dsimp only [Analysis.withVersion] at hv ⊢
  rw [Table.get?_insert] at hv
  split at hv
  · next hpk =>
    rw [hpk, Function.update_self]
    exact ⟨file, rfl⟩
  · next hpk =>
    rw [Function.update_of_ne hpk]
    exact hfiled pk v hv

theorem VersionEffect.filed (document uploader : ℕ) (f : UploadedFile) (w : Surroundings)
    (allow : Bool) (r : Except UploadError ℕ)
    (h : VersionEffect K s document f uploader w allow t r) (hfiled : Filed s) : Filed t := by
  cases h with
  | stored d file event hdocument hkey => exact hfiled.withVersion document f file event
  | _ => exact hfiled

theorem UploadEffect.filed (caller : UploadCaller) (uploader : ℕ) (f : UploadedFile)
    (w : Surroundings) (r : Except UploadError ℕ) (h : UploadEffect K s caller uploader f w t r)
    (hfiled : Filed s) : Filed t := by
  have hdocument (d : Document) : Filed (withDocument s d) := hfiled
  cases h with
  | unchanged => exact hfiled
  | direct document allow t r hcaller h => exact h.filed document uploader f w allow r hfiled
  | rolledBack => exact hfiled
  | stored d file event hkey => exact (hdocument d).withVersion _ f file event
  | attached d file event report hphoto hkey =>
    exact (hdocument d).withVersion (K := K) _ f file event

/-- **Every version has its file, and every file can be asked for.** -/
structure FiledInv (K : ArchiveConfig) (s : Archive) : Prop where
  filed : Filed s
  retrievable : ∀ pk file, s.files pk = some file → Retrievable K file

theorem filedInv_empty : FiledInv K .empty where
  filed _ _ hv := by cases hv
  retrievable _ _ hf := by cases hf

/-- A step that writes no file. -/
theorem FiledInv.keep (hinv : FiledInv K s) (hfiles : s'.files = s.files)
    (hrows : ∀ pk v, s'.db.documentVersions.get? pk = some v →
      s.db.documentVersions.get? pk = some v) : FiledInv K s' where
  filed pk v hv := by
    rw [hfiles]
    exact hinv.filed pk v (hrows pk v hv)
  retrievable := by
    rw [hfiles]
    exact hinv.retrievable

theorem FiledInv.pruned (hinv : FiledInv K s) (h : DocumentsPruned s s') : FiledInv K s' where
  filed pk v hv := by
    rw [h.files pk v hv]
    exact hinv.filed pk v (h.found pk v hv)
  retrievable pk file hf := hinv.retrievable pk file (h.filed pk file hf).1

theorem FiledInv.step (hinv : FiledInv K s) (h : Archive.step K s a = some s') : FiledInv K s' := by
  cases archive_effect h with
  | service command db hstep =>
    cases versionRows h with
    | kept _ hkept => exact hinv.keep rfl hkept
  | uploaded caller uploader f w t r hfresh heffect =>
    refine ⟨heffect.filed caller uploader f w r hinv.filed, fun pk file hf => ?_⟩
    rw [Archive.step, if_pos hfresh, Option.some.injEq] at h
    rw [← h] at hf
    rcases upload_grown caller uploader f w hfresh pk file hf with hold | hnew
    · exact hinv.retrievable pk file hold
    · exact hnew
  | quarantined f uploader reason w t r hmay heffect =>
    cases heffect with
    | _ => exact hinv.keep rfl fun _ _ hv => hv
  | cleaned c s' heffect =>
    cases heffect with
    | unchanged => exact hinv
    | rolledBack => exact hinv.keep rfl fun _ _ hv => hv
    | pruned t s' hpruned hdrafts =>
      refine (hinv.pruned hpruned).keep ?_ fun pk v hv => ?_
      · rw [hdrafts.eq]
      · rw [hdrafts.eq] at hv
        exact hv
  | _ => exact hinv.keep rfl fun _ _ hv => hv

end Files

section Served

variable {K : DownloadConfig} {s t : DownloadState} {a : DownloadAction}

theorem FiledInv.routeStep (hinv : FiledInv K.toArchiveConfig s.archive) (h : RouteStep K s t) :
    FiledInv K.toArchiveConfig t.archive := by
  obtain ⟨audit, harchive⟩ := h.archive_eq
  rw [harchive]
  exact hinv.keep rfl fun _ _ hv => hv

/-- A step is one of the archive, or leaves everything of it but the audit trail. -/
theorem FiledInv.downloads (hinv : FiledInv K.toArchiveConfig s.archive)
    (h : DownloadState.step K s a = some t) : FiledInv K.toArchiveConfig t.archive := by
  cases a with
  | archive action =>
    obtain ⟨⟨u, response⟩, hrespond, rfl⟩ := Option.map_eq_some_iff.mp h
    obtain ⟨archive, harchive, heq⟩ := Option.map_eq_some_iff.mp hrespond
    cases heq
    exact hinv.step harchive
  | tick elapsed =>
    cases h
    exact hinv
  | issueDownloadToken user version =>
    cases h
    exact hinv
  | documentDownload user token answer =>
    cases h
    exact hinv
  | staffDocumentRedirect user version answer =>
    have heq : some (s.staffDocumentRedirect K user version answer).1 = some t := h
    cases heq
    exact hinv.routeStep (staffDocumentRedirect_routeStep _ _ _)
  | staffDocumentDownload user token answer =>
    have heq : some (s.staffDocumentDownload K user token answer).1 = some t := h
    cases heq
    exact hinv.routeStep (staffDocumentDownload_routeStep _ _ _)
  | explorerDownload publicToken sha256 answer =>
    cases h
    exact hinv

theorem FiledInv.reachable (h : Reaches (DownloadState.step K) Always .empty s) :
    FiledInv K.toArchiveConfig s.archive :=
  h.preserves (fun s => FiledInv K.toArchiveConfig s.archive)
    (fun _ _ _ hinv _ hstep => hinv.downloads hstep) filedInv_empty

/-! ## The resident's route -/

/-- Whatever is wrong, the answer is the same. -/
theorem documentDownload_or_notFound (user : ℕ) (token : Text) (answer : Option (List UInt8)) :
    (∃ file, s.documentDownload K user token answer = .document file) ∨
      s.documentDownload K user token answer = .notFound := by
  unfold DownloadState.documentDownload
  split
  · exact .inr rfl
  · split
    · exact .inr rfl
    · split
      · exact .inr rfl
      · split
        · split
          · exact .inl ⟨_, rfl⟩
          · exact .inr rfl
        · exact .inr rfl

theorem readVersion_of_hash (K : ArchiveConfig) (row : DocumentVersion) (stored : StoredFile)
    (data : List UInt8) (hstored : Retrievable K stored)
    (h : K.hashing.sha256hex ⟨data.toArray⟩ = row.sha256) :
    readVersion K row stored (some data) = .verified data := by
  unfold readVersion
  rw [if_neg]
  · exact if_pos h
  · intro hrefused
    rw [Bool.and_eq_true, decide_eq_true_eq, Bool.not_eq_true'] at hrefused
    rw [hstored hrefused.1] at hrefused
    cases hrefused.2

theorem residentCanDownload_version (s : Archive) (user version : ℕ)
    (h : residentCanDownload s user version = true) :
    ∃ row, s.db.documentVersions.get? version = some row := by
  obtain ⟨row, hrow, _⟩ := (Option.any_eq_true _ _).mp h
  exact ⟨row, hrow⟩

theorem documentDownload_of_intact (user : ℕ) (token : Text) (version : ℕ) (row : DocumentVersion)
    (stored : StoredFile) (data : List UInt8)
    (hloads : K.signing.loads downloadSalt token downloadMaxAge s.now = some ⟨version, user⟩)
    (hrow : s.archive.db.documentVersions.get? version = some row)
    (hstored : s.archive.files version = some stored)
    (hmay : residentCanDownload s.archive user version = true)
    (hread : readVersion K.toArchiveConfig row stored (some data) = .verified data) :
    s.documentDownload K user token (some data) =
      DownloadState.serve K version stored stored.contentType data := by
  have hfind := (findVersion_eq_some s.archive version row stored).mpr ⟨hrow, hstored⟩
  unfold DownloadState.documentDownload
  rw [hloads]
  dsimp only
  rw [if_neg (not_not.mpr rfl), hfind]
  dsimp only
  rw [if_pos hmay, hread]

/-- **A resident gets what he may have and what is intact, and else nothing.** -/
theorem resident_gets_intact (hlaw : K.signing.Lawful)
    (hreach : Reaches (DownloadState.step K) Always .empty s) (i : IssuedToken)
    (hi : i ∈ s.issued) (hsalt : i.salt = downloadSalt) (user : ℕ) (answer : Option (List UInt8)) :
    ((∃ file, s.documentDownload K user i.token answer = .document file) ↔
      user = i.payload.user ∧ s.now ≤ i.issuedAt + downloadMaxAge ∧
        residentCanDownload s.archive user i.payload.version = true ∧
        ∃ data f, answer = some data ∧ s.uploads i.payload.version = some f ∧
          K.hashing.sha256hex ⟨data.toArray⟩ = contentHash K.toArchiveConfig f) ∧
    ((¬ ∃ file, s.documentDownload K user i.token answer = .document file) →
      s.documentDownload K user i.token answer = .notFound) := by
  have hinv := DownloadsInv.reachable hreach
  have hfiled := FiledInv.reachable hreach
  have hloads : K.signing.loads downloadSalt i.token downloadMaxAge s.now =
      if s.now ≤ i.issuedAt + downloadMaxAge then some i.payload else none := by
    rw [(hinv.issued i hi).1, hsalt, hlaw]
  refine ⟨⟨?_, ?_⟩, fun hnone => (documentDownload_or_notFound _ _ _).resolve_left hnone⟩
  · rintro ⟨file, hfile⟩
    obtain ⟨⟨row, stored, hrow, _, hanswer, hhash, _⟩, hread, hmay⟩ :=
      documentDownload_serves user i.token answer file hfile
    rw [hloads] at hread
    split at hread
    · next hage =>
      rw [Option.some.injEq] at hread
      obtain ⟨f, hf, hsha⟩ := hinv.uploads _ row hrow
      rw [hread]
      exact ⟨rfl, hage, hmay, file.body, f, hanswer, hf, hhash.trans hsha⟩
    · cases hread
  · rintro ⟨rfl, hage, hmay, data, f, rfl, hf, hhash⟩
    obtain ⟨row, hrow⟩ := residentCanDownload_version _ _ _ hmay
    obtain ⟨stored, hstored⟩ := hfiled.filed _ row hrow
    obtain ⟨f', hf', hsha⟩ := hinv.uploads _ row hrow
    rw [hf, Option.some.injEq] at hf'
    subst hf'
    rw [if_pos hage] at hloads
    have hread := readVersion_of_hash _ row stored data (hfiled.retrievable _ stored hstored)
      (hhash.trans hsha.symm)
    exact ⟨_, documentDownload_of_intact _ _ _ row stored data hloads hrow hstored hmay hread⟩

/-! ## The explorer's route -/

/-- The explorer names the version by its hash, under a token of a proposal. -/
def AtAddress (s : DownloadState) (publicToken sha256 : Text) (version : ℕ) : Prop :=
  ∃ proposal p,
    (s.archive.db.proposals.first? fun p => p.publicToken = some publicToken) = some (proposal, p) ∧
    explorerDocument s.archive.db proposal sha256 = some version

/-- The version the explorer finds for a hash has that hash. -/
theorem explorerDocument_hash (db : Db) (proposal : ℕ) (sha256 : Text) (version : ℕ)
    (h : explorerDocument db proposal sha256 = some version) :
    ∃ row, db.documentVersions.get? version = some row ∧ row.sha256 = sha256 := by
  have hquotation (p : ℕ × DocumentVersion → Bool) (h : (db.documentVersions.rows.find?
      fun r => r.2.sha256 = sha256 && p r).map Prod.fst = some version) :
      ∃ row, db.documentVersions.get? version = some row ∧ row.sha256 = sha256 := by
    obtain ⟨⟨pk, row⟩, hfind, rfl⟩ := Option.map_eq_some_iff.mp h
    have hboth := List.find?_some hfind
    rw [Bool.and_eq_true, decide_eq_true_eq] at hboth
    exact ⟨row, (Table.get?_eq_some _ _ _).mpr (List.mem_of_find?_eq_some hfind), hboth.1⟩
  unfold explorerDocument at h
  dsimp only at h
  split at h
  · split at h
    · next t _ htransfer =>
      cases h
      rw [Bool.and_eq_true] at htransfer
      obtain ⟨row, hrow, hhash⟩ := (Option.any_eq_true _ _).mp htransfer.2
      exact ⟨row, hrow, of_decide_eq_true hhash⟩
    · exact hquotation _ h
  · exact hquotation _ h

theorem explorerDownload_of_none (publicToken sha256 : Text) (answer : Option (List UInt8))
    (h : ¬ ∃ version, AtAddress s publicToken sha256 version) :
    s.explorerDownload K publicToken sha256 answer = .notFound := by
  unfold DownloadState.explorerDownload
  split
  · rfl
  · next proposal p hfirst =>
    split
    · rfl
    · next version hdocument => exact absurd ⟨version, proposal, p, hfirst, hdocument⟩ h

/-- A version the explorer names has its row and its file, so the route comes to the storage. -/
theorem explorerDownload_of_atAddress (hfiled : FiledInv K.toArchiveConfig s.archive)
    (publicToken sha256 : Text) (answer : Option (List UInt8)) (version : ℕ)
    (h : AtAddress s publicToken sha256 version) :
    ∃ row stored, row.sha256 = sha256 ∧ Retrievable K.toArchiveConfig stored ∧
      (∀ data, readVersion K.toArchiveConfig row stored answer = .verified data →
        s.explorerDownload K publicToken sha256 answer =
          DownloadState.serve K version stored (DownloadState.contentTypeOr stored) data) ∧
      ((∀ data, readVersion K.toArchiveConfig row stored answer ≠ .verified data) →
        s.explorerDownload K publicToken sha256 answer = .conflict) := by
  obtain ⟨proposal, p, hfirst, hdocument⟩ := h
  obtain ⟨row, hrow, hhash⟩ := explorerDocument_hash _ _ _ _ hdocument
  obtain ⟨stored, hstored⟩ := hfiled.filed version row hrow
  refine ⟨row, stored, hhash, hfiled.retrievable version stored hstored, ?_⟩
  have hfind := (findVersion_eq_some s.archive version row stored).mpr ⟨hrow, hstored⟩
  unfold DownloadState.explorerDownload
  rw [hfirst]
  dsimp only
  rw [hdocument]
  dsimp only
  rw [hfind]
  dsimp only
  refine ⟨fun data hread => by rw [hread], fun hnone => ?_⟩
  split
  · next data hread => exact absurd hread (hnone data)
  · rfl

/-- **The address of a document is its hash**: what the explorer names is served exactly when the
storage answers with bytes of the hash in the address, and is a conflict otherwise; what it does
not name is not found. -/
theorem explorer_serves_hash (hreach : Reaches (DownloadState.step K) Always .empty s)
    (publicToken sha256 : Text) (answer : Option (List UInt8)) :
    ((¬ ∃ version, AtAddress s publicToken sha256 version) →
      s.explorerDownload K publicToken sha256 answer = .notFound) ∧
    ∀ version, AtAddress s publicToken sha256 version →
      ((∃ file, s.explorerDownload K publicToken sha256 answer = .document file ∧
          file.version = version ∧ answer = some file.body) ↔
        ∃ data, answer = some data ∧ K.hashing.sha256hex ⟨data.toArray⟩ = sha256) ∧
      ((¬ ∃ data, answer = some data ∧ K.hashing.sha256hex ⟨data.toArray⟩ = sha256) →
        s.explorerDownload K publicToken sha256 answer = .conflict) := by
  refine ⟨explorerDownload_of_none publicToken sha256 answer, fun version haddress => ?_⟩
  obtain ⟨row, stored, rfl, hstored, hserved, hconflict⟩ :=
    explorerDownload_of_atAddress (FiledInv.reachable hreach) publicToken sha256 answer version
      haddress
  have hverified (data : List UInt8) :
      readVersion K.toArchiveConfig row stored answer = .verified data ↔
        answer = some data ∧ K.hashing.sha256hex ⟨data.toArray⟩ = row.sha256 := by
    refine ⟨readVersion_verified _ _ _ _ _, ?_⟩
    rintro ⟨rfl, hhash⟩
    exact readVersion_of_hash _ row stored data hstored hhash
  by_cases hintact : ∃ data, answer = some data ∧
      K.hashing.sha256hex ⟨data.toArray⟩ = row.sha256
  · obtain ⟨data, hdata⟩ := hintact
    have hfile := hserved data ((hverified data).mpr hdata)
    exact ⟨⟨fun _ => ⟨data, hdata⟩, fun _ => ⟨_, hfile, rfl, hdata.1⟩⟩,
      fun hnone => absurd ⟨data, hdata⟩ hnone⟩
  · have hrefused := hconflict fun data hread => hintact ⟨data, (hverified data).mp hread⟩
    refine ⟨⟨?_, fun hnone => absurd hnone hintact⟩, fun _ => hrefused⟩
    rintro ⟨file, hfile, _⟩
    rw [hrefused] at hfile
    cases hfile

end Served

/-- The token of the resident for the quotation. -/
def quotationToken : IssuedToken :=
  ⟨downloadSalt, ⟨1, 8⟩, 100, sampleSigning.dumps downloadSalt ⟨1, 8⟩ 100⟩

/-- The resident gets the quotation, and nothing while the storage is silent. -/
theorem resident_gets_intact_quotation : ∃ s : DownloadState,
    (∃ file, s.documentDownload sampleDownloads 8 quotationToken.token
      (some (samplePdf 1).content) = .document file) ∧
    s.documentDownload sampleDownloads 8 quotationToken.token none = .notFound := by
  obtain ⟨s, hreach, hissued, hage, hmay, hupload⟩ := exists_of_run
    (DownloadState.step sampleDownloads) .empty
    (fun s => quotationToken ∈ s.issued ∧ s.now ≤ quotationToken.issuedAt + downloadMaxAge ∧
      residentCanDownload s.archive 8 1 = true ∧
      (s.uploads 1).map UploadedFile.content = some (samplePdf 1).content) waitingRun
    (by decide +kernel)
  obtain ⟨f, hf, hcontent⟩ := Option.map_eq_some_iff.mp hupload
  refine ⟨s, ?_, ?_⟩
  · refine (resident_gets_intact sampleSigning_lawful hreach _ hissued rfl 8 _).1.mpr
      ⟨rfl, hage, hmay, _, f, rfl, hf, ?_⟩
    rw [contentHash, hcontent]
  · have hsilent := resident_gets_intact sampleSigning_lawful hreach _ hissued rfl 8 none
    refine hsilent.2 fun hserved => ?_
    obtain ⟨_, _, _, data, _, hnone, _⟩ := hsilent.1.mp hserved
    cases hnone

/-- The quotation at its address, and a conflict for other bytes. -/
theorem explorer_serves_hash_quotation : ∃ s : DownloadState,
    (∃ file, s.explorerDownload sampleDownloads "t1".toList
      (contentHash sampleArchive (samplePdf 1)) (some (samplePdf 1).content) = .document file ∧
        file.version = 1 ∧ some (samplePdf 1).content = some file.body) ∧
    s.explorerDownload sampleDownloads "t1".toList (contentHash sampleArchive (samplePdf 1)) none =
      .conflict := by
  obtain ⟨s, hreach, hproposal, hdocument⟩ := exists_of_run (DownloadState.step sampleDownloads)
    .empty (fun s => ((s.archive.db.proposals.first?
        fun p => p.publicToken = some "t1".toList).map Prod.fst) = some 1 ∧
      explorerDocument s.archive.db 1 (contentHash sampleArchive (samplePdf 1)) = some 1) waitingRun
    (by decide +kernel)
  obtain ⟨⟨proposal, p⟩, hfirst, rfl⟩ := Option.map_eq_some_iff.mp hproposal
  have haddress : AtAddress s "t1".toList (contentHash sampleArchive (samplePdf 1)) 1 :=
    ⟨_, p, hfirst, hdocument⟩
  refine ⟨s, ((explorer_serves_hash hreach _ _ _).2 1 haddress).1.mpr ⟨_, rfl, rfl⟩,
    ((explorer_serves_hash hreach _ _ none).2 1 haddress).2 ?_⟩
  rintro ⟨data, hnone, _⟩
  cases hnone

end LamTo.Analysis
