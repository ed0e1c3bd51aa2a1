import LamTo.Analysis.ResidentDownloads
import LamTo.Model.Downloads

/-!
# What is served was uploaded

Documents leave the application on three routes, and the storage may answer with anything. In
every run a file that is served has the hash of what was uploaded under the key of its version, and
whoever gets it may have it at that moment: behind a token he was issued for that version, on that
route, no longer than five minutes ago. What a manager gets is in the audit trail.

* A row of a version is written by an upload and never rewritten (`versionRows`), so its hash is
  that of the upload. No service and no route writes such a row.
* A token is what was signed when it was issued (`DownloadsInv`), so the signer reads it back.
* Whether a manager may have the document is asked again when the token is redeemed. The occupancy
  in any building that `authorize_download` falls back to is no way in (`allowed_of_manager`).

SOURCE: src/lamto/api/downloads.py, src/lamto/api/views.py:626-648, src/lamto/documents/access.py,
src/lamto/web/views/documents.py, src/lamto/explorer/views.py:364-422
-/

set_option autoImplicit false

namespace LamTo.Analysis

open LamTo.Library LamTo.Model

variable {K : DownloadConfig} {s t : DownloadState} {a : DownloadAction}

/-! ## The rows of versions -/

/-- No service of `Db` writes a document version, once uploads stand for that. -/
theorem documentVersions_same (C : EvidenceConfig) (db db' : Db) (a : Command)
    (h : Db.step C db a = some db') (ha : Command.replaced a = false) :
    db'.documentVersions = db.documentVersions := by
  have hwork (hstep : WorkStep db a db') : db'.documentVersions = db.documentVersions :=
    hstep.sameRegisters.documentVersions
  cases a with
  | createDocumentVersion row => cases ha
  | submitReport reporter building isPrivate => cases ha
  | createBuilding | setMembershipActive | setOccupancyActive | createLocation | suggest | predict
  | loseKeys | deliver =>
    cases h
    rfl
  | createMembership | createOccupancy | createDocument =>
    obtain ⟨_, rfl⟩ := guardDb_eq_some _ _ _ h
    rfl
  | reviewSubmitted report =>
    cases h
    exact hwork (.reviewed db report)
  | closeExpiredCompletedCases now =>
    cases h
    exact hwork (.expired db now)
  | confirmTriage =>
    obtain ⟨pk, h⟩ := returned_eq_some _ _ h
    exact hwork (confirmTriage_step _ _ _ _ _ _ _ _ _ _ _ pk h)
  | groupReport =>
    obtain ⟨pk, h⟩ := returned_eq_some _ _ h
    exact hwork (groupReport_step _ _ _ _ _ pk h)
  | startCaseWork => exact hwork (startCaseWork_step _ _ _ _ _ (returnedDb_eq_some _ _ h))
  | publishProgress =>
    exact hwork (publishProgress_step _ _ _ _ _ _ _ _ (returnedDb_eq_some _ _ h))
  | completeProposalWork =>
    exact hwork (completeProposalWork_step _ _ _ _ _ _ _ _ (returnedDb_eq_some _ _ h))
  | completeCaseWork =>
    exact hwork (completeCaseWork_step _ _ _ _ _ _ _ _ (returnedDb_eq_some _ _ h))
  | declineReport => exact hwork (declineReport_step _ _ _ _ _ _ _ (returnedDb_eq_some _ _ h))
  | requestInformation =>
    obtain ⟨pk, h⟩ := returned_eq_some _ _ h
    exact hwork (requestInformation_step _ _ _ _ _ _ pk h)
  | replyInformation =>
    obtain ⟨pk, h⟩ := returned_eq_some _ _ h
    exact hwork (replyInformation_step _ _ _ _ _ _ _ pk h)
  | rateCompletedCase =>
    obtain ⟨pk, h⟩ := returned_eq_some _ _ h
    exact hwork (rateCompletedCase_step _ _ _ _ _ _ _ _ pk h)
  | rateCompletedProposal =>
    obtain ⟨pk, h⟩ := returned_eq_some _ _ h
    exact hwork (rateCompletedProposal_step _ _ _ _ _ _ _ _ pk h)
  | createProposal =>
    obtain ⟨pk, h⟩ := returned_eq_some _ _ h
    exact hwork (createProposal_step _ _ _ _ _ pk h)
  | createStandaloneProposal =>
    obtain ⟨pk, h⟩ := returned_eq_some _ _ h
    exact hwork (createStandaloneProposal_step _ _ _ _ _ pk h)
  | decideProposal =>
    exact hwork (decideProposal_step _ _ _ _ _ _ _ _ (returnedDb_eq_some _ _ h))
  | decideAndStart =>
    exact hwork (decideAndStart_step _ _ _ _ _ _ _ _ (returnedDb_eq_some _ _ h))
  | verifyPublishedEntry =>
    obtain ⟨pk, h⟩ := returned_eq_some _ _ h
    exact hwork (verifyPublishedEntry_step _ _ _ _ _ _ _ pk h)
  | publishProposalVersion =>
    obtain ⟨pk, h⟩ := returned_eq_some _ _ h
    obtain ⟨p, _⟩ := publishProposalVersion_eq_ok _ _ _ _ _ _ _ pk h
    exact p.documentVersions_eq
  | recordSettlement =>
    obtain ⟨pk, h⟩ := returned_eq_some _ _ h
    obtain ⟨s, _⟩ := recordSettlement_eq_ok _ _ _ _ _ _ _ _ pk h
    exact s.documentVersions_eq
  | getOrCreateFund building =>
    obtain ⟨_, rfl⟩ := guardDb_eq_some _ _ _ h
    obtain ⟨fund, funds, heq, _⟩ := getOrCreateFund_eq db building
    rw [heq]
  | recordFundSource =>
    obtain ⟨pk, h⟩ := returned_eq_some _ _ h
    obtain ⟨r, _⟩ := recordFundSource_eq_ok _ _ _ _ _ _ _ _ _ _ pk h
    rw [r.result]
  | verifyFundSource =>
    obtain ⟨pk, h⟩ := returned_eq_some _ _ h
    obtain ⟨v, _⟩ := verifyFundSource_eq_ok _ _ _ _ _ pk h
    rw [v.result]

/-- **A step of the archive writes at most one row of a version**, and that of its upload. -/
inductive VersionRows (K : ArchiveConfig) (s s' : Archive) : ArchiveAction → Prop where
  | kept (a : ArchiveAction)
      (h : ∀ pk v, s'.db.documentVersions.get? pk = some v →
        s.db.documentVersions.get? pk = some v) : VersionRows K s s' a
  | stored (caller : UploadCaller) (uploader : ℕ) (f : UploadedFile) (w : Surroundings)
      (document : ℕ) (h : s'.db.documentVersions =
        s.db.documentVersions.insert ⟨document, contentHash K f, true⟩) :
      VersionRows K s s' (.upload caller uploader f w)

theorem VersionEffect.rows {K : ArchiveConfig} {s s' : Archive} (caller : UploadCaller)
    (uploader document : ℕ) (f : UploadedFile) (w : Surroundings) (allow : Bool)
    (r : Except UploadError ℕ) (h : VersionEffect K s document f uploader w allow s' r) :
    VersionRows K s s' (.upload caller uploader f w) := by
  cases h with
  | stored d file event hdocument hkey => exact .stored _ _ _ _ document rfl
  | _ => exact .kept _ fun _ _ hv => hv

theorem UploadEffect.rows {K : ArchiveConfig} {s s' : Archive} (caller : UploadCaller)
    (uploader : ℕ) (f : UploadedFile) (w : Surroundings) (r : Except UploadError ℕ)
    (h : UploadEffect K s caller uploader f w s' r) :
    VersionRows K s s' (.upload caller uploader f w) := by
  cases h with
  | unchanged => exact .kept _ fun _ _ hv => hv
  | direct document allow t r hcaller h => exact h.rows caller uploader document f w allow r
  | rolledBack => exact .kept _ fun _ _ hv => hv
  | stored d file event hkey => exact .stored _ _ _ _ s.db.documents.next rfl
  | attached d file event report hphoto hkey => exact .stored _ _ _ _ s.db.documents.next rfl

theorem versionRows {K : ArchiveConfig} {s s' : Archive} {a : ArchiveAction}
    (h : Archive.step K s a = some s') : VersionRows K s s' a := by
  cases archive_effect h with
  | service command db hstep =>
    rw [Archive.step] at h
    split at h
    · cases h
    · next hreplaced =>
      rw [Bool.not_eq_true] at hreplaced
      refine .kept _ fun pk v hv => ?_
      dsimp only at hv
      rw [documentVersions_same _ _ _ command hstep hreplaced] at hv
      exact hv
  | uploaded caller uploader f w t r hfresh heffect => exact heffect.rows caller uploader f w r
  | quarantined f uploader reason w t r hmay heffect =>
    cases heffect with
    | _ => exact .kept _ fun _ _ hv => hv
  | cleaned c s' heffect =>
    cases heffect with
    | unchanged => exact .kept _ fun _ _ hv => hv
    | rolledBack => exact .kept _ fun _ _ hv => hv
    | pruned t s' hpruned hdrafts =>
      refine .kept _ fun pk v hv => hpruned.found pk v ?_
      rw [hdrafts.eq] at hv
      exact hv
  | _ => exact .kept _ fun _ _ hv => hv

/-! ## The routes -/

theorem readVersion_verified (K : ArchiveConfig) (row : DocumentVersion) (stored : StoredFile)
    (answer : Option (List UInt8)) (data : List UInt8)
    (h : readVersion K row stored answer = .verified data) :
    answer = some data ∧ K.hashing.sha256hex ⟨data.toArray⟩ = row.sha256 := by
  unfold readVersion at h
  split at h
  · cases h
  · cases answer with
    | none => cases h
    | some read =>
      dsimp only at h
      split at h
      · next hhash =>
        cases h
        exact ⟨rfl, hhash⟩
      · cases h

theorem findVersion_eq_some (s : Archive) (version : ℕ) (row : DocumentVersion)
    (stored : StoredFile) : s.findVersion version = some (row, stored) ↔
      s.db.documentVersions.get? version = some row ∧ s.files version = some stored := by
  unfold Archive.findVersion
  constructor
  · intro h
    obtain ⟨v, hv, hmap⟩ := Option.bind_eq_some_iff.mp h
    obtain ⟨f, hf, heq⟩ := Option.map_eq_some_iff.mp hmap
    cases heq
    exact ⟨hv, hf⟩
  · rintro ⟨hrow, hstored⟩
    rw [hrow, Option.bind_some, hstored]
    rfl

/-- The file is what the storage answered, and has the hash and the name of its version. -/
def FromArchive (K : DownloadConfig) (s : Archive) (answer : Option (List UInt8))
    (file : ServedFile) : Prop :=
  ∃ row stored, s.db.documentVersions.get? file.version = some row ∧
    s.files file.version = some stored ∧ answer = some file.body ∧
    K.hashing.sha256hex ⟨file.body.toArray⟩ = row.sha256 ∧
    file.disposition = contentDispositionInline K.unicode (some stored.filename)

theorem serve_fromArchive (version : ℕ) (row : DocumentVersion) (stored : StoredFile)
    (contentType : Text) (answer : Option (List UInt8)) (data : List UInt8) (file : ServedFile)
    (hfind : s.archive.findVersion version = some (row, stored))
    (hread : readVersion K.toArchiveConfig row stored answer = .verified data)
    (h : DownloadState.serve K version stored contentType data = .document file) :
    file.version = version ∧ FromArchive K s.archive answer file := by
  cases h
  obtain ⟨hrow, hstored⟩ := (findVersion_eq_some _ _ _ _).mp hfind
  obtain ⟨hanswer, hhash⟩ := readVersion_verified _ _ _ _ _ hread
  exact ⟨rfl, row, stored, hrow, hstored, hanswer, hhash, rfl⟩

theorem documentDownload_serves (user : ℕ) (token : Text) (answer : Option (List UInt8))
    (file : ServedFile) (h : s.documentDownload K user token answer = .document file) :
    FromArchive K s.archive answer file ∧
      K.signing.loads downloadSalt token downloadMaxAge s.now = some ⟨file.version, user⟩ ∧
      residentCanDownload s.archive user file.version = true := by
  unfold DownloadState.documentDownload at h
  split at h
  · cases h
  · next payload hloads =>
    split at h
    · cases h
    · next huser =>
      split at h
      · cases h
      · next row stored hfind =>
        split at h
        · next hmay =>
          split at h
          · next data hread =>
            obtain ⟨hversion, hfrom⟩ := serve_fromArchive _ _ _ _ answer _ file hfind hread h
            rw [not_not] at huser
            subst huser
            rw [hversion]
            exact ⟨hfrom, hloads, hmay⟩
          · cases h
        · cases h

theorem explorerDownload_serves (publicToken sha256 : Text) (answer : Option (List UInt8))
    (file : ServedFile) (h : s.explorerDownload K publicToken sha256 answer = .document file) :
    FromArchive K s.archive answer file ∧ ∃ proposal p,
      s.archive.db.proposals.get? proposal = some p ∧ p.publicToken = some publicToken ∧
      explorerDocument s.archive.db proposal sha256 = some file.version := by
  unfold DownloadState.explorerDownload at h
  split at h
  · cases h
  · next proposal p hfirst =>
    obtain ⟨hp, htoken⟩ := Table.first?_eq_some _ _ _ _ hfirst
    split at h
    · cases h
    · next version hdocument =>
      split at h
      · cases h
      · next row stored hfind =>
        split at h
        · next data hread =>
          obtain ⟨hversion, hfrom⟩ := serve_fromArchive _ _ _ _ answer _ file hfind hread h
          rw [hversion]
          exact ⟨hfrom, proposal, p, hp, of_decide_eq_true htoken, hdocument⟩
        · cases h

/-! ## The authorization of managers -/

/-- The event of a request for a version. -/
structure DownloadAudit (event : AuditEvent) (user version : ℕ) (result : String) : Prop
    extends AuditOf event user version result where
  action_eq : event.action = "document.download"

theorem auditDownload_eq_ok (db db' : Db) (user version : ℕ) (access : DocumentAccess)
    (result : String) (checked : Bool)
    (h : auditDownload db user access version result checked = .ok db') :
    ∃ event, DownloadAudit event user version result ∧
      db' = { db with audit := db.audit.insert event } := by
  unfold auditDownload at h
  dsimp only at h
  split at h
  · simp only [recordAudit, bind_eq_ok, pure_eq_ok] at h
    obtain ⟨_, _, rfl⟩ := h
    exact ⟨_, ⟨⟨rfl, rfl, rfl⟩, rfl⟩, rfl⟩
  · simp only [recordAuditWithoutMembership, bind_eq_ok, pure_eq_ok] at h
    obtain ⟨_, _, rfl⟩ := h
    exact ⟨_, ⟨⟨rfl, rfl, rfl⟩, rfl⟩, rfl⟩

theorem afterAudit_audit {α : Type} (db : Db) (user version : ℕ) (access : DocumentAccess)
    (result : String) (checked : Bool) (outcome : Except DocumentAccessError α) :
    ∃ audit, (afterAudit db (auditDownload db user access version result checked) outcome).1 =
      { db with audit } := by
  unfold afterAudit
  split
  · next db' hrecorded =>
    obtain ⟨event, _, rfl⟩ := auditDownload_eq_ok _ _ _ _ _ _ _ hrecorded
    exact ⟨_, rfl⟩
  · exact ⟨db.audit, rfl⟩

/-- An authorization writes the audit trail. -/
theorem authorizeDownload_audit (K : ArchiveConfig) (db : Db) (user version : ℕ)
    (row : DocumentVersion) (stored : StoredFile) (building : ℕ) (answer : Option (List UInt8)) :
    ∃ audit, (authorizeDownload K db user version row stored building answer).1 =
      { db with audit } := by
  unfold authorizeDownload
  dsimp only
  split
  · split
    · exact afterAudit_audit _ _ _ _ _ _ _
    · exact afterAudit_audit _ _ _ _ _ _ _
    · exact afterAudit_audit _ _ _ _ _ _ _
  · exact afterAudit_audit _ _ _ _ _ _ _

theorem afterAudit_eq_ok {α : Type} (db db' : Db) (recorded : Except ServiceError Db)
    (outcome : Except DocumentAccessError α) (x : α)
    (h : afterAudit db recorded outcome = (db', .ok x)) :
    outcome = .ok x ∧ recorded = .ok db' := by
  unfold afterAudit at h
  split at h
  · next db'' =>
    cases h
    exact ⟨rfl, rfl⟩
  · cases h

theorem authorizeDownload_eq_ok (K : ArchiveConfig) (db db' : Db) (user version : ℕ)
    (row : DocumentVersion) (stored : StoredFile) (building : ℕ) (answer : Option (List UInt8))
    (data : List UInt8)
    (h : authorizeDownload K db user version row stored building answer = (db', .ok data)) :
    (documentAccess db user building).allowed = true ∧
      readVersion K row stored answer = .verified data ∧
      ∃ event, DownloadAudit event user version "allowed" ∧
        db' = { db with audit := db.audit.insert event } := by
  unfold authorizeDownload at h
  dsimp only at h
  split at h
  · next hallowed =>
    split at h
    · cases (afterAudit_eq_ok _ _ _ _ _ h).1
    · cases (afterAudit_eq_ok _ _ _ _ _ h).1
    · next read hread =>
      obtain ⟨heq, hrecorded⟩ := afterAudit_eq_ok _ _ _ _ _ h
      cases heq
      exact ⟨hallowed, hread, auditDownload_eq_ok _ _ _ _ _ _ _ hrecorded⟩
  · cases (afterAudit_eq_ok _ _ _ _ _ h).1

/-- **A manager who is let in manages the building or lives in it.** -/
theorem allowed_of_manager (db : Db) (user building : ℕ)
    (hmanages : DownloadState.managesNothing db user = false)
    (h : (documentAccess db user building).allowed = true) :
    ActiveManager db building user ∨ Occupies db user building := by
  rw [DownloadState.managesNothing, Bool.not_eq_false', Table.any_eq_true] at hmanages
  obtain ⟨key, member, hmember, hactive⟩ := hmanages
  cases hmembership : requireManagement db user building with
  | ok found =>
    obtain ⟨pk, m⟩ := found
    obtain ⟨hm, huser, hbuilding, hactive⟩ := requireManagement_eq_ok _ _ _ _ _ hmembership
    exact .inl ⟨pk, m, hm, hbuilding, hactive, huser⟩
  | error e =>
    have hanywhere :
        (db.memberships.first? fun m => m.user = user && m.active).isSome = true := by
      rw [Option.isSome_iff_ne_none]
      intro hnone
      have := (db.memberships.first?_eq_none _).mp hnone key member hmember
      rw [hactive] at this
      cases this
    cases hoccupancy : db.occupancies.first?
        fun o => o.user = user && o.active && o.building = building with
    | some found =>
      obtain ⟨pk, o⟩ := found
      obtain ⟨ho, hall⟩ := Table.first?_eq_some _ _ _ _ hoccupancy
      simp only [Bool.and_eq_true, decide_eq_true_eq] at hall
      exact .inr ⟨pk, o, ho, hall.1.1, hall.1.2, hall.2⟩
    | none =>
      -- A membership for the audit is found, so no other occupancy is looked for.
      simp [DocumentAccess.allowed, documentAccess, hmembership, hoccupancy, hanywhere,
        Except.toOption] at h

/-! ## What a request leaves -/

/-- **A request writes audit events and issues tokens.** -/
structure RouteStep (K : DownloadConfig) (s t : DownloadState) : Prop where
  now_eq : t.now = s.now
  uploads_eq : t.uploads = s.uploads
  archive_eq : ∃ audit, t.archive = { s.archive with db := { s.archive.db with audit } }
  issued : ∀ i ∈ t.issued, i ∈ s.issued ∨
    i.token = K.signing.dumps i.salt i.payload i.issuedAt ∧ i.issuedAt = s.now

theorem RouteStep.refl (s : DownloadState) : RouteStep K s s :=
  ⟨rfl, rfl, ⟨s.archive.db.audit, rfl⟩, fun _ hi => .inl hi⟩

theorem RouteStep.issue (h : RouteStep K s t) (salt : Text) (payload : TokenPayload) :
    RouteStep K s (t.issue K salt payload) where
  now_eq := h.now_eq
  uploads_eq := h.uploads_eq
  archive_eq := h.archive_eq
  issued i hi := by
    rcases List.mem_cons.mp hi with rfl | hold
    · exact .inr ⟨rfl, h.now_eq⟩
    · exact h.issued i hold

theorem routeStep_withDb (db : Db) (h : ∃ audit, db = { s.archive.db with audit }) :
    RouteStep K s (s.withDb db) := by
  obtain ⟨audit, rfl⟩ := h
  exact ⟨rfl, rfl, ⟨audit, rfl⟩, fun _ hi => .inl hi⟩

/-- The state after an authorization, whatever becomes of it. -/
theorem authorize_routeStep (user version : ℕ) (row : DocumentVersion) (stored : StoredFile)
    (answer : Option (List UInt8))
    (granted : DownloadState → List UInt8 → DownloadState × DownloadResponse)
    (hgranted : ∀ u data, RouteStep K s u → RouteStep K s (granted u data).1) :
    RouteStep K s (s.authorize K user version row stored answer granted).1 := by
  unfold DownloadState.authorize
  split
  · exact .refl s
  · next d hd =>
    have haudit := authorizeDownload_audit K.toArchiveConfig s.archive.db user version row stored
      d.building answer
    cases hcall : authorizeDownload K.toArchiveConfig s.archive.db user version row stored
        d.building answer with
    | mk db result =>
      rw [hcall] at haudit
      have hdb : RouteStep K s (s.withDb db) := routeStep_withDb db haudit
      cases result with
      | ok data => exact hgranted _ data hdb
      | error e =>
        cases e with
        | _ => exact hdb

theorem staffDocumentRedirect_routeStep (user version : ℕ) (answer : Option (List UInt8)) :
    RouteStep K s (s.staffDocumentRedirect K user version answer).1 := by
  unfold DownloadState.staffDocumentRedirect
  split
  · exact .refl s
  · split
    · exact .refl s
    · exact authorize_routeStep _ _ _ _ _ _ fun u data h => h.issue _ _

theorem staffDocumentDownload_routeStep (user : ℕ) (token : Text) (answer : Option (List UInt8)) :
    RouteStep K s (s.staffDocumentDownload K user token answer).1 := by
  unfold DownloadState.staffDocumentDownload
  split
  · exact .refl s
  · split
    · exact .refl s
    · split
      · exact .refl s
      · split
        · exact .refl s
        · exact authorize_routeStep _ _ _ _ _ _ fun u data h => h

/-- A file that comes out of an authorization. -/
theorem authorize_serves (user version : ℕ) (row : DocumentVersion) (stored : StoredFile)
    (answer : Option (List UInt8))
    (granted : DownloadState → List UInt8 → DownloadState × DownloadResponse) (file : ServedFile)
    (h : (s.authorize K user version row stored answer granted).2 = .document file) :
    ∃ d data event, s.archive.db.documents.get? row.document = some d ∧
      (documentAccess s.archive.db user d.building).allowed = true ∧
      readVersion K.toArchiveConfig row stored answer = .verified data ∧
      DownloadAudit event user version "allowed" ∧
      s.authorize K user version row stored answer granted = granted (s.withDb
        { s.archive.db with audit := s.archive.db.audit.insert event }) data := by
  unfold DownloadState.authorize at h ⊢
  cases hd : s.archive.db.documents.get? row.document with
  | none =>
    rw [hd] at h
    cases h
  | some d =>
    rw [hd] at h
    dsimp only at h ⊢
    cases hcall : authorizeDownload K.toArchiveConfig s.archive.db user version row stored
        d.building answer with
    | mk db result =>
      rw [hcall] at h
      cases result with
      | ok data =>
        obtain ⟨hallowed, hread, event, hevent, rfl⟩ :=
          authorizeDownload_eq_ok _ _ _ _ _ _ _ _ _ _ hcall
        exact ⟨d, data, event, rfl, hallowed, hread, hevent, rfl⟩
      | error e =>
        cases e with
        | _ => cases h

theorem staffDocumentRedirect_serves (user version : ℕ) (answer : Option (List UInt8))
    (file : ServedFile) : (s.staffDocumentRedirect K user version answer).2 ≠ .document file := by
  unfold DownloadState.staffDocumentRedirect
  split
  · exact DownloadResponse.noConfusion
  · split
    · exact DownloadResponse.noConfusion
    · intro h
      obtain ⟨_, _, _, _, _, _, _, heq⟩ := authorize_serves _ _ _ _ _ _ file h
      rw [heq] at h
      cases h

theorem staffDocumentDownload_serves (user : ℕ) (token : Text) (answer : Option (List UInt8))
    (file : ServedFile) (h : (s.staffDocumentDownload K user token answer).2 = .document file) :
    FromArchive K s.archive answer file ∧
      K.signing.loads staffDownloadSalt token downloadMaxAge s.now = some ⟨file.version, user⟩ ∧
      (∃ row d, s.archive.db.documentVersions.get? file.version = some row ∧
        s.archive.db.documents.get? row.document = some d ∧
        (ActiveManager s.archive.db d.building user ∨ Occupies s.archive.db user d.building)) ∧
      ∃ event, DownloadAudit event user file.version "allowed" ∧
        (s.staffDocumentDownload K user token answer).1.archive.db.audit =
          s.archive.db.audit.insert event := by
  unfold DownloadState.staffDocumentDownload at h ⊢
  split at h
  · cases h
  · next hmanages =>
    rw [if_neg hmanages]
    rw [Bool.not_eq_true] at hmanages
    split at h
    · cases h
    · next payload hloads =>
      rw [hloads]
      split at h
      · cases h
      · next huser =>
        rw [if_neg huser]
        split at h
        · cases h
        · next row stored hfind =>
          obtain ⟨d, data, event, hd, hallowed, hread, hevent, heq⟩ :=
            authorize_serves _ _ _ _ _ _ file h
          rw [heq] at h ⊢
          obtain ⟨hversion, hfrom⟩ := serve_fromArchive _ _ _ _ answer data file hfind hread h
          rw [not_not] at huser
          subst huser
          rw [hversion]
          have hrow := ((findVersion_eq_some _ _ _ _).mp hfind).1
          exact ⟨hfrom, rfl, ⟨row, d, hrow, hd, allowed_of_manager _ _ _ hmanages hallowed⟩, event,
            hevent, rfl⟩

/-! ## Every run -/

/-- **The row of a version has the hash of its upload, and a token is what was signed.** -/
structure DownloadsInv (K : DownloadConfig) (s : DownloadState) : Prop where
  uploads : ∀ pk v, s.archive.db.documentVersions.get? pk = some v →
    ∃ f, s.uploads pk = some f ∧ v.sha256 = contentHash K.toArchiveConfig f
  issued : ∀ i ∈ s.issued,
    i.token = K.signing.dumps i.salt i.payload i.issuedAt ∧ i.issuedAt ≤ s.now

theorem downloadsInv_empty : DownloadsInv K .empty where
  uploads _ _ hv := by cases hv
  issued _ hi := by cases hi

theorem DownloadsInv.routeStep (hinv : DownloadsInv K s) (h : RouteStep K s t) :
    DownloadsInv K t where
  uploads := by
    obtain ⟨audit, harchive⟩ := h.archive_eq
    rw [harchive, h.uploads_eq]
    exact hinv.uploads
  issued i hi := by
    rw [h.now_eq]
    rcases h.issued i hi with hold | ⟨htoken, hnow⟩
    · exact hinv.issued i hold
    · exact ⟨htoken, hnow.le⟩

/-- What was uploaded under the keys that are taken stays. -/
theorem uploadsAfter_of_ne (archive : Archive) (action : ArchiveAction) (pk : ℕ)
    (h : pk ≠ s.archive.db.documentVersions.next) :
    s.uploadsAfter archive action pk = s.uploads pk := by
  cases action with
  | upload caller uploader f w =>
    rw [DownloadState.uploadsAfter]
    split
    · exact Function.update_of_ne h _ _
    · rfl
  | _ => rfl

theorem DownloadsInv.archive (hinv : DownloadsInv K s) (action : ArchiveAction) (archive : Archive)
    (h : Archive.step K.toArchiveConfig s.archive action = some archive) :
    DownloadsInv K { s with archive, uploads := s.uploadsAfter archive action } where
  uploads pk v hv := by
    have hold (hv : s.archive.db.documentVersions.get? pk = some v) :
        ∃ f, s.uploadsAfter archive action pk = some f ∧
          v.sha256 = contentHash K.toArchiveConfig f := by
      rw [uploadsAfter_of_ne]
      · exact hinv.uploads pk v hv
      · exact (Table.lt_next_of_get? _ _ _ hv).ne
    cases versionRows h with
    | kept _ hkept => exact hold (hkept pk v hv)
    | stored caller uploader f w document hinsert =>
      dsimp only at hv
      rw [hinsert, Table.get?_insert] at hv
      split at hv
      · next hpk =>
        cases hv
        refine ⟨f, ?_, rfl⟩
        rw [DownloadState.uploadsAfter, hpk]
        dsimp only
        rw [if_pos (by rw [hinsert, Table.get?_insert_self]; rfl), Function.update_self]
      · exact hold hv
  issued := hinv.issued

theorem DownloadsInv.step (hinv : DownloadsInv K s) (h : DownloadState.step K s a = some t) :
    DownloadsInv K t := by
  obtain ⟨⟨u, response⟩, hrespond, rfl⟩ := Option.map_eq_some_iff.mp h
  cases a with
  | tick elapsed =>
    cases hrespond
    refine ⟨hinv.uploads, fun i hi => ?_⟩
    exact ⟨(hinv.issued i hi).1, (hinv.issued i hi).2.trans (Nat.le_add_right _ _)⟩
  | archive action =>
    obtain ⟨archive, harchive, heq⟩ := Option.map_eq_some_iff.mp hrespond
    cases heq
    exact hinv.archive action archive harchive
  | issueDownloadToken user version =>
    cases hrespond
    exact hinv.routeStep ((RouteStep.refl s).issue _ _)
  | documentDownload user token answer =>
    cases hrespond
    exact hinv
  | staffDocumentRedirect user version answer =>
    have heq : some ((s.staffDocumentRedirect K user version answer).1,
        some (s.staffDocumentRedirect K user version answer).2) = some (u, response) := hrespond
    cases heq
    exact hinv.routeStep (staffDocumentRedirect_routeStep _ _ _)
  | staffDocumentDownload user token answer =>
    have heq : some ((s.staffDocumentDownload K user token answer).1,
        some (s.staffDocumentDownload K user token answer).2) = some (u, response) := hrespond
    cases heq
    exact hinv.routeStep (staffDocumentDownload_routeStep _ _ _)
  | explorerDownload publicToken sha256 answer =>
    cases hrespond
    exact hinv

theorem DownloadsInv.reachable (h : Reaches (DownloadState.step K) Always .empty s) :
    DownloadsInv K s :=
  h.preserves (DownloadsInv K) (fun _ _ _ hinv _ hstep => hinv.step hstep) downloadsInv_empty

/-! ## Who gets it -/

/-- A token that was issued for this, no longer ago than it lives. -/
def Redeemable (s : DownloadState) (salt token : Text) (payload : TokenPayload) : Prop :=
  ∃ i ∈ s.issued, i.salt = salt ∧ i.payload = payload ∧ i.token = token ∧ i.issuedAt ≤ s.now ∧
    s.now ≤ i.issuedAt + downloadMaxAge

theorem DownloadsInv.redeemable (hinv : DownloadsInv K s) (hlaw : K.signing.Lawful)
    (salt token : Text) (payload : TokenPayload)
    (hknown : DownloadState.unforged.known K s salt token = true)
    (h : K.signing.loads salt token downloadMaxAge s.now = some payload) :
    Redeemable s salt token payload := by
  rw [DownloadState.unforged.known, h, Option.isNone_some, Bool.false_or, List.any_eq_true]
    at hknown
  obtain ⟨i, hi, hboth⟩ := hknown
  rw [Bool.and_eq_true, decide_eq_true_eq, decide_eq_true_eq] at hboth
  obtain ⟨rfl, rfl⟩ := hboth
  obtain ⟨hsigned, hpast⟩ := hinv.issued i hi
  rw [hsigned, hlaw] at h
  split at h
  · next hage =>
    cases h
    exact ⟨i, hi, rfl, rfl, rfl, hpast, hage⟩
  · cases h

/-- **Whoever sends the request may have the version.** -/
inductive MayHave (s : DownloadState) (version : ℕ) : DownloadAction → Prop where
  | resident (user : ℕ) (token : Text) (answer : Option (List UInt8))
      (htoken : Redeemable s downloadSalt token ⟨version, user⟩)
      (h : residentCanDownload s.archive user version = true) :
      MayHave s version (.documentDownload user token answer)
  | manager (user : ℕ) (token : Text) (answer : Option (List UInt8)) (row : DocumentVersion)
      (d : Document) (htoken : Redeemable s staffDownloadSalt token ⟨version, user⟩)
      (hrow : s.archive.db.documentVersions.get? version = some row)
      (hd : s.archive.db.documents.get? row.document = some d)
      (h : ActiveManager s.archive.db d.building user ∨ Occupies s.archive.db user d.building) :
      MayHave s version (.staffDocumentDownload user token answer)
  | everyone (publicToken sha256 : Text) (answer : Option (List UInt8)) (proposal : ℕ)
      (p : Proposal) (hp : s.archive.db.proposals.get? proposal = some p)
      (htoken : p.publicToken = some publicToken)
      (h : explorerDocument s.archive.db proposal sha256 = some version) :
      MayHave s version (.explorerDownload publicToken sha256 answer)

/-- The manager's route leaves an event of what it serves. -/
def Audited (s t : DownloadState) (version : ℕ) : DownloadAction → Prop
  | .staffDocumentDownload user _ _ => ∃ event, DownloadAudit event user version "allowed" ∧
    t.archive.db.audit = s.archive.db.audit.insert event
  | _ => True

/-- A file that is served comes from the archive, and goes to whoever may have it. -/
theorem DownloadsInv.served (hinv : DownloadsInv K s) (hlaw : K.signing.Lawful) (file : ServedFile)
    (hgenuine : s.unforged K a = true)
    (h : s.respond K a = some (t, some (.document file))) :
    (∃ answer, FromArchive K s.archive answer file) ∧ MayHave s file.version a ∧
      Audited s t file.version a := by
  cases a with
  | tick elapsed => cases h
  | archive action =>
    obtain ⟨_, _, heq⟩ := Option.map_eq_some_iff.mp h
    cases heq
  | issueDownloadToken user version => cases h
  | documentDownload user token answer =>
    rw [DownloadState.respond, Option.some.injEq, Prod.mk.injEq, Option.some.injEq] at h
    obtain ⟨hfrom, hloads, hmay⟩ := documentDownload_serves user token answer file h.2
    have htoken := hinv.redeemable hlaw _ _ _ hgenuine hloads
    exact ⟨⟨answer, hfrom⟩, .resident user token answer htoken hmay, trivial⟩
  | staffDocumentRedirect user version answer =>
    have heq : some ((s.staffDocumentRedirect K user version answer).1,
        some (s.staffDocumentRedirect K user version answer).2) =
        some (t, some (.document file)) := h
    rw [Option.some.injEq, Prod.mk.injEq, Option.some.injEq] at heq
    exact absurd heq.2 (staffDocumentRedirect_serves user version answer file)
  | staffDocumentDownload user token answer =>
    have heq : some ((s.staffDocumentDownload K user token answer).1,
        some (s.staffDocumentDownload K user token answer).2) =
        some (t, some (.document file)) := h
    rw [Option.some.injEq, Prod.mk.injEq, Option.some.injEq] at heq
    obtain ⟨hfrom, hloads, ⟨row, d, hrow, hd, hmay⟩, hevent⟩ :=
      staffDocumentDownload_serves user token answer file heq.2
    have htoken := hinv.redeemable hlaw _ _ _ hgenuine hloads
    rw [heq.1] at hevent
    exact ⟨⟨answer, hfrom⟩, .manager user token answer row d htoken hrow hd hmay, hevent⟩
  | explorerDownload publicToken sha256 answer =>
    rw [DownloadState.respond, Option.some.injEq, Prod.mk.injEq, Option.some.injEq] at h
    obtain ⟨hfrom, proposal, p, hp, htoken, hdocument⟩ :=
      explorerDownload_serves publicToken sha256 answer file h.2
    exact ⟨⟨answer, hfrom⟩, .everyone publicToken sha256 answer proposal p hp htoken hdocument,
      trivial⟩

/-- **What is served was uploaded, and goes to whoever may have it.** -/
theorem served_as_uploaded (hlaw : K.signing.Lawful)
    (hreach : Reaches (DownloadState.step K) Always .empty s) (file : ServedFile)
    (hgenuine : s.unforged K a = true)
    (h : s.respond K a = some (t, some (.document file))) :
    (∃ f stored, s.uploads file.version = some f ∧ s.archive.files file.version = some stored ∧
      K.hashing.sha256hex ⟨file.body.toArray⟩ = contentHash K.toArchiveConfig f ∧
      file.disposition = contentDispositionInline K.unicode (some stored.filename)) ∧
    MayHave s file.version a ∧ Audited s t file.version a := by
  have hinv := DownloadsInv.reachable hreach
  obtain ⟨⟨_, row, stored, hrow, hstored, _, hhash, hname⟩, hrest⟩ :=
    hinv.served hlaw file hgenuine h
  obtain ⟨f, hf, hsha⟩ := hinv.uploads _ row hrow
  exact ⟨⟨f, stored, hf, hstored, hhash.trans hsha, hname⟩, hrest⟩

/-! ## A quotation -/

/-- A number written in strokes, and the text after it. -/
def readStrokes : Text → ℕ × Text
  | '1' :: t => ((readStrokes t).1 + 1, (readStrokes t).2)
  | t => (0, t.drop 1)

theorem readStrokes_append (n : ℕ) (t : Text) :
    readStrokes (List.replicate n '1' ++ '.' :: t) = (n, t) := by
  induction n with
  | zero => rfl
  | succ n ih => rw [List.replicate_succ, List.cons_append, readStrokes, ih]

/-- A signer that writes the payload, the time and the salt. -/
def sampleSigning : Signing where
  dumps salt payload issuedAt :=
    List.replicate payload.version '1' ++ '.' :: (List.replicate payload.user '1' ++
      '.' :: (List.replicate issuedAt '1' ++ '.' :: salt))
  loads salt token maxAge now :=
    let (version, t) := readStrokes token
    let (user, t) := readStrokes t
    let (issuedAt, t) := readStrokes t
    if t = salt ∧ now ≤ issuedAt + maxAge then some ⟨version, user⟩ else none

theorem sampleSigning_lawful : sampleSigning.Lawful := by
  intro salt payload issuedAt maxAge now
  simp only [sampleSigning, readStrokes_append, true_and]

def sampleDownloads : DownloadConfig where
  toArchiveConfig := sampleArchive
  signing := sampleSigning

/-- The resident is issued a token for the quotation, and waits. -/
def waitingRun : List DownloadAction :=
  settledRun.map .archive ++ [.tick 100, .issueDownloadToken 8 1, .tick 299]

/-- The resident sends the token, and the storage returns what was uploaded. -/
def fetchQuotation : DownloadAction :=
  .documentDownload 8 (sampleSigning.dumps downloadSalt ⟨1, 8⟩ 100)
    (some (samplePdf 1).content)

/-- The resident gets the quotation. -/
theorem served_as_uploaded_quotation : ∃ (s t : DownloadState) (file : ServedFile),
    s.respond sampleDownloads fetchQuotation = some (t, some (.document file)) ∧
    (∃ f stored, s.uploads file.version = some f ∧ s.archive.files file.version = some stored ∧
      sampleDownloads.hashing.sha256hex ⟨file.body.toArray⟩ =
        contentHash sampleDownloads.toArchiveConfig f ∧
      file.disposition = contentDispositionInline sampleDownloads.unicode (some stored.filename)) ∧
    MayHave s file.version fetchQuotation ∧ Audited s t file.version fetchQuotation := by
  obtain ⟨s, hreach, hgenuine, hresponse⟩ := exists_of_run (DownloadState.step sampleDownloads)
    .empty (fun s => s.unforged sampleDownloads fetchQuotation = true ∧
      (s.respond sampleDownloads fetchQuotation).map Prod.snd = some (some (.document
        ⟨1, (samplePdf 1).content, "application/pdf".toList,
          "inline; filename=\"scan.pdf\"; filename*=UTF-8''scan.pdf".toList⟩))) waitingRun
    (by decide +kernel)
  obtain ⟨⟨t, response⟩, h, rfl⟩ := Option.map_eq_some_iff.mp hresponse
  exact ⟨s, t, _, h, served_as_uploaded sampleSigning_lawful hreach _ hgenuine h⟩

end LamTo.Analysis
