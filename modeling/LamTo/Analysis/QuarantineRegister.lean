import LamTo.Analysis.ResidentDownloads

/-!
# The register of refused uploads

A refusal is written to the register and then raised. `create_document_version` has no transaction
around the two, so the row stays; `upload_document` and `attach_report_photo` call it in one, which
takes the row back, and the object of a file that is not clean stays in the storage.

* **One call** (`registered_iff_direct`): a call that ends in a refusal leaves its row and its audit
  event exactly when the caller has no transaction of its own.
* **A run** (`RegisterInv.reachable`): while no file goes to the quarantine through such a caller,
  and the row of each that does fits its columns, every object under `quarantine/` is named by a
  row.
* **The end** (`purged_of_named`): an object that a row names is deleted by the purge after its
  retention, once the storage answers.

SOURCE: src/lamto/documents/services.py:102-206, 259-299, 337-354,
src/lamto/web/staff_documents.py:42-71, src/lamto/maintenance/reporting.py:157-217
-/

set_option autoImplicit false

namespace LamTo.Analysis

open LamTo.Library LamTo.Model

variable {K : ArchiveConfig} {s s' : Archive} {a : ArchiveAction}

/-! ## One call -/

/-- What the register has of a refusal: its reason, and the result of the audit event. -/
def refusalRecord : UploadError → Option (Text × String)
  | .rejected reason => some (reason, "rejected")
  | .quarantined reason => some (reason, "quarantined")
  | _ => none

/-- **The refusal is in the register**: a new row, and a new audit event that names it. -/
def Registered (s s' : Archive) (uploader : ℕ) (e : UploadError) : Prop :=
  ∃ row event reason result, refusalRecord e = some (reason, result) ∧
    s'.quarantine = s.quarantine.insert row ∧ row.uploader = uploader ∧ row.reason = reason ∧
    s'.db.audit = s.db.audit.insert event ∧ AuditOf event uploader s.quarantine.next result

theorem not_registered_of_rows (uploader : ℕ) (e : UploadError)
    (h : s'.quarantine = s.quarantine) : ¬ Registered s s' uploader e := by
  rintro ⟨row, _, _, _, _, hinsert, _⟩
  have hrow := Table.get?_insert_self s.quarantine row
  rw [← hinsert, h, Table.get?_next] at hrow
  cases hrow

theorem VersionEffect.registered (document uploader : ℕ) (f : UploadedFile) (w : Surroundings)
    (allow : Bool) (e : UploadError)
    (h : VersionEffect K s document f uploader w allow s' (.error e)) (he : e.refusal = true) :
    Registered s s' uploader e := by
  cases h with
  | unchanged _ herror =>
    rw [herror] at he
    cases he
  | orphanedDocument _ herror =>
    rw [herror] at he
    cases he
  | orphanedObject _ _ herror =>
    rw [herror] at he
    cases he
  | rejected row event reason hkey huploader hreason haudit =>
    exact ⟨row, event, reason, "rejected", rfl, rfl, huploader, hreason, rfl, haudit⟩
  | quarantined d row event hdocument hreaches hscan hput hrow haudit =>
    exact ⟨row, event, _, "quarantined", rfl, rfl, hrow.uploader_eq, hrow.reason_eq, rfl, haudit⟩

/-- **A refusal stays in the register exactly when the caller has no transaction.** -/
theorem registered_iff_direct (caller : UploadCaller) (uploader : ℕ) (f : UploadedFile)
    (w : Surroundings) (e : UploadError)
    (h : UploadEffect K s caller uploader f w s' (.error e)) (he : e.refusal = true) :
    Registered s s' uploader e ↔ UploadCaller.isDirect caller = true := by
  cases h with
  | unchanged _ hr =>
    rw [hr e rfl] at he
    cases he
  | direct document allow t r hcaller h =>
    rw [hcaller]
    exact ⟨fun _ => rfl, fun _ => h.registered document uploader f w allow e he⟩
  | rolledBack d t e hcaller htarget h =>
    rw [hcaller]
    have hnot : ¬ Registered s { s with objects := t.objects } uploader e :=
      not_registered_of_rows uploader e rfl
    exact ⟨fun hregistered => absurd hregistered hnot, fun h => by cases h⟩

/-! ## A run -/

/-- The key is under `quarantine/`. -/
def isQuarantined (key : Text) : Bool := "quarantine/".toList.isPrefixOf key

theorem isQuarantined_documentKey (document : ℕ) (uuid : Text) :
    isQuarantined (documentKey document uuid) = false := rfl

/-- **Every object under `quarantine/` is named**, and the row of an object can be purged. -/
structure RegisterInv (K : ArchiveConfig) (s : Archive) : Prop where
  named : ∀ key ∈ s.objects, isQuarantined key = true →
    ∃ pk q, s.quarantine.get? pk = some q ∧ q.storageKey = some key
  versionId : ∀ pk q, s.quarantine.get? pk = some q → q.storageKey ≠ none → K.backend = .s3 →
    validVersionId q.providerVersionId = true

theorem registerInv_empty : RegisterInv K Archive.empty where
  named _ h := by cases h
  versionId _ _ h := by cases h

/-- The rows stay, and no object comes under `quarantine/`. -/
theorem RegisterInv.keep (hinv : RegisterInv K s)
    (hrows : ∀ pk, s'.quarantine.get? pk = s.quarantine.get? pk)
    (hobjects : ∀ key ∈ s'.objects, isQuarantined key = true → key ∈ s.objects) :
    RegisterInv K s' := by
  constructor
  · intro key hkey hquarantined
    obtain ⟨pk, q, hq, hnamed⟩ := hinv.named key (hobjects key hkey hquarantined) hquarantined
    exact ⟨pk, q, (hrows pk).trans hq, hnamed⟩
  · intro pk q hq
    exact hinv.versionId pk q ((hrows pk).symm.trans hq)

/-- A document's object is not under `quarantine/`. -/
theorem mem_of_cons_documentKey (document : ℕ) (uuid key : Text) (objects : List Text)
    (h : key ∈ documentKey document uuid :: objects) (hkey : isQuarantined key = true) :
    key ∈ objects := by
  rcases List.mem_cons.mp h with rfl | hold
  · rw [isQuarantined_documentKey] at hkey
    cases hkey
  · exact hold

/-- A row is added, with the object it names or without one. -/
theorem RegisterInv.insert (hinv : RegisterInv K s) (row : QuarantinedUpload)
    (hrow : row.storageKey ≠ none → K.backend = .s3 → validVersionId row.providerVersionId = true)
    (hrows : s'.quarantine = s.quarantine.insert row)
    (hobjects : ∀ key ∈ s'.objects, row.storageKey = some key ∨ key ∈ s.objects) :
    RegisterInv K s' := by
  constructor
  · intro key hkey hquarantined
    rw [hrows]
    rcases hobjects key hkey with hnew | hold
    · exact ⟨s.quarantine.next, row, Table.get?_insert_self _ _, hnew⟩
    · obtain ⟨pk, q, hq, hnamed⟩ := hinv.named key hold hquarantined
      exact ⟨pk, q, Table.get?_insert_of_some _ _ _ pk hq, hnamed⟩
  · intro pk q hq
    rw [hrows, Table.get?_insert] at hq
    split at hq
    · cases hq
      exact hrow
    · exact hinv.versionId pk q hq

theorem mem_of_cons_quarantineKey (uploader : ℕ) (reason : Text) (w : Surroundings)
    (row : QuarantinedUpload) (hrow : QuarantineRow K uploader reason w row)
    (objects : List Text) (key : Text) (h : key ∈ quarantineKey w.uuid :: objects) :
    row.storageKey = some key ∨ key ∈ objects := by
  rcases List.mem_cons.mp h with rfl | hold
  · exact .inl hrow.storageKey_eq
  · exact .inr hold

/-- **What is asked of a step**: a file that goes to the quarantine (its uploader permitted, its
checks passed, not clean, taken by the storage) comes through a caller without a transaction, and
its row fits the columns. -/
def QuarantinesRegistered (K : ArchiveConfig) (s : Archive) : ArchiveAction → Prop
  | .upload caller uploader f w => ∀ d, targetDocument K s uploader f caller = some d →
    reachesScan K s.db d uploader (UploadCaller.allowsResident caller) f = true → w.scan ≠ .clean →
    w.put ≠ .refused →
    UploadCaller.isDirect caller = true ∧ registrable K f (scanReason w.scan) w = true
  | .quarantineUpload f uploader reason w =>
    mayQuarantine s.db uploader = true → w.put ≠ .refused → registrable K f reason w = true
  | _ => True

theorem registrable_refused (f : UploadedFile) (reason : Text) (w : Surroundings)
    (h : registrable K f reason w = false) : w.put ≠ .refused := by
  intro hput
  rw [registrable, hput] at h
  cases h

theorem VersionEffect.register (document uploader : ℕ) (f : UploadedFile) (w : Surroundings)
    (allow : Bool) (r : Except UploadError ℕ)
    (h : VersionEffect K s document f uploader w allow s' r) (hinv : RegisterInv K s)
    (hok : QuarantinesRegistered K s (.upload (.direct document allow) uploader f w)) :
    RegisterInv K s' := by
  cases h with
  | unchanged => exact hinv
  | orphanedDocument =>
    exact hinv.keep (fun _ => rfl) fun key => mem_of_cons_documentKey document w.uuid key s.objects
  | orphanedObject d e herror hdocument hreaches hscan hunfit =>
    obtain ⟨_, hfits⟩ := hok d hdocument hreaches hscan (registrable_refused f _ w hunfit)
    rw [hunfit] at hfits
    cases hfits
  | rejected row event reason hkey huploader hreason haudit =>
    exact hinv.insert row (fun hsome => absurd hkey hsome) rfl fun key hmem => .inr hmem
  | quarantined d row event hdocument hreaches hscan hput hrow haudit =>
    exact hinv.insert row (fun _ => hrow.versionId) rfl fun key =>
      mem_of_cons_quarantineKey uploader _ w row hrow s.objects key
  | stored d file event hdocument hkey =>
    refine hinv.keep (fun _ => rfl) fun key hmem => ?_
    rw [Analysis.withVersion, hkey] at hmem
    exact mem_of_cons_documentKey document w.uuid key s.objects hmem

/-- What a call leaves that is rolled back: a document's object, or none. -/
theorem VersionEffect.rolledBack (caller : UploadCaller) (d : Document) (t : Archive)
    (uploader : ℕ) (f : UploadedFile) (w : Surroundings) (e : UploadError)
    (hcaller : UploadCaller.isDirect caller = false)
    (htarget : targetDocument K s uploader f caller = some d)
    (h : VersionEffect K (withDocument s d) s.db.documents.next f uploader w
      (UploadCaller.allowsResident caller) t (.error e))
    (hok : QuarantinesRegistered K s (.upload caller uploader f w)) :
    ∀ key ∈ t.objects, isQuarantined key = true → key ∈ s.objects := by
  -- A file in the quarantine contradicts the condition, since the caller has a transaction.
  have hnone : ∀ d', (withDocument s d).db.documents.get? s.db.documents.next = some d' →
      reachesScan K (withDocument s d).db d' uploader (UploadCaller.allowsResident caller) f = true →
      w.scan ≠ .clean → w.put ≠ .refused → False := by
    intro d' hd' hreaches hscan hput
    cases (Table.get?_insert_self s.db.documents d).symm.trans hd'
    obtain ⟨hdirect, _⟩ := hok d htarget hreaches hscan hput
    rw [hcaller] at hdirect
    cases hdirect
  cases h with
  | unchanged => exact fun _ hkey _ => hkey
  | orphanedDocument =>
    exact fun key => mem_of_cons_documentKey s.db.documents.next w.uuid key s.objects
  | orphanedObject d' e herror hdocument hreaches hscan hunfit =>
    exact (hnone d' hdocument hreaches hscan (registrable_refused f _ w hunfit)).elim
  | rejected => exact fun _ hkey _ => hkey
  | quarantined d' row event hdocument hreaches hscan hput hrow haudit =>
    exact (hnone d' hdocument hreaches hscan hput).elim

theorem RegisterInv.uploaded (hinv : RegisterInv K s) (caller : UploadCaller) (uploader : ℕ)
    (f : UploadedFile) (w : Surroundings) (r : Except UploadError ℕ)
    (hok : QuarantinesRegistered K s (.upload caller uploader f w))
    (h : UploadEffect K s caller uploader f w s' r) : RegisterInv K s' := by
  have hstored : ∀ (file : StoredFile), file.storageKey = documentKey s.db.documents.next w.uuid →
      ∀ key ∈ file.storageKey :: s.objects, isQuarantined key = true → key ∈ s.objects := by
    intro file hkey key hmem
    rw [hkey] at hmem
    exact mem_of_cons_documentKey s.db.documents.next w.uuid key s.objects hmem
  cases h with
  | unchanged => exact hinv
  | direct document allow t r hcaller h =>
    rw [hcaller] at hok
    exact h.register document uploader f w allow r hinv hok
  | rolledBack d t e hcaller htarget h =>
    exact hinv.keep (fun _ => rfl) (h.rolledBack caller d t uploader f w e hcaller htarget hok)
  | stored d file event hkey => exact hinv.keep (fun _ => rfl) (hstored file hkey)
  | attached d file event report hphoto hkey => exact hinv.keep (fun _ => rfl) (hstored file hkey)

/-- **A step that meets the condition keeps the register complete.** -/
theorem RegisterInv.step (hinv : RegisterInv K s) (hok : QuarantinesRegistered K s a)
    (h : Archive.step K s a = some s') : RegisterInv K s' := by
  cases archive_effect h with
  | unchanged => exact hinv
  | uploaded caller uploader f w t r hfresh heffect =>
    exact hinv.uploaded caller uploader f w r hok heffect
  | quarantined f uploader reason w t r hmay heffect =>
    cases heffect with
    | refused => exact hinv
    | orphaned e herror hput hunfit =>
      have hfits := hok hmay hput
      rw [hunfit] at hfits
      cases hfits
    | registered row event hrow hput haudit =>
      exact hinv.insert row (fun _ => hrow.versionId) rfl fun key =>
        mem_of_cons_quarantineKey uploader reason w row hrow s.objects key
  | purged now unreachable objects hsubset =>
    exact hinv.keep (fun _ => rfl) fun key hkey _ => hsubset key hkey
  | cleaned c s' heffect =>
    cases heffect with
    | unchanged => exact hinv
    | rolledBack t hpruned =>
      exact hinv.keep (fun _ => rfl) fun key hkey _ => hpruned.objects key hkey
    | pruned t s' hpruned hdrafts =>
      rw [hdrafts.eq]
      refine hinv.keep (fun pk => ?_) fun key hkey _ => hpruned.objects key hkey
      exact congrArg (fun q => q.get? pk) hpruned.quarantine_eq
  | _ => exact hinv.keep (fun _ => rfl) fun _ hkey _ => hkey

theorem RegisterInv.reachable
    (h : Reaches (Archive.step K) (QuarantinesRegistered K) Archive.empty s) : RegisterInv K s :=
  h.preserves (RegisterInv K) (fun _ _ _ hinv hok hstep => hinv.step hok hstep) registerInv_empty

/-! ## The end of the retention -/

/-- The loop of the purge returns, and the object of each of its rows is gone. -/
theorem purgeObjects_ok (unreachable : Text → Bool) (hanswers : ∀ key, unreachable key = false)
    (rows : List (ℕ × QuarantinedUpload))
    (hrows : ∀ r ∈ rows, K.backend = .s3 → validVersionId r.2.providerVersionId = true)
    (objects : List Text) :
    (purgeObjects K unreachable rows objects).2 = .ok () ∧
      ∀ r ∈ rows, ∀ key, r.2.storageKey = some key →
        key ∉ (purgeObjects K unreachable rows objects).1 := by
  induction rows generalizing objects with
  | nil => exact ⟨rfl, fun r hr => by cases hr⟩
  | cons head rows ih =>
    have hvalid : (K.backend = .s3 && !validVersionId head.2.providerVersionId) = false := by
      by_cases hbackend : K.backend = .s3
      · rw [hrows head List.mem_cons_self hbackend, Bool.not_true, Bool.and_false]
      · rw [decide_eq_false hbackend, Bool.false_and]
    have hreached : head.2.storageKey.any unreachable = false := by
      cases head.2.storageKey with
      | none => rfl
      | some key => exact hanswers key
    obtain ⟨hok, hgone⟩ := ih (fun r hr => hrows r (List.mem_cons_of_mem head hr))
      (objects.filter fun k => head.2.storageKey ≠ some k)
    have hstep : purgeObjects K unreachable (head :: rows) objects =
        purgeObjects K unreachable rows (objects.filter fun k => head.2.storageKey ≠ some k) := by
      rw [purgeObjects, hvalid, hreached]
      rfl
    rw [hstep]
    refine ⟨hok, fun r hr key hkey hmem => ?_⟩
    rcases List.mem_cons.mp hr with rfl | hrest
    · have hkept := purgeObjects_subset unreachable rows _ key hmem
      exact of_decide_eq_true (List.mem_filter.mp hkept).2 hkey
    · exact hgone r hrest key hkey hmem

/-- **The purge deletes an object that a row names**, after its retention. -/
theorem purged_of_named (hinv : RegisterInv K s) (pk now : ℕ) (q : QuarantinedUpload) (key : Text)
    (unreachable : Text → Bool) (hanswers : ∀ key, unreachable key = false)
    (hq : s.quarantine.get? pk = some q) (hkey : q.storageKey = some key)
    (hquarantined : isQuarantined key = true) (hexpired : q.retentionExpiresAt ≤ now) :
    ∃ n, (purgeExpiredQuarantine K s now unreachable).2 = .ok n ∧
      key ∉ (purgeExpiredQuarantine K s now unreachable).1.objects := by
  have hrows : ∀ r ∈ expiredQuarantine s now, K.backend = .s3 →
      validVersionId r.2.providerVersionId = true := by
    intro r hr
    obtain ⟨hget, hboth⟩ := (Table.mem_select _ _ _ _).mp hr
    rw [Bool.and_eq_true] at hboth
    refine hinv.versionId r.1 r.2 hget fun hnone => ?_
    rw [hnone] at hboth
    cases hboth.1
  have hmem : (pk, q) ∈ expiredQuarantine s now := by
    refine (Table.mem_select _ _ _ _).mpr ⟨hq, ?_⟩
    have hne : key ≠ [] := by
      rintro rfl
      cases hquarantined
    rw [hkey, Option.any_some, decide_eq_true hne, decide_eq_true hexpired, Bool.and_self]
  obtain ⟨hok, hgone⟩ := purgeObjects_ok unreachable hanswers _ hrows s.objects
  unfold purgeExpiredQuarantine
  dsimp only
  have hkeyGone := hgone (pk, q) hmem key hkey
  generalize purgeObjects K unreachable (expiredQuarantine s now) s.objects = call at hok hkeyGone ⊢
  obtain ⟨objects, r⟩ := call
  cases hok
  exact ⟨_, rfl, hkeyGone⟩

/-! ## The register as a whole -/

/-- **Where no refused upload escapes the register.** A call that ends in a refusal leaves its row
and its audit event exactly when the caller has no transaction of its own. In a run where each file
that goes to the quarantine comes through such a caller and has a row that fits, every object under
`quarantine/` is named by a row, and the purge deletes it after the retention of the row. -/
theorem refused_uploads_registered (K : ArchiveConfig) :
    (∀ s caller uploader f w e, Archive.freshUuid s w.uuid = true →
      (upload K s caller uploader f w).2 = .error e → e.refusal = true →
      (Registered s (upload K s caller uploader f w).1 uploader e ↔
        UploadCaller.isDirect caller = true)) ∧
    ∀ s, Reaches (Archive.step K) (QuarantinesRegistered K) Archive.empty s →
      ∀ key ∈ s.objects, isQuarantined key = true →
        ∃ pk q, s.quarantine.get? pk = some q ∧ q.storageKey = some key ∧
          ∀ now unreachable, q.retentionExpiresAt ≤ now → (∀ key, unreachable key = false) →
            ∃ n, (purgeExpiredQuarantine K s now unreachable).2 = .ok n ∧
              key ∉ (purgeExpiredQuarantine K s now unreachable).1.objects := by
  constructor
  · intro s caller uploader f w e hfresh hresult hrefusal
    have heffect := upload_effect (K := K) caller uploader f w hfresh
    rw [hresult] at heffect
    exact registered_iff_direct caller uploader f w e heffect hrefusal
  · intro s hreach key hkey hquarantined
    have hinv := RegisterInv.reachable hreach
    obtain ⟨pk, q, hq, hnamed⟩ := hinv.named key hkey hquarantined
    exact ⟨pk, q, hq, hnamed, fun now unreachable hexpired hanswers =>
      purged_of_named hinv pk now q key unreachable hanswers hq hnamed hquarantined hexpired⟩

/-- A manager uploads an infected file as a version of a document. -/
def refusedRun : List ArchiveAction :=
  [.service .createBuilding, .service (.createMembership 7 1),
    .service (.createDocument ⟨1, .quotation⟩),
    .upload (.direct 1 false) 7 (samplePdf 1) (sampleCall 100 .infected '1')]

theorem refusedRun_registered (a : ArchiveAction) (h : a ∈ refusedRun) (s : Archive) :
    QuarantinesRegistered sampleArchive s a := by
  simp only [refusedRun, List.mem_cons, List.not_mem_nil, or_false] at h
  rcases h with rfl | rfl | rfl | rfl
  · trivial
  · trivial
  · trivial
  · exact fun _ _ _ _ _ => ⟨rfl, by decide⟩

/-- Another infected file, as a further version. -/
def directCall (s : Archive) : Archive × Except UploadError ℕ :=
  upload sampleArchive s (.direct 1 false) 7 (samplePdf 2) (sampleCall 200 .infected '2')

/-- The infected file is registered and purged in the end, and the next one is registered too. -/
theorem refused_uploads_registered_sample : ∃ (s : Archive) (key : Text),
    Reaches (Archive.step sampleArchive) (QuarantinesRegistered sampleArchive) Archive.empty s ∧
    key ∈ s.objects ∧ isQuarantined key = true ∧
    (∃ now n, (purgeExpiredQuarantine sampleArchive s now fun _ => false).2 = .ok n ∧
      key ∉ (purgeExpiredQuarantine sampleArchive s now fun _ => false).1.objects) ∧
    ∃ e, (directCall s).2 = .error e ∧ UploadError.refusal e = true ∧
      Registered s (directCall s).1 7 e := by
  have hrun : (run (Archive.step sampleArchive) Archive.empty refusedRun).any (fun s =>
      s.objects = [quarantineKey (sampleCall 100 .infected '1').uuid] ∧
      s.freshUuid (sampleCall 200 .infected '2').uuid = true ∧
      (directCall s).2 = .error (.quarantined "malware detected".toList)) = true := by
    decide +kernel
  obtain ⟨s, hs, hfinal⟩ := (Option.any_eq_true _ _).mp hrun
  rw [decide_eq_true_eq] at hfinal
  obtain ⟨hobjects, hfresh, hrefused⟩ := hfinal
  have hreach := reaches_of_run_where refusedRun refusedRun_registered hs
  obtain ⟨hcall, hobject⟩ := refused_uploads_registered sampleArchive
  have hkey : quarantineKey (sampleCall 100 .infected '1').uuid ∈ s.objects := by
    rw [hobjects]
    exact List.mem_singleton_self _
  obtain ⟨pk, q, _, _, hpurged⟩ := hobject s hreach _ hkey rfl
  obtain ⟨n, hpurge⟩ := hpurged q.retentionExpiresAt (fun _ => false) (Nat.le_refl _) fun _ => rfl
  exact ⟨s, _, hreach, hkey, rfl, ⟨_, n, hpurge⟩, _, hrefused, rfl,
    (hcall s (.direct 1 false) 7 (samplePdf 2) _ _ hfresh hrefused rfl).mpr rfl⟩

/-- An infected file through `upload_document`. -/
def wrappedCall (s : Archive) : Archive × Except UploadError ℕ :=
  upload sampleArchive s (.uploadDocument 1 .quotation) 7 (samplePdf 1)
    (sampleCall 100 .infected '1')

/-- **A refused upload that escapes**: through `upload_document` the infected file is refused, the
transaction takes the row and the audit event back, and no row names the object that stays. -/
theorem quarantined_upload_unregistered : ∃ s : Archive, s.Reachable sampleArchive ∧
    (wrappedCall s).1.Reachable sampleArchive ∧
    (wrappedCall s).2 = .error (.quarantined "malware detected".toList) ∧
    ¬ Registered s (wrappedCall s).1 7 (.quarantined "malware detected".toList) ∧
    ∃ key ∈ (wrappedCall s).1.objects, isQuarantined key = true ∧
      ∀ pk q, (wrappedCall s).1.quarantine.get? pk = some q → q.storageKey ≠ some key := by
  obtain ⟨s, hreach, hfresh, hrefused, hrows, hobjects⟩ := exists_of_run
    (Archive.step sampleArchive) Archive.empty
    (fun s => s.freshUuid (sampleCall 100 .infected '1').uuid = true ∧
      (wrappedCall s).2 = .error (.quarantined "malware detected".toList) ∧
      (wrappedCall s).1.quarantine.rows = [] ∧
      (wrappedCall s).1.objects = [quarantineKey (sampleCall 100 .infected '1').uuid])
    [.service .createBuilding, .service (.createMembership 7 1)] (by decide +kernel)
  refine ⟨s, hreach, ?_, hrefused, ?_, quarantineKey (sampleCall 100 .infected '1').uuid, ?_, rfl,
    fun pk q hq => ?_⟩
  · refine hreach.tail ⟨.upload (.uploadDocument 1 .quotation) 7 (samplePdf 1)
      (sampleCall 100 .infected '1'), trivial, ?_⟩
    rw [Archive.step, if_pos hfresh]
    rfl
  · have heffect : UploadEffect sampleArchive s (.uploadDocument 1 .quotation) 7 (samplePdf 1)
        (sampleCall 100 .infected '1') (wrappedCall s).1 (wrappedCall s).2 :=
      upload_effect _ 7 _ _ hfresh
    rw [hrefused] at heffect
    intro hregistered
    have hdirect := (registered_iff_direct _ 7 _ _ _ heffect rfl).mp hregistered
    cases hdirect
  · rw [hobjects]
    exact List.mem_singleton_self _
  · rw [Table.get?_eq_some, hrows] at hq
    cases hq

end LamTo.Analysis
