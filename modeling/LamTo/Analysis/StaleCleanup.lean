import LamTo.Analysis.ResidentDownloads

/-!
# The cleanup of stale documents

`cleanup_stale_prepared_ops` deletes a blob in the loop over its candidates, before the transaction
around the loop commits. A candidate whose version a row still references raises, the rows come
back, and the blobs of the candidates before it do not.

* **Candidates**: the set of referenced documents is made from four of the five tables with a
  foreign key to a version, and bills are the fifth. So a candidate is referenced exactly when it
  is the document of a bill (`references_stale`).
* **Blobs**: without such a candidate no deletion raises (`deleteDocuments_ok`), and the blob of a
  row that stays is no blob of a row that goes, since no two rows have one key (`FilesInv`).

So the evidence is kept exactly when no bill is on a document that is otherwise stale
(`stale_cleanup_keeps_iff`).

SOURCE: src/lamto/web/staff_documents.py:97-244, src/lamto/billing/services.py:62-77
-/

set_option autoImplicit false

namespace LamTo.Analysis

open LamTo.Library LamTo.Model

variable {K : ArchiveConfig} {s s' : Archive} {a : ArchiveAction}

/-! ## The keys of the stored files -/

/-- **The files of the archive**: each is of a row, and no two have one key. -/
structure FilesInv (s : Archive) : Prop where
  row : ∀ pk f, s.files pk = some f → ∃ v, s.db.documentVersions.get? pk = some v
  unique : ∀ pk f q g, s.files pk = some f → s.files q = some g → f.storageKey = g.storageKey →
    pk = q

theorem filesInv_empty : FilesInv Archive.empty where
  row _ _ h := by cases h
  unique _ _ _ _ h := by cases h

/-- The files stay, and so do the rows. -/
theorem FilesInv.keep (hinv : FilesInv s) (hfiles : s'.files = s.files)
    (hrows : ∀ pk v, s.db.documentVersions.get? pk = some v →
      s'.db.documentVersions.get? pk = some v) : FilesInv s' := by
  constructor
  · intro pk f hf
    rw [hfiles] at hf
    obtain ⟨v, hv⟩ := hinv.row pk f hf
    exact ⟨v, hrows pk v hv⟩
  · rw [hfiles]
    exact hinv.unique

theorem documentKey_eq (document : ℕ) (uuid : Text) :
    documentKey document uuid =
      ("documents/".toList ++ Nat.toDigits 10 document ++ ['/']) ++ uuid :=
  List.append_cons _ '/' uuid

/-- No file has a fresh key. -/
theorem FilesInv.fresh (hinv : FilesInv s) (document pk : ℕ) (uuid : Text) (f : StoredFile)
    (hfresh : s.freshUuid uuid = true) (hf : s.files pk = some f) :
    f.storageKey ≠ documentKey document uuid := by
  intro hkey
  obtain ⟨v, hv⟩ := hinv.row pk f hf
  have htaken : s.keyTaken (documentKey document uuid) = true := by
    refine List.any_eq_true.mpr ⟨(pk, v), (Table.get?_eq_some _ _ _).mp hv, ?_⟩
    rw [hf, Option.any_some, hkey]
    exact decide_eq_true rfl
  rw [documentKey_eq, freshUuid_keyTaken uuid _ hfresh] at htaken
  cases htaken

theorem FilesInv.withVersion (hinv : FilesInv s) (document : ℕ) (f : UploadedFile)
    (file : StoredFile) (event : AuditEvent)
    (hfree : ∀ pk g, s.files pk = some g → g.storageKey ≠ file.storageKey) :
    FilesInv (withVersion K s document f file event) := by
  have hget : ∀ pk g, (Analysis.withVersion K s document f file event).files pk = some g →
      pk = s.db.documentVersions.next ∧ g = file ∨ s.files pk = some g := by
    intro pk g hg
    unfold Analysis.withVersion at hg
    dsimp only at hg
    by_cases hpk : pk = s.db.documentVersions.next
    · rw [hpk, Function.update_self] at hg
      exact .inl ⟨hpk, (Option.some.inj hg).symm⟩
    · rw [Function.update_of_ne hpk] at hg
      exact .inr hg
  constructor
  · intro pk g hg
    rcases hget pk g hg with ⟨rfl, _⟩ | hold
    · exact ⟨_, Table.get?_insert_self _ _⟩
    · obtain ⟨v, hv⟩ := hinv.row pk g hold
      exact ⟨v, Table.get?_insert_of_some _ _ _ pk hv⟩
  · intro pk g q k hg hk hkey
    rcases hget pk g hg with ⟨rfl, rfl⟩ | hold
    · rcases hget q k hk with ⟨rfl, _⟩ | hold'
      · rfl
      · exact absurd hkey.symm (hfree q k hold')
    · rcases hget q k hk with ⟨rfl, rfl⟩ | hold'
      · exact absurd hkey (hfree pk g hold)
      · exact hinv.unique pk g q k hold hold' hkey

theorem FilesInv.uploaded (hinv : FilesInv s) (caller : UploadCaller) (uploader : ℕ)
    (f : UploadedFile) (w : Surroundings) (t : Archive) (r : Except UploadError ℕ)
    (hfresh : s.freshUuid w.uuid = true) (h : UploadEffect K s caller uploader f w t r) :
    FilesInv t := by
  have hnew : ∀ document (file : StoredFile), file.storageKey = documentKey document w.uuid →
      ∀ pk g, s.files pk = some g → g.storageKey ≠ file.storageKey := by
    intro document file hkey pk g hg
    rw [hkey]
    exact hinv.fresh document pk w.uuid g hfresh hg
  have hdocument : ∀ d, FilesInv (withDocument s d) := fun d => hinv.keep rfl fun _ _ hv => hv
  cases h with
  | unchanged => exact hinv
  | direct document allow t r hcaller h =>
    cases h with
    | unchanged => exact hinv
    | stored d file event hdoc hkey =>
      exact hinv.withVersion document f file event (hnew document file hkey)
    | _ => exact hinv.keep rfl fun _ _ hv => hv
  | rolledBack d t e hcaller htarget h => exact hinv.keep rfl fun _ _ hv => hv
  | stored d file event hkey =>
    exact (hdocument d).withVersion _ f file event (hnew _ file hkey)
  | attached d file event report hphoto hkey =>
    have hversion := (hdocument d).withVersion (K := K) s.db.documents.next f file event
      (hnew _ file hkey)
    exact hversion.keep rfl fun _ _ hv => hv

/-- No service of `Db` takes a document version away. -/
theorem documentVersions_kept (C : EvidenceConfig) (db db' : Db) (command : Command)
    (h : Db.step C db command = some db') (pk : ℕ) (v : DocumentVersion)
    (hv : db.documentVersions.get? pk = some v) : db'.documentVersions.get? pk = some v := by
  cases book_effect C db db' command h with
  | quiet _ hquiet => exact hquiet.documentVersions pk v hv
  | publish creator args p =>
    rw [p.documentVersions_eq]
    exact hv
  | settle now member transfer eventId t =>
    rw [t.documentVersions_eq]
    exact hv
  | openFund building fund funds hopened result =>
    rw [result]
    exact hv
  | record now entryType amountVnd evidence recorder fundEntryId aware r =>
    rw [r.result]
    exact hv
  | verify now verifier t =>
    rw [t.result]
    exact hv

theorem FilesInv.pruned (hinv : FilesInv s) (h : DocumentsPruned s s') : FilesInv s' := by
  constructor
  · intro pk f hf
    obtain ⟨hold, hstays⟩ := h.filed pk f hf
    obtain ⟨v, hv⟩ := hinv.row pk f hold
    exact ⟨v, hstays v hv⟩
  · intro pk f q g hf hg hkey
    exact hinv.unique pk f q g (h.filed pk f hf).1 (h.filed q g hg).1 hkey

/-- **A step keeps the files apart.** -/
theorem FilesInv.step (hinv : FilesInv s) (h : Archive.step K s a = some s') : FilesInv s' := by
  cases archive_effect h with
  | unchanged => exact hinv
  | service command db hstep =>
    exact hinv.keep rfl (documentVersions_kept K.toEvidenceConfig s.db db command hstep)
  | uploaded caller uploader f w t r hfresh heffect =>
    exact hinv.uploaded caller uploader f w s' r hfresh heffect
  | quarantined f uploader reason w t r hmay heffect =>
    cases heffect with
    | refused => exact hinv
    | orphaned => exact hinv.keep rfl fun _ _ hv => hv
    | registered => exact hinv.keep rfl fun _ _ hv => hv
  | cleaned c s' heffect =>
    cases heffect with
    | unchanged => exact hinv
    | rolledBack t hpruned => exact hinv.keep rfl fun _ _ hv => hv
    | pruned t s' hpruned hdrafts =>
      rw [hdrafts.eq]
      exact (hinv.pruned hpruned).keep rfl fun _ _ hv => hv
  | _ => exact hinv.keep rfl fun _ _ hv => hv

theorem FilesInv.reachable (h : s.Reachable K) : FilesInv s :=
  h.preserves FilesInv (fun _ _ _ hinv _ hstep => hinv.step hstep) filesInv_empty

/-! ## The candidates -/

/-- No row references a version of the document. -/
def Unreferenced (s : Archive) (document : ℕ) : Prop :=
  ∀ pk v, s.db.documentVersions.get? pk = some v → v.document = document → s.references pk = false

theorem mem_staleDocuments (cutoff : ℤ) (document : ℕ) :
    document ∈ staleDocuments s cutoff ↔ (∃ d, s.db.documents.get? document = some d) ∧
      s.referencedDocument document = false ∧ s.versionCreated document (· < cutoff) = true ∧
      s.versionCreated document (cutoff ≤ ·) = false := by
  unfold staleDocuments
  rw [List.mem_filter, List.mem_map]
  simp only [Bool.and_eq_true, Bool.not_eq_true', and_assoc]
  refine and_congr_left fun _ => ⟨?_, ?_⟩
  · rintro ⟨⟨pk, d⟩, hd, rfl⟩
    exact ⟨d, (Table.get?_eq_some _ _ _).mpr hd⟩
  · rintro ⟨d, hd⟩
    exact ⟨(document, d), (Table.get?_eq_some _ _ _).mp hd, rfl⟩

/-- **Only a bill references a candidate.** -/
theorem references_stale (cutoff : ℤ) (pk : ℕ) (v : DocumentVersion)
    (hv : s.db.documentVersions.get? pk = some v)
    (hstale : v.document ∈ staleDocuments s cutoff) :
    s.references pk = s.bills.any fun b => b.document = pk := by
  obtain ⟨_, hunreferenced, _⟩ := (mem_staleDocuments cutoff v.document).mp hstale
  have hnone := List.any_eq_false.mp hunreferenced (pk, v) ((Table.get?_eq_some _ _ _).mp hv)
  rw [decide_eq_true rfl, Bool.true_and, Bool.not_eq_true] at hnone
  rw [Archive.references, hnone, Bool.false_or]

/-! ## The loop -/

theorem hardDeleteDocument_ok (document : ℕ) (unreachable : Text → Bool)
    (h : Unreferenced s document) :
    ∃ purged, (hardDeleteDocument s document unreachable).2 = .ok purged := by
  unfold hardDeleteDocument
  dsimp only
  rw [if_neg]
  · exact ⟨_, rfl⟩
  · intro hany
    obtain ⟨⟨pk, v⟩, hmem, hreferenced⟩ := List.any_eq_true.mp hany
    obtain ⟨hv, hdocument⟩ := (Table.mem_select _ _ _ _).mp hmem
    rw [h pk v hv (of_decide_eq_true hdocument)] at hreferenced
    cases hreferenced

/-- **The loop returns** when no document it is given is referenced. -/
theorem deleteDocuments_ok (unreachable : Text → Bool) (documents : List ℕ) (s : Archive)
    (h : ∀ document ∈ documents, Unreferenced s document) :
    ∃ counts, (deleteDocuments unreachable documents s).2 = .ok counts := by
  induction documents generalizing s with
  | nil => exact ⟨_, rfl⟩
  | cons document documents ih =>
    obtain ⟨purged, hpurged⟩ := hardDeleteDocument_ok document unreachable
      (h document List.mem_cons_self)
    have hpruned := hardDeleteDocument_pruned (s := s) document unreachable
    unfold deleteDocuments
    generalize hardDeleteDocument s document unreachable = call at hpurged hpruned ⊢
    obtain ⟨t, r⟩ := call
    cases hpurged
    -- What is deleted takes no reference along.
    have hrest : ∀ d ∈ documents, Unreferenced t d := by
      intro d hd pk v hv hdocument
      rw [hpruned.references_eq]
      exact h d (List.mem_cons_of_mem document hd) pk v (hpruned.found pk v hv) hdocument
    obtain ⟨⟨deleted, rest⟩, hcounts⟩ := ih t hrest
    dsimp only
    generalize deleteDocuments unreachable documents t = tail at hcounts ⊢
    obtain ⟨u, r⟩ := tail
    cases hcounts
    exact ⟨_, rfl⟩

/-- A cleanup whose loop returns takes the rows with the blobs. -/
theorem cleanupStalePreparedOps_pruned (c : Cleanup)
    (h : ∀ document ∈ c.order, Unreferenced s document) :
    ∃ t, DocumentsPruned s t ∧ DraftsPruned t (cleanupStalePreparedOps s c).1 := by
  have hpruned := deleteDocuments_pruned c.unreachable c.order s
  obtain ⟨counts, hcounts⟩ := deleteDocuments_ok c.unreachable c.order s h
  unfold cleanupStalePreparedOps atomic
  split
  · exact ⟨s, .refl s, .refl s⟩
  · generalize deleteDocuments c.unreachable c.order s = call at hcounts hpruned ⊢
    obtain ⟨t, r⟩ := call
    cases hcounts
    refine ⟨t, hpruned, ?_⟩
    have hdrafts := deleteDrafts_pruned (s := t) c.draftCutoff
    dsimp only
    generalize deleteDrafts t c.draftCutoff = drafts at hdrafts ⊢
    obtain ⟨u, r⟩ := drafts
    cases r with
    | error e => exact hdrafts
    | ok n => exact hdrafts

/-! ## Kept evidence -/

/-- **The cleanup keeps the evidence**: the blob of every row that is there after the call is still
stored, and no candidate has a version that some row references. -/
structure EvidenceKept (s : Archive) (c : Cleanup) : Prop where
  blobs : ∀ pk v file, (cleanupStalePreparedOps s c).1.db.documentVersions.get? pk = some v →
    (cleanupStalePreparedOps s c).1.files pk = some file → file.storageKey ∈ s.objects →
    file.storageKey ∈ (cleanupStalePreparedOps s c).1.objects
  selected : ∀ document ∈ staleDocuments s c.cutoff, Unreferenced s document

/-- No bill is on a document whose versions are all older than the threshold, unless a proposal, a
fund entry, a settlement or a photo is on it too. -/
def BillsRecent (s : Archive) (cutoff : ℤ) : Prop :=
  ∀ pk b v, s.bills.get? pk = some b → s.db.documentVersions.get? b.document = some v →
    s.versionCreated v.document (· < cutoff) = true →
    s.versionCreated v.document (cutoff ≤ ·) = true ∨ s.referencedDocument v.document = true

/-- The blob of a row that stays is not one of a row that goes. -/
theorem FilesInv.blob_kept (hinv : FilesInv s) (h : DocumentsPruned s s') (pk : ℕ)
    (v : DocumentVersion) (file : StoredFile) (hv : s'.db.documentVersions.get? pk = some v)
    (hfile : s'.files pk = some file) (hmem : file.storageKey ∈ s.objects) :
    file.storageKey ∈ s'.objects := by
  by_contra hgone
  obtain ⟨q, _, g, _, hnone, hg, hkey⟩ := h.purged _ hmem hgone
  have hsame := hinv.unique q g pk file hg (h.filed pk file hfile).1 hkey
  rw [hsame, hv] at hnone
  cases hnone

theorem BillsRecent.unreferenced (cutoff : ℤ) (h : BillsRecent s cutoff) (document : ℕ)
    (hstale : document ∈ staleDocuments s cutoff) : Unreferenced s document := by
  intro pk v hv hdocument
  subst hdocument
  rw [references_stale cutoff pk v hv hstale, Table.any_eq_false]
  intro key b hb
  refine decide_eq_false fun hbill => ?_
  obtain ⟨_, hfree, hold, hnew⟩ := (mem_staleDocuments cutoff v.document).mp hstale
  rcases h key b v hb (by rw [hbill]; exact hv) hold with hrecent | hreferenced
  · rw [hnew] at hrecent
    cases hrecent
  · rw [hfree] at hreferenced
    cases hreferenced

/-- **The cleanup keeps the evidence exactly when no bill is on a document that is otherwise
stale**, in every archive the services reach, for every threshold and in every order of the
candidates. -/
theorem stale_cleanup_keeps_iff (h : s.Reachable K) (c : Cleanup)
    (horder : c.order.Perm (staleDocuments s c.cutoff)) :
    EvidenceKept s c ↔ BillsRecent s c.cutoff := by
  constructor
  · intro hkept pk b v hb hv hold
    by_contra hneither
    rw [not_or, Bool.not_eq_true, Bool.not_eq_true] at hneither
    obtain ⟨u, d, hu, hd, _⟩ := (LinksInv.reachable h).bill pk b hb
    cases hv.symm.trans hu
    have hstale : v.document ∈ staleDocuments s c.cutoff :=
      (mem_staleDocuments c.cutoff v.document).mpr ⟨⟨d, hd⟩, hneither.2, hold, hneither.1⟩
    have hfree := hkept.selected v.document hstale b.document v hv rfl
    rw [references_stale c.cutoff b.document v hv hstale, Table.any_eq_false] at hfree
    exact of_decide_eq_false (hfree pk b hb) rfl
  · intro hbills
    have hselected := hbills.unreferenced c.cutoff
    refine ⟨fun pk v file hv hfile hmem => ?_, hselected⟩
    obtain ⟨t, hpruned, hdrafts⟩ := cleanupStalePreparedOps_pruned c
      fun document hdocument => hselected document (horder.mem_iff.mp hdocument)
    rw [hdrafts.eq] at hv hfile ⊢
    exact (FilesInv.reachable h).blob_kept hpruned pk v file hv hfile hmem

/-- A quotation nobody used and a bill, issued to the resident or not. -/
def preparedRun (billed : Bool) : List ArchiveAction :=
  [.service .createBuilding, .service (.createMembership 7 1), .service (.createOccupancy 8 1),
    .upload (.uploadDocument 1 .quotation) 7 (samplePdf 1) (sampleCall 100 .clean '1'),
    .upload (.uploadDocument 1 .residentBill) 7 (samplePdf 2) (sampleCall 200 .clean '2')] ++
  if billed then
    [.issueBill 7 1 8 2 ⟨"Water".toList, 90000, [], [], none, "bill-ref".toList⟩]
  else []

/-- The documents older than a day, the quotation first. -/
def sampleCleanup : Cleanup where
  cutoff := 1000
  draftCutoff := 1000
  dryRun := false
  order := [1, 2]
  unreachable _ := false

/-- Both documents are unused, and both go with their blobs. -/
theorem stale_cleanup_keeps_iff_unused : ∃ s : Archive, s.Reachable sampleArchive ∧
    sampleCleanup.order.Perm (staleDocuments s sampleCleanup.cutoff) ∧ s.objects.length = 2 ∧
    (cleanupStalePreparedOps s sampleCleanup).1.objects = [] ∧ EvidenceKept s sampleCleanup := by
  obtain ⟨s, hreach, horder, hstored, hpurged, hbills⟩ := exists_of_run
    (Archive.step sampleArchive) Archive.empty
    (fun s => staleDocuments s sampleCleanup.cutoff = [1, 2] ∧ s.objects.length = 2 ∧
      (cleanupStalePreparedOps s sampleCleanup).1.objects = [] ∧ s.bills.rows = [])
    (preparedRun false) (by decide +kernel)
  have hperm : sampleCleanup.order.Perm (staleDocuments s sampleCleanup.cutoff) := by
    rw [horder]
    exact List.Perm.refl _
  refine ⟨s, hreach, hperm, hstored, hpurged, (stale_cleanup_keeps_iff hreach _ hperm).mpr ?_⟩
  intro pk b v hb
  rw [Table.get?_eq_some, hbills] at hb
  cases hb

/-- **A cleanup that deletes the blob of a row it keeps**: the document of the bill is a candidate,
its deletion raises, and the blob of the quotation before it is gone while its row is back. -/
theorem cleanup_purges_kept_blob : ∃ (s : Archive) (v : DocumentVersion) (file : StoredFile),
    s.Reachable sampleArchive ∧
    sampleCleanup.order.Perm (staleDocuments s sampleCleanup.cutoff) ∧
    (cleanupStalePreparedOps s sampleCleanup).2 = .error .protectedRows ∧
    (cleanupStalePreparedOps s sampleCleanup).1.db.documentVersions.get? 1 = some v ∧
    (cleanupStalePreparedOps s sampleCleanup).1.files 1 = some file ∧
    file.storageKey ∈ s.objects ∧
    file.storageKey ∉ (cleanupStalePreparedOps s sampleCleanup).1.objects ∧
    2 ∈ staleDocuments s sampleCleanup.cutoff ∧
    ((s.db.documentVersions.get? 2).map DocumentVersion.document = some 2 ∧
      (s.bills.get? 1).map Bill.document = some 2) := by
  obtain ⟨s, hreach, horder, hraised, hrow, hfile, hstored, hlinked⟩ := exists_of_run
    (Archive.step sampleArchive) Archive.empty
    (fun s => staleDocuments s sampleCleanup.cutoff = [1, 2] ∧
      (cleanupStalePreparedOps s sampleCleanup).2 = .error .protectedRows ∧
      ((cleanupStalePreparedOps s sampleCleanup).1.db.documentVersions.get? 1).isSome = true ∧
      ((cleanupStalePreparedOps s sampleCleanup).1.files 1).isSome = true ∧
      ((cleanupStalePreparedOps s sampleCleanup).1.files 1).all (fun f =>
        f.storageKey ∈ s.objects ∧
          f.storageKey ∉ (cleanupStalePreparedOps s sampleCleanup).1.objects) = true ∧
      ((s.db.documentVersions.get? 2).map DocumentVersion.document = some 2 ∧
        (s.bills.get? 1).map Bill.document = some 2))
    (preparedRun true) (by decide +kernel)
  obtain ⟨v, hv⟩ := Option.isSome_iff_exists.mp hrow
  obtain ⟨file, hget⟩ := Option.isSome_iff_exists.mp hfile
  rw [hget, Option.all_some, decide_eq_true_eq] at hstored
  refine ⟨s, v, file, hreach, ?_, hraised, hv, hget, hstored.1, hstored.2, ?_, hlinked⟩
  · rw [horder]
    exact List.Perm.refl _
  · rw [horder]
    decide

end LamTo.Analysis
