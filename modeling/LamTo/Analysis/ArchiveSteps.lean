import LamTo.Analysis.UploadSteps

/-!
# Steps of the archive

`ArchiveEffect` reads a step of the archive backwards. Besides the services of `Db` and the
uploads these are the services that link documents to reports and bills, the end of the
quarantine, and the cleanup. What the cleanup deletes is not referenced by any row
(`DocumentsPruned`, `DraftsPruned`): a foreign key protects it.

SOURCE: src/lamto/billing/services.py, src/lamto/maintenance/reporting.py:20-109,
src/lamto/web/staff_documents.py:97-244
-/

set_option autoImplicit false

namespace LamTo.Analysis

open LamTo.Library LamTo.Model

variable {K : ArchiveConfig} {s s' : Archive} {a : ArchiveAction}

/-! ## Links -/

/-- What `attachable` tests. -/
theorem attachable_isDocument (resident building version : ℕ)
    (h : s.attachable resident building version = true) :
    IsDocument s.db version .reportPhoto building := by
  rw [Archive.attachable, Bool.and_eq_true] at h
  obtain ⟨v, hv, hclean⟩ := (Option.any_eq_true _ _).mp h.2
  rw [Bool.and_eq_true] at hclean
  obtain ⟨d, hd, hboth⟩ := (Option.any_eq_true _ _).mp hclean.2
  simp only [Bool.and_eq_true, decide_eq_true_eq] at hboth
  exact ⟨v, d, hv, hd, hboth.2, hboth.1⟩

theorem get?_insertPhotos (report : ℕ) (versions : List (ℕ × Text)) (t : Table ReportPhoto)
    (pk : ℕ) (photo : ReportPhoto) (h : (insertPhotos report versions t).get? pk = some photo) :
    t.get? pk = some photo ∨ photo.report = report ∧ ∃ v ∈ versions, photo.version = v.1 := by
  induction versions generalizing t with
  | nil => exact .inl h
  | cons v versions ih =>
    rcases ih (t.insert ⟨report, v.1, v.2⟩) h with hget | ⟨hreport, u, hu, hversion⟩
    · rw [Table.get?_insert] at hget
      split at hget
      · cases hget
        exact .inr ⟨rfl, v, List.mem_cons_self, rfl⟩
      · exact .inl hget
    · exact .inr ⟨hreport, u, List.mem_cons_of_mem v hu, hversion⟩

/-- A report with photos: each new photo is a photo of the building. -/
theorem submitReport_eq_ok (resident building : ℕ) (isPrivate : Bool) (photos : List ℕ)
    (h : submitReport s resident building isPrivate photos = .ok s') :
    ∃ report table audit,
      (∀ pk photo, table.get? pk = some photo → s.photos.get? pk = some photo ∨
        photo.report = s.db.reports.next ∧
          IsDocument s.db photo.version .reportPhoto report.building) ∧
      s' = { s with
        photos := table, db := { s.db with reports := s.db.reports.insert report, audit } } := by
  simp only [submitReport, bind_eq_ok, orRaise_eq_ok, require_eq_ok, pure_eq_ok] at h
  obtain ⟨⟨_, _⟩, _, _, _, _, hattachable, _, _, db, haudit, rfl⟩ := h
  obtain ⟨audit, rfl⟩ := recordAuditWithoutMembership_eq_ok _ _ _ _ _ _ _ _ _ haudit
  refine ⟨.submitted resident building isPrivate, _, audit, fun pk photo hphoto => ?_, rfl⟩
  rcases get?_insertPhotos _ _ _ _ _ hphoto with hold | ⟨hreport, v, hv, hversion⟩
  · exact .inl hold
  · obtain ⟨key, hkey, hmap⟩ := List.mem_filterMap.mp hv
    obtain ⟨row, _, rfl⟩ := Option.map_eq_some_iff.mp hmap
    refine .inr ⟨hreport, ?_⟩
    rw [hversion]
    exact attachable_isDocument _ _ _ (List.all_eq_true.mp hattachable key hkey)

theorem issueBill_eq_ok (actor building resident document : ℕ) (terms : BillTerms)
    (h : (issueBill s actor building resident document terms).map Prod.snd = .ok s') :
    ∃ bill audit, IsDocument s.db bill.document .residentBill bill.building ∧
      s' = { s with bills := s.bills.insert bill, db := { s.db with audit } } := by
  obtain ⟨⟨pk, t⟩, hissued, rfl⟩ := (map_eq_ok _ _ _).mp h
  simp only [issueBill, bind_eq_ok, getRow_eq_ok, require_eq_ok, pure_eq_ok,
    Prod.mk.injEq] at hissued
  obtain ⟨⟨_, _⟩, _, _, _, v, hv, d, hd, _, hkind, _, hbuilding, _, _, _, _, _, _, _, _, db, haudit,
    _, rfl⟩ := hissued
  obtain ⟨audit, rfl⟩ := recordAudit_eq_ok _ _ _ _ _ _ _ _ _ haudit
  refine ⟨_, audit, ?_, rfl⟩
  exact ⟨v, d, hv, hd, hkind, hbuilding⟩

/-- A bill keeps its building and its document. -/
def KeepsDocument (change : Bill → Bill) : Prop :=
  ∀ b, (change b).building = b.building ∧ (change b).document = b.document

theorem confirmPayment_eq_ok (now bill actor : ℕ) (source : PaymentSource) (reference : Text)
    (h : confirmPayment s now bill actor source reference = .ok s') :
    s' = s ∨ ∃ change audit, KeepsDocument change ∧
      s' = { s with bills := s.bills.update bill change, db := { s.db with audit } } := by
  simp only [confirmPayment, bind_eq_ok] at h
  obtain ⟨_, _, _, _, _, _, _, _, h⟩ := h
  split at h
  · rw [pure_eq_ok] at h
    exact .inl h.symm
  · simp only [bind_eq_ok, pure_eq_ok] at h
    obtain ⟨db, haudit, rfl⟩ := h
    obtain ⟨audit, rfl⟩ := recordAuditWithoutMembership_eq_ok _ _ _ _ _ _ _ _ _ haudit
    refine .inr ⟨_, audit, ?_, rfl⟩
    exact fun _ => ⟨rfl, rfl⟩

theorem voidBill_eq_ok (U : Unicode) (now actor bill : ℕ) (reason : Text)
    (h : voidBill U s now actor bill reason = .ok s') :
    ∃ change audit, KeepsDocument change ∧
      s' = { s with bills := s.bills.update bill change, db := { s.db with audit } } := by
  simp only [voidBill, bind_eq_ok, pure_eq_ok] at h
  obtain ⟨_, _, _, _, ⟨_, _⟩, _, _, _, _, _, db, haudit, rfl⟩ := h
  obtain ⟨audit, rfl⟩ := recordAudit_eq_ok _ _ _ _ _ _ _ _ _ haudit
  refine ⟨_, audit, ?_, rfl⟩
  exact fun _ => ⟨rfl, rfl⟩

/-! ## The cleanup -/

/-- **Documents go, and no row that is referenced**; an object goes with the row that names it. -/
structure DocumentsPruned (s s' : Archive) : Prop where
  db_eq : s'.db = { s.db with
    documents := s'.db.documents, documentVersions := s'.db.documentVersions }
  photos_eq : s'.photos = s.photos
  bills_eq : s'.bills = s.bills
  quarantine_eq : s'.quarantine = s.quarantine
  next_eq : s'.db.documentVersions.next = s.db.documentVersions.next
  found : ∀ pk v, s'.db.documentVersions.get? pk = some v → s.db.documentVersions.get? pk = some v
  files : ∀ pk v, s'.db.documentVersions.get? pk = some v → s'.files pk = s.files pk
  filed : ∀ pk f, s'.files pk = some f → s.files pk = some f ∧
    ∀ v, s.db.documentVersions.get? pk = some v → s'.db.documentVersions.get? pk = some v
  kept : ∀ pk v d, s.db.documentVersions.get? pk = some v → s.references pk = true →
    s.db.documents.get? v.document = some d →
    s'.db.documentVersions.get? pk = some v ∧ s'.db.documents.get? v.document = some d
  objects : ∀ k ∈ s'.objects, k ∈ s.objects
  purged : ∀ k ∈ s.objects, k ∉ s'.objects → ∃ pk v file,
    s.db.documentVersions.get? pk = some v ∧ s'.db.documentVersions.get? pk = none ∧
      s.files pk = some file ∧ file.storageKey = k

theorem DocumentsPruned.refl (s : Archive) : DocumentsPruned s s where
  db_eq := rfl
  photos_eq := rfl
  bills_eq := rfl
  quarantine_eq := rfl
  next_eq := rfl
  found _ _ h := h
  files _ _ _ := rfl
  filed _ _ h := ⟨h, fun _ hv => hv⟩
  kept _ _ _ hv _ hd := ⟨hv, hd⟩
  objects _ h := h
  purged _ h hnot := absurd h hnot

/-- The references of a version are in tables that a pruning keeps. -/
theorem DocumentsPruned.references_eq (h : DocumentsPruned s s') (version : ℕ) :
    s'.references version = s.references version := by
  unfold Archive.references Archive.evidenceOf
  rw [h.photos_eq, h.bills_eq, h.db_eq]

theorem DocumentsPruned.trans (t : Archive) (h : DocumentsPruned s t) (h' : DocumentsPruned t s') :
    DocumentsPruned s s' where
  db_eq := by
    conv_lhs => rw [h'.db_eq, h.db_eq]
  photos_eq := h'.photos_eq.trans h.photos_eq
  bills_eq := h'.bills_eq.trans h.bills_eq
  quarantine_eq := h'.quarantine_eq.trans h.quarantine_eq
  next_eq := h'.next_eq.trans h.next_eq
  found pk v hv := h.found pk v (h'.found pk v hv)
  files pk v hv := (h'.files pk v hv).trans (h.files pk v (h'.found pk v hv))
  filed pk f hf := by
    obtain ⟨hmid, hkept'⟩ := h'.filed pk f hf
    obtain ⟨hold, hkept⟩ := h.filed pk f hmid
    exact ⟨hold, fun v hv => hkept' v (hkept v hv)⟩
  kept pk v d hv href hd := by
    obtain ⟨hv', hd'⟩ := h.kept pk v d hv href hd
    exact h'.kept pk v d hv' (by rw [h.references_eq]; exact href) hd'
  objects k hk := h.objects k (h'.objects k hk)
  purged k hk hnot := by
    by_cases hmid : k ∈ t.objects
    · obtain ⟨pk, v, file, hv, hgone, hfile, hkey⟩ := h'.purged k hmid hnot
      exact ⟨pk, v, file, h.found pk v hv, hgone, (h.files pk v hv).symm.trans hfile, hkey⟩
    · obtain ⟨pk, v, file, hv, hgone, hfile, hkey⟩ := h.purged k hk hmid
      refine ⟨pk, v, file, hv, ?_, hfile, hkey⟩
      by_contra hsome
      obtain ⟨u, hu⟩ := Option.ne_none_iff_exists'.mp hsome
      rw [h'.found pk u hu] at hgone
      cases hgone

theorem hardDeleteDocument_pruned (document : ℕ) (unreachable : Text → Bool) :
    DocumentsPruned s (hardDeleteDocument s document unreachable).1 := by
  unfold hardDeleteDocument
  dsimp only
  split
  · exact .refl s
  · next hfree =>
    rw [Bool.not_eq_true, List.any_eq_false] at hfree
    have hunreferenced : ∀ pk v, s.db.documentVersions.get? pk = some v → v.document = document →
        s.references pk = false := by
      intro pk v hv hdocument
      have hmem := (Table.mem_select s.db.documentVersions (fun v => v.document = document) pk v).mpr
        ⟨hv, decide_eq_true hdocument⟩
      simpa using hfree (pk, v) hmem
    constructor
    · rfl
    · rfl
    · rfl
    · rfl
    · rfl
    · intro pk v hv
      exact ((Table.get?_remove _ _ _ _).mp hv).1
    · intro pk v hv
      obtain ⟨hold, hother⟩ := (Table.get?_remove _ _ _ _).mp hv
      dsimp only
      rw [if_neg]
      intro hany
      obtain ⟨⟨key, u⟩, hmem, hkey⟩ := List.any_eq_true.mp hany
      obtain ⟨hu, hdocument⟩ := (Table.mem_select _ _ _ _).mp hmem
      rw [decide_eq_true_eq] at hkey
      dsimp only at hkey
      subst hkey
      cases hold.symm.trans hu
      rw [hdocument] at hother
      cases hother
    · intro pk f hf
      dsimp only at hf
      split at hf
      · cases hf
      · next hstays =>
        refine ⟨hf, fun v hv => (Table.get?_remove _ _ _ _).mpr ⟨hv, ?_⟩⟩
        by_contra hdocument
        rw [Bool.not_eq_false] at hdocument
        exact hstays (List.any_eq_true.mpr ⟨(pk, v), (Table.mem_select _ _ _ _).mpr
          ⟨hv, hdocument⟩, decide_eq_true rfl⟩)
    · intro pk v d hv href hd
      have hother : v.document ≠ document := by
        intro hdocument
        rw [hunreferenced pk v hv hdocument] at href
        cases href
      exact ⟨(Table.get?_remove _ _ _ _).mpr ⟨hv, decide_eq_false hother⟩,
        (Table.get?_remove _ _ _ _).mpr ⟨hd, decide_eq_false hother⟩⟩
    · intro k hk
      exact (List.mem_filter.mp hk).1
    · intro k hk hnot
      have hpurged : k ∈ (s.storageKeys document).filter fun k => !unreachable k := by
        by_contra hout
        refine hnot (List.mem_filter.mpr ⟨hk, ?_⟩)
        rw [Bool.not_eq_true', ← Bool.not_eq_true, List.contains_iff_mem]
        exact hout
      obtain ⟨⟨pk, v⟩, hmem, hkey⟩ := List.mem_filterMap.mp (List.mem_filter.mp hpurged).1
      obtain ⟨hv, hdocument⟩ := (Table.mem_select _ _ _ _).mp hmem
      obtain ⟨file, hfile, rfl⟩ := Option.map_eq_some_iff.mp hkey
      refine ⟨pk, v, file, hv, ?_, hfile, rfl⟩
      by_contra hsome
      obtain ⟨u, hu⟩ := Option.ne_none_iff_exists'.mp hsome
      obtain ⟨hold, hother⟩ := (Table.get?_remove _ _ _ _).mp hu
      cases hv.symm.trans hold
      rw [hdocument] at hother
      cases hother

/-- The loop prunes, whether it returns or raises. -/
theorem deleteDocuments_pruned (unreachable : Text → Bool) (documents : List ℕ) (s : Archive) :
    DocumentsPruned s (deleteDocuments unreachable documents s).1 := by
  induction documents generalizing s with
  | nil => exact .refl s
  | cons document documents ih =>
    have hhead := hardDeleteDocument_pruned (s := s) document unreachable
    unfold deleteDocuments
    cases hdelete : hardDeleteDocument s document unreachable with
    | mk t r =>
      rw [hdelete] at hhead
      cases r with
      | error e => exact hhead
      | ok purged =>
        have htail := hhead.trans t (ih t)
        dsimp only
        cases hrest : deleteDocuments unreachable documents t with
        | mk u result =>
          rw [hrest] at htail
          cases result with
          | error e => exact htail
          | ok counts => exact htail

/-- Drafts go, and none that is referenced. -/
structure DraftsPruned (s s' : Archive) : Prop where
  eq : s' = { s with db := { s.db with proposals := s'.db.proposals } }
  found : ∀ pk p, s'.db.proposals.get? pk = some p → s.db.proposals.get? pk = some p
  kept : ∀ pk p, s.db.proposals.get? pk = some p → s.proposalReferenced pk = true →
    s'.db.proposals.get? pk = some p

theorem DraftsPruned.refl (s : Archive) : DraftsPruned s s := ⟨rfl, fun _ _ h => h, fun _ _ h _ => h⟩

theorem deleteDrafts_pruned (cutoff : ℤ) : DraftsPruned s (deleteDrafts s cutoff).1 := by
  unfold deleteDrafts
  dsimp only
  split
  · exact .refl s
  · next hfree =>
    rw [Bool.not_eq_true, List.any_eq_false] at hfree
    refine ⟨rfl, fun pk p hp => ((Table.get?_remove _ _ _ _).mp hp).1, fun pk p hp href => ?_⟩
    refine (Table.get?_remove _ _ _ _).mpr ⟨hp, ?_⟩
    by_contra hstale
    rw [Bool.not_eq_false] at hstale
    exact hfree (pk, p) ((Table.mem_select _ _ _ _).mpr ⟨hp, hstale⟩) href

/-- **What a cleanup does**: documents and drafts go, or an exception takes the rows back and
leaves the storage as the loop had it. -/
inductive CleanupEffect (s : Archive) : Archive → Prop where
  | unchanged : CleanupEffect s s
  | rolledBack (t : Archive) (h : DocumentsPruned s t) :
      CleanupEffect s { s with objects := t.objects }
  | pruned (t s' : Archive) (h : DocumentsPruned s t) (h' : DraftsPruned t s') : CleanupEffect s s'

theorem cleanupStalePreparedOps_effect (c : Cleanup) :
    CleanupEffect s (cleanupStalePreparedOps s c).1 := by
  have hpruned := deleteDocuments_pruned c.unreachable c.order s
  unfold cleanupStalePreparedOps atomic
  split
  · exact .unchanged
  · cases hdelete : deleteDocuments c.unreachable c.order s with
    | mk t r =>
      rw [hdelete] at hpruned
      cases r with
      | error e => exact .rolledBack t hpruned
      | ok counts =>
        have hdrafts := deleteDrafts_pruned (s := t) c.draftCutoff
        dsimp only
        cases hdraft : deleteDrafts t c.draftCutoff with
        | mk u result =>
          rw [hdraft] at hdrafts
          cases result with
          | error e => exact .pruned t u hpruned hdrafts
          | ok n => exact .pruned t u hpruned hdrafts

/-! ## Every step -/

theorem purgeObjects_subset (unreachable : Text → Bool) (rows : List (ℕ × QuarantinedUpload))
    (objects : List Text) : ∀ k ∈ (purgeObjects K unreachable rows objects).1, k ∈ objects := by
  induction rows generalizing objects with
  | nil => exact fun k hk => hk
  | cons r rows ih =>
    intro k hk
    unfold purgeObjects at hk
    split at hk
    · exact hk
    · split at hk
      · exact hk
      · exact (List.mem_filter.mp (ih _ k hk)).1

/-- **What a step of the archive does.** -/
inductive ArchiveEffect (K : ArchiveConfig) (s : Archive) : ArchiveAction → Archive → Prop where
  | unchanged (a : ArchiveAction) : ArchiveEffect K s a s
  | service (command : Command) (db : Db)
      (h : Db.step K.toEvidenceConfig s.db command = some db) :
      ArchiveEffect K s (.service command) { s with db }
  | submitted (a : ArchiveAction) (report : IssueReport) (photos : Table ReportPhoto)
      (audit : Table AuditEvent)
      (hphotos : ∀ pk photo, photos.get? pk = some photo → s.photos.get? pk = some photo ∨
        photo.report = s.db.reports.next ∧
          IsDocument s.db photo.version .reportPhoto report.building) :
      ArchiveEffect K s a { s with
        photos, db := { s.db with reports := s.db.reports.insert report, audit } }
  | uploaded (caller : UploadCaller) (uploader : ℕ) (f : UploadedFile) (w : Surroundings)
      (t : Archive) (r : Except UploadError ℕ) (hfresh : s.freshUuid w.uuid = true)
      (h : UploadEffect K s caller uploader f w t r) :
      ArchiveEffect K s (.upload caller uploader f w) t
  | quarantined (f : UploadedFile) (uploader : ℕ) (reason : Text) (w : Surroundings) (t : Archive)
      (r : Except UploadError ℕ) (hmay : mayQuarantine s.db uploader = true)
      (h : QuarantineEffect K s f uploader reason w t r) :
      ArchiveEffect K s (.quarantineUpload f uploader reason w) t
  | billed (a : ArchiveAction) (bill : Bill) (audit : Table AuditEvent)
      (hbill : IsDocument s.db bill.document .residentBill bill.building) :
      ArchiveEffect K s a { s with bills := s.bills.insert bill, db := { s.db with audit } }
  | rebilled (a : ArchiveAction) (pk : ℕ) (change : Bill → Bill) (audit : Table AuditEvent)
      (hchange : KeepsDocument change) :
      ArchiveEffect K s a { s with bills := s.bills.update pk change, db := { s.db with audit } }
  | purged (now : ℕ) (unreachable : Text → Bool) (objects : List Text)
      (h : ∀ k ∈ objects, k ∈ s.objects) :
      ArchiveEffect K s (.purge now unreachable) { s with objects }
  | cleaned (c : Cleanup) (s' : Archive) (h : CleanupEffect s s') :
      ArchiveEffect K s (.cleanup c) s'
  | lost (documents versions quarantine photos bills : ℕ) :
      ArchiveEffect K s (.loseKeys documents versions quarantine photos bills)
        { s with
          db := { s.db with
            documents := s.db.documents.skip documents
            documentVersions := s.db.documentVersions.skip versions }
          quarantine := s.quarantine.skip quarantine
          photos := s.photos.skip photos
          bills := s.bills.skip bills }

theorem returnedArchive_eq_some (x : Except ServiceError Archive) (h : returnedArchive x = some s) :
    x = .ok s := by
  cases x with
  | error e => cases h
  | ok t =>
    cases h
    rfl

/-- **Every step has one of these effects.** -/
theorem archive_effect (h : Archive.step K s a = some s') : ArchiveEffect K s a s' := by
  cases a with
  | service command =>
    rw [Archive.step] at h
    split at h
    · cases h
    · obtain ⟨db, hdb, rfl⟩ := Option.map_eq_some_iff.mp h
      exact .service command db hdb
  | submitReport resident building isPrivate photos =>
    obtain ⟨report, table, audit, hphotos, rfl⟩ :=
      submitReport_eq_ok _ _ _ _ (returnedArchive_eq_some _ h)
    exact .submitted _ report table audit hphotos
  | upload caller uploader f w =>
    rw [Archive.step] at h
    split at h
    · next hfresh =>
      cases h
      exact .uploaded caller uploader f w _ _ hfresh (upload_effect caller uploader f w hfresh)
    · cases h
  | quarantineUpload f uploader reason w =>
    rw [Archive.step] at h
    split at h
    · next hfresh =>
      cases h
      rcases quarantineUpload_effect (K := K) f uploader reason w hfresh with
        heq | ⟨hmay, heffect⟩
      · rw [heq]
        exact .unchanged _
      · exact .quarantined f uploader reason w _ _ hmay heffect
    · cases h
  | issueBill actor building resident document terms =>
    obtain ⟨bill, audit, hbill, rfl⟩ := issueBill_eq_ok _ _ _ _ _ (returnedArchive_eq_some _ h)
    exact .billed _ bill audit hbill
  | confirmPayment now bill actor source reference =>
    rcases confirmPayment_eq_ok _ _ _ _ _ (returnedArchive_eq_some _ h) with
      rfl | ⟨change, audit, hchange, rfl⟩
    · exact .unchanged _
    · exact .rebilled _ bill change audit hchange
  | voidBill now actor bill reason =>
    obtain ⟨change, audit, hchange, rfl⟩ :=
      voidBill_eq_ok _ _ _ _ _ (returnedArchive_eq_some _ h)
    exact .rebilled _ bill change audit hchange
  | purge now unreachable =>
    cases h
    have hsubset := purgeObjects_subset (K := K) unreachable (expiredQuarantine s now) s.objects
    unfold purgeExpiredQuarantine
    dsimp only
    generalize purgeObjects K unreachable (expiredQuarantine s now) s.objects = call at hsubset ⊢
    obtain ⟨objects, r⟩ := call
    cases r with
    | error e => exact .purged now unreachable objects hsubset
    | ok u => exact .purged now unreachable objects hsubset
  | cleanup c =>
    rw [Archive.step] at h
    split at h
    · cases h
      exact .cleaned c _ (cleanupStalePreparedOps_effect c)
    · cases h
  | loseKeys documents versions quarantine photos bills =>
    cases h
    exact .lost documents versions quarantine photos bills

end LamTo.Analysis
