import LamTo.Model.Submissions

/-!
# A photo is attached once

A call looks for the photo once more when it holds the row of the report, and holds it until its
transaction ends. So when it makes a version and a photo nobody else has made one of this content
for this report, and nobody will before it commits: the two unique constraints are never met.

* `PhotoInv` says what the phase of each call stands for, that the row of a report is held by the
  one call whose phase says so, and that versions and photos belong together one to one;
* most steps only move one call, `PhotoInv.settle`; the two insertions and the commit are the
  others;
* a call waits only for one that holds its report, and that one can go on.

SOURCE: src/lamto/maintenance/reporting.py:157-217
-/

set_option autoImplicit false

namespace LamTo.Analysis

open LamTo.Library LamTo.Model

variable {C : Type}

/-- The photo that a call links to a version. -/
def photoOf (K : ArchiveConfig) (request : PhotoRequest) (version : ℕ) : ReportPhoto where
  report := request.report
  version := version
  contentSha := contentHash K request.file

/-- The clash that `report_photo_content_sha_once` forbids. -/
def SamePhoto (a b : ReportPhoto) : Prop := a.report = b.report ∧ a.contentSha = b.contentSha

theorem SamePhoto.symm (a b : ReportPhoto) (h : SamePhoto a b) : SamePhoto b a :=
  ⟨h.1.symm, h.2.symm⟩

theorem samePhoto_iff (report : ℕ) (sha : Text) (photo : ReportPhoto) :
    PhotoState.samePhoto report sha photo = true ↔
      photo.report = report ∧ photo.contentSha = sha := by
  simp only [PhotoState.samePhoto, Bool.and_eq_true, decide_eq_true_eq]

/-- No photo of the content is committed for the report. -/
def Absent (K : ArchiveConfig) (t : Table ReportPhoto) (request : PhotoRequest) : Prop :=
  ∀ pk a, t.get? pk = some a → a.report = request.report →
    a.contentSha ≠ contentHash K request.file

theorem absent_of_look (K : ArchiveConfig) (s : PhotoState C) (request : PhotoRequest)
    (h : s.lookFor K request = none) : Absent K s.photos.committed request := by
  intro pk a ha hreport hsha
  have := (Table.first?_eq_none _ _).mp h pk a ha
  rw [(samePhoto_iff _ _ a).mpr ⟨hreport, hsha⟩] at this
  cases this

theorem photo_of_look (K : ArchiveConfig) (s : PhotoState C) (request : PhotoRequest)
    (found : ℕ × ReportPhoto) (h : s.lookFor K request = some found) :
    s.photos.committed.get? found.1 = some (photoOf K request found.2.version) := by
  obtain ⟨pk, photo⟩ := found
  obtain ⟨hrow, hsame⟩ := Table.first?_eq_some _ _ pk photo h
  obtain ⟨hreport, hsha⟩ := (samePhoto_iff _ _ photo).mp hsame
  rw [hrow, photoOf, ← hreport, ← hsha]

/-! ## What a phase stands for -/

/-- The call holds the row of a report. -/
def Holds : PhotoPhase → ℕ → Prop
  | .locked request, report | .creating request, report | .created request _, report
  | .linked request _, report => request.report = report
  | .idle, _ | .allowed _, _ | .waiting _, _ | .finished _ _, _ => False

/-- What the phase of a call stands for. -/
def PhotoStands (K : ArchiveConfig) (s : PhotoState C) (c : C) : PhotoPhase → Prop
  | .idle | .allowed _ | .waiting _ | .locked _ => True
  | .creating request => Absent K s.photos.committed request
  | .created request version => Absent K s.photos.committed request ∧
    s.versions.pending version = some ⟨c, some (contentHash K request.file)⟩
  | .linked request version => Absent K s.photos.committed request ∧
    s.versions.pending version = some ⟨c, some (contentHash K request.file)⟩ ∧
    ∃ pk, s.photos.pending pk = some ⟨c, some (photoOf K request version)⟩
  | .finished request (.returned version _) =>
    ∃ pk, s.photos.committed.get? pk = some (photoOf K request version)
  | .finished _ .integrity => False
  | .finished _ _ => True

structure PhotoInv (K : ArchiveConfig) (s : PhotoState C) : Prop where
  versions : Versions.InsertOnly s.versions
  photos : Versions.InsertOnly s.photos
  once : Versions.Unique SamePhoto s.photos
  phases : ∀ c, PhotoStands K s c (s.phase c)
  holders : ∀ c report, s.reportHolder report = some c ↔ Holds (s.phase c) report
  versionOwners : ∀ pk p, s.versions.pending pk = some p →
    ∃ request, s.phase p.owner = .created request pk ∨ s.phase p.owner = .linked request pk
  photoOwners : ∀ pk p, s.photos.pending pk = some p →
    ∃ request version, s.phase p.owner = .linked request version ∧
      p.row = some (photoOf K request version)
  shown : ∀ version sha, s.versions.committed.get? version = some sha →
    ∃ pk photo, s.photos.committed.get? pk = some photo ∧ photo.version = version ∧
      photo.contentSha = sha
  stored : ∀ pk photo, s.photos.committed.get? pk = some photo →
    s.versions.committed.get? photo.version = some photo.contentSha
  apart : ∀ pk qk a b, s.photos.committed.get? pk = some a →
    s.photos.committed.get? qk = some b → a.version = b.version → pk = qk
  made : ∀ pk photo, s.photos.committed.get? pk = some photo →
    ∃ c request, s.phase c = .finished request (.returned photo.version true)
  single : ∀ c d r q version, s.phase c = .finished r (.returned version true) →
    s.phase d = .finished q (.returned version true) → c = d

theorem photoInv_empty (K : ArchiveConfig) (livesIn : ℕ → ℕ → Bool) :
    PhotoInv K (PhotoState.empty livesIn : PhotoState C) where
  versions := Versions.insertOnly_empty
  photos := Versions.insertOnly_empty
  once := Versions.unique_empty SamePhoto
  phases := fun _ => trivial
  holders := fun _ _ => ⟨fun h => (nomatch h), fun h => h.elim⟩
  versionOwners := fun _ _ h => nomatch h
  photoOwners := fun _ _ h => nomatch h
  shown := fun _ _ h => nomatch h
  stored := fun _ _ h => nomatch h
  apart := fun _ _ _ _ h => nomatch h
  made := fun _ _ h => nomatch h
  single := fun _ _ _ _ _ h => nomatch h

/-! ## Steps -/

variable {K : ArchiveConfig} {s t : PhotoState C}

/-- A phase that says nothing of uncommitted rows, and has made no photo. -/
def Photoless : PhotoPhase → Prop
  | .created _ _ | .linked _ _ | .finished _ (.returned _ true) => False
  | _ => True

/-- The phase of a call stands while photos are only added, none for the report that it holds. -/
theorem PhotoStands.grow {c : C} {phase : PhotoPhase} (h : PhotoStands K s c phase)
    (hgrow : ∀ pk a, s.photos.committed.get? pk = some a → t.photos.committed.get? pk = some a)
    (hnew : ∀ report, Holds phase report → ∀ pk a,
      t.photos.committed.get? pk = some a →
        (∃ q, s.photos.committed.get? q = some a) ∨ a.report ≠ report)
    (hversions : ∀ pk row, s.versions.pending pk = some ⟨c, row⟩ →
      t.versions.pending pk = some ⟨c, row⟩)
    (hphotos : ∀ pk row, s.photos.pending pk = some ⟨c, row⟩ →
      t.photos.pending pk = some ⟨c, row⟩) : PhotoStands K t c phase := by
  have habsent : ∀ request : PhotoRequest, Holds phase request.report →
      Absent K s.photos.committed request → Absent K t.photos.committed request := by
    intro request hholds habsent pk a ha hreport
    rcases hnew request.report hholds pk a ha with ⟨q, hq⟩ | hne
    · exact habsent q a hq hreport
    · exact absurd hreport hne
  cases phase with
  | idle => trivial
  | allowed request => trivial
  | waiting request => trivial
  | locked request => trivial
  | creating request => exact habsent request rfl h
  | created request version => exact ⟨habsent request rfl h.1, hversions version _ h.2⟩
  | linked request version =>
    obtain ⟨hbefore, hversion, pk, hpk⟩ := h
    exact ⟨habsent request rfl hbefore, hversions version _ hversion, pk, hphotos pk _ hpk⟩
  | finished request result =>
    cases result with
    | returned version created =>
      obtain ⟨pk, hpk⟩ := h
      exact ⟨pk, hgrow pk _ hpk⟩
    | integrity => exact h.elim
    | permissionDenied => trivial
    | refused e => trivial
    | connection => trivial

/-- The phase of a call stands in every state with the same photos and the call's own rows. -/
theorem PhotoStands.same {c : C} {phase : PhotoPhase} (h : PhotoStands K s c phase)
    (hcommitted : ∀ pk, t.photos.committed.get? pk = s.photos.committed.get? pk)
    (hversions : ∀ pk row, s.versions.pending pk = some ⟨c, row⟩ →
      t.versions.pending pk = some ⟨c, row⟩)
    (hphotos : ∀ pk row, s.photos.pending pk = some ⟨c, row⟩ →
      t.photos.pending pk = some ⟨c, row⟩) : PhotoStands K t c phase :=
  h.grow (fun pk _ ha => (hcommitted pk).trans ha)
    (fun _ _ pk _ ha => .inl ⟨pk, (hcommitted pk).symm.trans ha⟩) hversions hphotos

/-- A phase without a photo stands in every state with the same photos. -/
theorem PhotoStands.photoless {c : C} {phase : PhotoPhase} (h : PhotoStands K s c phase)
    (hphotoless : Photoless phase)
    (hcommitted : ∀ pk, t.photos.committed.get? pk = s.photos.committed.get? pk) :
    PhotoStands K t c phase := by
  cases phase with
  | created request version => exact hphotoless.elim
  | linked request version => exact hphotoless.elim
  | idle => trivial
  | allowed request => trivial
  | waiting request => trivial
  | locked request => trivial
  | creating request =>
    exact fun pk a ha => h pk a ((hcommitted pk).symm.trans ha)
  | finished request result =>
    cases result with
    | returned version created =>
      obtain ⟨pk, hpk⟩ := h
      exact ⟨pk, (hcommitted pk).trans hpk⟩
    | integrity => exact h.elim
    | permissionDenied => trivial
    | refused e => trivial
    | connection => trivial

/-- A call owns no version while its phase names none. -/
theorem PhotoInv.no_version (h : PhotoInv K s) (c : C)
    (hcreated : ∀ request version, s.phase c ≠ .created request version)
    (hlinked : ∀ request version, s.phase c ≠ .linked request version) (pk : ℕ)
    (p : Pending C Text) (hp : s.versions.pending pk = some p) : p.owner ≠ c := by
  rintro rfl
  obtain ⟨request, hphase | hphase⟩ := h.versionOwners pk p hp
  · exact hcreated request pk hphase
  · exact hlinked request pk hphase

theorem PhotoInv.no_photo (h : PhotoInv K s) (c : C)
    (hlinked : ∀ request version, s.phase c ≠ .linked request version) (pk : ℕ)
    (p : Pending C ReportPhoto) (hp : s.photos.pending pk = some p) : p.owner ≠ c := by
  rintro rfl
  obtain ⟨request, version, hphase, -⟩ := h.photoOwners pk p hp
  exact hlinked request version hphase

variable [DecidableEq C]

/-- **One call moves on**: it is not finished before, it has inserted nothing after, and what it
had not committed is dropped. -/
theorem PhotoInv.settle (h : PhotoInv K s) (c : C) (phase : PhotoPhase)
    (hversions : Versions.Drops c s.versions t.versions)
    (hphotos : Versions.Drops c s.photos t.photos)
    (hphase : t.phase = Function.update s.phase c phase)
    (hbefore : ∀ request result, s.phase c ≠ .finished request result)
    (hstands : PhotoStands K s c phase) (hphotoless : Photoless phase)
    (hholder : ∀ report, t.reportHolder report = some c ↔ Holds phase report)
    (hothers : ∀ report d, d ≠ c →
      (t.reportHolder report = some d ↔ s.reportHolder report = some d)) : PhotoInv K t := by
  have hself : t.phase c = phase := by rw [hphase, Function.update_self]
  have hother : ∀ d, d ≠ c → t.phase d = s.phase d := fun d hd => by
    rw [hphase, Function.update_of_ne hd]
  have hcreated : ∀ request version, phase ≠ .finished request (.returned version true) := by
    rintro request version rfl
    exact hphotoless
  have hcommitted : ∀ pk, t.photos.committed.get? pk = s.photos.committed.get? pk := fun pk => by
    rw [hphotos.committed]
  refine ⟨hversions.insertOnly h.versions, hphotos.insertOnly h.photos, hphotos.unique h.once,
    ?_, ?_, ?_, ?_, ?_, ?_, ?_, ?_, ?_⟩
  · intro d
    by_cases hd : d = c
    · subst hd
      rw [hself]
      exact hstands.photoless hphotoless hcommitted
    · rw [hother d hd]
      exact (h.phases d).same hcommitted
        (fun pk row hrow => (hversions.pending pk _).mpr ⟨hrow, hd⟩)
        fun pk row hrow => (hphotos.pending pk _).mpr ⟨hrow, hd⟩
  · intro d report
    by_cases hd : d = c
    · subst hd
      rw [hself]
      exact hholder report
    · rw [hother d hd]
      exact (hothers report d hd).trans (h.holders d report)
  · intro pk p hp
    obtain ⟨hp, hne⟩ := (hversions.pending pk p).mp hp
    rw [hother p.owner hne]
    exact h.versionOwners pk p hp
  · intro pk p hp
    obtain ⟨hp, hne⟩ := (hphotos.pending pk p).mp hp
    rw [hother p.owner hne]
    exact h.photoOwners pk p hp
  · rw [hversions.committed, hphotos.committed]
    exact h.shown
  · rw [hversions.committed, hphotos.committed]
    exact h.stored
  · rw [hphotos.committed]
    exact h.apart
  · rw [hphotos.committed]
    intro pk photo hrow
    obtain ⟨d, request, hd⟩ := h.made pk photo hrow
    have hne : d ≠ c := fun hdc => hbefore request _ (hdc ▸ hd)
    exact ⟨d, request, (hother d hne).trans hd⟩
  · have hne : ∀ f r version, t.phase f = .finished r (.returned version true) → f ≠ c := by
      intro f r version hf hfc
      rw [hfc, hself] at hf
      exact hcreated r version hf
    intro d e r q version hd he
    rw [hother d (hne d r version hd)] at hd
    rw [hother e (hne e q version he)] at he
    exact h.single d e r q version hd he

/-- A call that holds nothing moves to a phase that holds nothing. -/
theorem PhotoInv.advance (h : PhotoInv K s) (c : C) (phase : PhotoPhase)
    (hbefore : ∀ request result, s.phase c ≠ .finished request result)
    (hfree : ∀ report, ¬ Holds (s.phase c) report) (hstands : PhotoStands K s c phase)
    (hphotoless : Photoless phase) (hafter : ∀ report, ¬ Holds phase report) :
    PhotoInv K (s.setPhase c phase) := by
  have hlinked : ∀ request version, s.phase c ≠ .linked request version := by
    intro request version hphase
    exact hfree request.report (by rw [hphase]; exact rfl)
  have hcreated : ∀ request version, s.phase c ≠ .created request version := by
    intro request version hphase
    exact hfree request.report (by rw [hphase]; exact rfl)
  refine h.settle c phase (Versions.drops_self (h.no_version c hcreated hlinked))
    (Versions.drops_self (h.no_photo c hlinked)) rfl hbefore hstands hphotoless ?_
    fun _ _ _ => Iff.rfl
  intro report
  exact ⟨fun hc => absurd ((h.holders c report).mp hc) (hfree report),
    fun hc => absurd hc (hafter report)⟩

omit [DecidableEq C] in
/-- Two calls that hold one report are one call. -/
theorem PhotoInv.holder_unique (h : PhotoInv K s) {c d : C} {report : ℕ}
    (hc : Holds (s.phase c) report) (hd : Holds (s.phase d) report) : c = d := by
  have hboth := ((h.holders c report).mpr hc).symm.trans ((h.holders d report).mpr hd)
  exact Option.some.inj hboth

/-- After a call has let its report go, it holds none, and the others hold what they held. -/
theorem release_holder (s : PhotoState C) (c : C) :
    (∀ report, (s.release c).reportHolder report ≠ some c) ∧
      ∀ report d, d ≠ c →
        ((s.release c).reportHolder report = some d ↔ s.reportHolder report = some d) := by
  constructor
  · intro report hc
    obtain ⟨-, hne⟩ := Option.filter_eq_some_iff.mp hc
    exact of_decide_eq_true hne rfl
  · intro report d hd
    constructor
    · intro hfilter
      exact (Option.filter_eq_some_iff.mp hfilter).1
    · intro hholder
      exact Option.filter_eq_some_iff.mpr ⟨hholder, decide_eq_true hd⟩

/-- **A call ends** without a photo of its own. -/
theorem PhotoInv.giveUp (h : PhotoInv K s) (c : C) (request : PhotoRequest)
    (result : PhotoResult) (hbefore : ∀ r result, s.phase c ≠ .finished r result)
    (hstands : PhotoStands K s c (.finished request result))
    (hphotoless : Photoless (.finished request result)) :
    PhotoInv K ((s.rollback c).setPhase c (.finished request result)) :=
  h.settle c _ (Versions.drops_rollback s.versions c) (Versions.drops_rollback s.photos c)
    rfl hbefore hstands hphotoless
    (fun report => ⟨fun hc => absurd hc ((release_holder s c).1 report), fun hc => hc.elim⟩)
    (release_holder s c).2

/-- The row of the report is locked. -/
theorem PhotoInv.lock (h : PhotoInv K s) (c : C) (request : PhotoRequest)
    (hphase : s.phase c = .waiting request) (hfree : s.reportHolder request.report = none) :
    PhotoInv K ({ s with
      reportHolder := Function.update s.reportHolder request.report (some c) }.setPhase c
        (.locked request)) := by
  have hbefore : ∀ report, s.reportHolder report ≠ some c := by
    intro report hc
    have hholds := (h.holders c report).mp hc
    rw [hphase] at hholds
    exact hholds
  refine h.settle c (.locked request)
    (Versions.drops_self (h.no_version c (fun _ _ hr => nomatch hphase.symm.trans hr)
      fun _ _ hr => nomatch hphase.symm.trans hr))
    (Versions.drops_self (h.no_photo c fun _ _ hr => nomatch hphase.symm.trans hr)) rfl
    (fun _ _ hr => nomatch hphase.symm.trans hr) trivial trivial ?_ ?_
  · intro report
    show Function.update s.reportHolder request.report (some c) report = some c ↔
      request.report = report
    by_cases hreport : report = request.report
    · rw [hreport, Function.update_self]
      exact iff_of_true rfl rfl
    · rw [Function.update_of_ne hreport]
      exact iff_of_false (hbefore report) (Ne.symm hreport)
  · intro report d hd
    show Function.update s.reportHolder request.report (some c) report = some d ↔ _
    by_cases hreport : report = request.report
    · rw [hreport, Function.update_self, hfree]
      refine iff_of_false (fun hc => hd (Option.some.inj hc).symm) (Option.some_ne_none d).symm
    · rw [Function.update_of_ne hreport]

/-- Under the lock the photo is found, and the lock let go. -/
theorem PhotoInv.foundLocked (h : PhotoInv K s) (c : C) (request : PhotoRequest)
    (found : ℕ × ReportPhoto) (hphase : s.phase c = .locked request)
    (hfound : s.lookFor K request = some found) :
    PhotoInv K ((s.release c).setPhase c
      (.finished request (.returned found.2.version false))) :=
  h.settle c _
    (Versions.drops_self (h.no_version c (fun _ _ hr => nomatch hphase.symm.trans hr)
      fun _ _ hr => nomatch hphase.symm.trans hr))
    (Versions.drops_self (h.no_photo c fun _ _ hr => nomatch hphase.symm.trans hr)) rfl
    (fun _ _ hr => nomatch hphase.symm.trans hr)
    ⟨found.1, photo_of_look K s request found hfound⟩ trivial
    (fun report => ⟨fun hc => absurd hc ((release_holder s c).1 report), fun hc => hc.elim⟩)
    (release_holder s c).2

/-- Under the lock the photo is not found. -/
theorem PhotoInv.absentLocked (h : PhotoInv K s) (c : C) (request : PhotoRequest)
    (hphase : s.phase c = .locked request) (hnone : s.lookFor K request = none) :
    PhotoInv K (s.setPhase c (.creating request)) := by
  refine h.settle c (.creating request)
    (Versions.drops_self (h.no_version c (fun _ _ hr => nomatch hphase.symm.trans hr)
      fun _ _ hr => nomatch hphase.symm.trans hr))
    (Versions.drops_self (h.no_photo c fun _ _ hr => nomatch hphase.symm.trans hr)) rfl
    (fun _ _ hr => nomatch hphase.symm.trans hr) (absent_of_look K s request hnone) trivial
    ?_ fun _ _ _ => Iff.rfl
  intro report
  have hholders := h.holders c report
  rw [hphase] at hholders
  exact hholders

/-- **A version is made.** -/
theorem PhotoInv.createVersion (h : PhotoInv K s) (c : C) (request : PhotoRequest)
    (hphase : s.phase c = .creating request) :
    PhotoInv K ({ s with
      versions := s.versions.insert c (contentHash K request.file) }.setPhase c
        (.created request s.versions.committed.next)) := by
  have habsent : Absent K s.photos.committed request := by
    have := h.phases c
    rwa [hphase] at this
  have hself := Function.update_self c (PhotoPhase.created request s.versions.committed.next)
    s.phase
  have hother : ∀ d, d ≠ c → Function.update s.phase c
      (PhotoPhase.created request s.versions.committed.next) d = s.phase d :=
    fun d hd => Function.update_of_ne hd _ _
  have hne : ∀ d r v, Function.update s.phase c
      (PhotoPhase.created request s.versions.committed.next) d =
        .finished r (.returned v true) → d ≠ c := by
    intro d r v hd hc
    rw [hc, hself] at hd
    cases hd
  refine ⟨h.versions.insert _, h.photos, h.once, ?_, ?_, ?_, ?_, h.shown, h.stored, h.apart,
    ?_, ?_⟩
  · intro d
    by_cases hd : d = c
    · subst hd
      show PhotoStands K _ d (Function.update s.phase d _ d)
      rw [hself]
      exact ⟨habsent, (s.versions.pending_insert d _ _).trans (if_pos rfl)⟩
    · show PhotoStands K _ d (Function.update s.phase c _ d)
      rw [hother d hd]
      refine (h.phases d).same (fun _ => rfl) (fun pk row hrow => ?_) fun _ _ hrow => hrow
      exact (s.versions.pending_insert_other c _ pk ⟨d, row⟩ hd).mpr hrow
  · intro d report
    show s.reportHolder report = some d ↔ Holds (Function.update s.phase c _ d) report
    by_cases hd : d = c
    · have hholders := h.holders c report
      rw [hphase] at hholders
      rw [hd, hself]
      exact hholders
    · rw [hother d hd]
      exact h.holders d report
  · intro pk p hp
    change (s.versions.insert c _).pending pk = some p at hp
    rw [Versions.pending_insert] at hp
    split at hp
    · next hpk =>
      cases hp
      exact ⟨request, .inl (by rw [hpk]; exact hself)⟩
    · obtain ⟨r, hr⟩ := h.versionOwners pk p hp
      have howner : p.owner ≠ c := fun hc => by
        rw [hc, hphase] at hr
        rcases hr with hr | hr <;> cases hr
      refine ⟨r, ?_⟩
      show Function.update s.phase c _ p.owner = _ ∨ Function.update s.phase c _ p.owner = _
      rw [hother _ howner]
      exact hr
  · intro pk p hp
    obtain ⟨r, v, hr, hrow⟩ := h.photoOwners pk p hp
    have howner : p.owner ≠ c := fun hc => by
      rw [hc, hphase] at hr
      cases hr
    exact ⟨r, v, (hother _ howner).trans hr, hrow⟩
  · intro pk photo hrow
    obtain ⟨d, r, hd⟩ := h.made pk photo hrow
    have hdc : d ≠ c := fun hc => by
      rw [hc, hphase] at hd
      cases hd
    exact ⟨d, r, (hother d hdc).trans hd⟩
  · intro d e r q v hd he
    exact h.single d e r q v ((hother d (hne d r v hd)).symm.trans hd)
      ((hother e (hne e q v he)).symm.trans he)

omit [DecidableEq C] in
/-- A photo that is stored for the report of a call in its hands, with its content, is its own. -/
theorem PhotoInv.no_twin (h : PhotoInv K s) (c : C) (request : PhotoRequest) (version : ℕ)
    (hphase : s.phase c = .created request version) (pk : ℕ) (a : ReportPhoto)
    (hstored : s.photos.Stored pk a) : ¬ SamePhoto (photoOf K request version) a := by
  intro hsame
  have hstands := h.phases c
  rw [hphase] at hstands
  rcases hstored with hcommitted | ⟨d, hpending⟩
  · exact hstands.1 pk a hcommitted hsame.1.symm hsame.2.symm
  · obtain ⟨r, v, hr, hrow⟩ := h.photoOwners pk _ hpending
    cases hrow
    have hheld : Holds (s.phase d) request.report := by
      rw [hr]
      exact hsame.1.symm
    have hmine : Holds (s.phase c) request.report := by
      rw [hphase]
      exact rfl
    rw [h.holder_unique hheld hmine, hphase] at hr
    cases hr

omit [DecidableEq C] in
/-- No photo clashes with the one a call is about to link. -/
theorem PhotoInv.no_clash (h : PhotoInv K s) (c : C) (request : PhotoRequest) (version : ℕ)
    (hphase : s.phase c = .created request version) (pk : ℕ) (a : ReportPhoto)
    (hstored : s.photos.Stored pk a) :
    PhotoState.clashes (photoOf K request version) a = false := by
  have hsame := h.no_twin c request version hphase pk a hstored
  cases hclash : PhotoState.clashes (photoOf K request version) a with
  | false => rfl
  | true =>
    simp only [PhotoState.clashes, Bool.or_eq_true, Bool.and_eq_true, decide_eq_true_eq,
      samePhoto_iff] at hclash
    rcases hclash with ⟨hreport, hsha⟩ | ⟨hreport, hversion⟩
    · exact absurd ⟨hreport.symm, hsha.symm⟩ hsame
    · have hstands := h.phases c
      rw [hphase] at hstands
      rcases hstored with hcommitted | ⟨d, hpending⟩
      · have hthere := h.stored pk a hcommitted
        rw [hversion] at hthere
        have hnone := h.versions.fresh _ _ hstands.2
        exact nomatch hnone.symm.trans hthere
      · obtain ⟨r, v, hr, hrow⟩ := h.photoOwners pk _ hpending
        cases hrow
        have hheld : Holds (s.phase d) request.report := by
          rw [hr]
          exact hreport
        have hmine : Holds (s.phase c) request.report := by
          rw [hphase]
          exact rfl
        rw [h.holder_unique hheld hmine, hphase] at hr
        cases hr

/-- The constraints let the photo of a call in at once. -/
theorem PhotoInv.link_clear (h : PhotoInv K s) (c : C) (request : PhotoRequest) (version : ℕ)
    (hphase : s.phase c = .created request version) :
    s.photos.awaits c (PhotoState.clashes (photoOf K request version)) = false ∧
      (s.photos.view c).any (PhotoState.clashes (photoOf K request version)) = false := by
  constructor
  · cases hawaits : s.photos.awaits c (PhotoState.clashes (photoOf K request version)) with
    | false => rfl
    | true =>
      obtain ⟨d, pk, a, -, hpending, hclash⟩ := h.photos.of_awaits _ hawaits
      rw [h.no_clash c request version hphase pk a (.inr ⟨d, hpending⟩)] at hclash
      cases hclash
  · rw [Table.any_eq_false]
    intro pk a ha
    rw [Versions.get?_view, h.photos.seen_eq_some] at ha
    have hstored : s.photos.Stored pk a := ha.imp_right fun hpending => ⟨c, hpending⟩
    exact Bool.not_eq_true _ ▸ h.no_clash c request version hphase pk a hstored

/-- **The version is linked to the report.** -/
theorem PhotoInv.link (h : PhotoInv K s) (c : C) (request : PhotoRequest) (version : ℕ)
    (hphase : s.phase c = .created request version) :
    PhotoInv K ({ s with photos := s.photos.insert c (photoOf K request version) }.setPhase c
      (.linked request version)) := by
  have hstands : PhotoStands K s c (.created request version) := by
    have := h.phases c
    rwa [hphase] at this
  have hself := Function.update_self c (PhotoPhase.linked request version) s.phase
  have hother : ∀ d, d ≠ c → Function.update s.phase c
      (PhotoPhase.linked request version) d = s.phase d :=
    fun d hd => Function.update_of_ne hd _ _
  have hne : ∀ d r v, Function.update s.phase c (PhotoPhase.linked request version) d =
      .finished r (.returned v true) → d ≠ c := by
    intro d r v hd hc
    rw [hc, hself] at hd
    cases hd
  refine ⟨h.versions, h.photos.insert _, ?_, ?_, ?_, ?_, ?_, h.shown, h.stored, h.apart, ?_, ?_⟩
  · exact h.once.insert SamePhoto.symm _ (h.no_twin c request version hphase)
  · intro d
    by_cases hd : d = c
    · subst hd
      show PhotoStands K _ d (Function.update s.phase d _ d)
      rw [hself]
      exact ⟨hstands.1, hstands.2, s.photos.committed.next,
        (s.photos.pending_insert d _ _).trans (if_pos rfl)⟩
    · show PhotoStands K _ d (Function.update s.phase c _ d)
      rw [hother d hd]
      refine (h.phases d).same (fun _ => rfl) (fun _ _ hrow => hrow) fun pk row hrow => ?_
      exact (s.photos.pending_insert_other c _ pk ⟨d, row⟩ hd).mpr hrow
  · intro d report
    show s.reportHolder report = some d ↔ Holds (Function.update s.phase c _ d) report
    by_cases hd : d = c
    · have hholders := h.holders c report
      rw [hphase] at hholders
      rw [hd, hself]
      exact hholders
    · rw [hother d hd]
      exact h.holders d report
  · intro pk p hp
    obtain ⟨r, hr⟩ := h.versionOwners pk p hp
    by_cases howner : p.owner = c
    · rw [howner, hphase] at hr
      rcases hr with hr | hr
      · cases hr
        exact ⟨request, .inr (by rw [howner]; exact hself)⟩
      · cases hr
    · refine ⟨r, ?_⟩
      show Function.update s.phase c _ p.owner = _ ∨ Function.update s.phase c _ p.owner = _
      rw [hother _ howner]
      exact hr
  · intro pk p hp
    change (s.photos.insert c _).pending pk = some p at hp
    rw [Versions.pending_insert] at hp
    split at hp
    · cases hp
      exact ⟨request, version, hself, rfl⟩
    · obtain ⟨r, v, hr, hrow⟩ := h.photoOwners pk p hp
      have howner : p.owner ≠ c := fun hc => by
        rw [hc, hphase] at hr
        cases hr
      exact ⟨r, v, (hother _ howner).trans hr, hrow⟩
  · intro pk photo hrow
    obtain ⟨d, r, hd⟩ := h.made pk photo hrow
    have hdc : d ≠ c := fun hc => by
      rw [hc, hphase] at hd
      cases hd
    exact ⟨d, r, (hother d hdc).trans hd⟩
  · intro d e r q v hd he
    exact h.single d e r q v ((hother d (hne d r v hd)).symm.trans hd)
      ((hother e (hne e q v he)).symm.trans he)

omit [DecidableEq C] in
/-- What a call that is about to commit has inserted. -/
theorem PhotoInv.inserted (h : PhotoInv K s) (c : C) (request : PhotoRequest) (version : ℕ)
    (hphase : s.phase c = .linked request version) :
    (∀ q sha, s.versions.pending q = some ⟨c, some sha⟩ ↔
      q = version ∧ sha = contentHash K request.file) ∧
    ∃ pk, ∀ q a, s.photos.pending q = some ⟨c, some a⟩ ↔
      q = pk ∧ a = photoOf K request version := by
  have hstands := h.phases c
  rw [hphase] at hstands
  obtain ⟨-, hversion, pk, hpk⟩ := hstands
  constructor
  · intro q sha
    constructor
    · intro hq
      obtain ⟨r, hr | hr⟩ := h.versionOwners q _ hq
      · cases hphase.symm.trans hr
      · cases hphase.symm.trans hr
        cases hversion.symm.trans hq
        exact ⟨rfl, rfl⟩
    · rintro ⟨rfl, rfl⟩
      exact hversion
  · refine ⟨pk, fun q a => ?_⟩
    constructor
    · intro hq
      obtain ⟨r, v, hr, hrow⟩ := h.photoOwners q _ hq
      cases hphase.symm.trans hr
      cases hrow
      exact ⟨h.once q pk _ _ (.inr ⟨c, hq⟩) (.inr ⟨c, hpk⟩) ⟨rfl, rfl⟩, rfl⟩
    · rintro ⟨rfl, rfl⟩
      exact hpk

/-- **The photo is committed**: this call made it. -/
theorem PhotoInv.commit (h : PhotoInv K s) (c : C) (request : PhotoRequest) (version : ℕ)
    (hphase : s.phase c = .linked request version) :
    PhotoInv K ((s.commit c).setPhase c (.finished request (.returned version true))) := by
  obtain ⟨hown, pk, hphoto⟩ := h.inserted c request version hphase
  have hpending : s.versions.pending version = some ⟨c, some (contentHash K request.file)⟩ :=
    (hown version _).mpr ⟨rfl, rfl⟩
  have hversions : ∀ q sha, (s.versions.commit c).committed.get? q = some sha ↔
      s.versions.committed.get? q = some sha ∨
        q = version ∧ sha = contentHash K request.file := fun q sha =>
    (h.versions.get?_commit q sha).trans (or_congr_right (hown q sha))
  have hphotos : ∀ q a, (s.photos.commit c).committed.get? q = some a ↔
      s.photos.committed.get? q = some a ∨ q = pk ∧ a = photoOf K request version := fun q a =>
    (h.photos.get?_commit q a).trans (or_congr_right (hphoto q a))
  -- The version is not committed yet, so no committed photo is of it.
  have hnew : ∀ q a, s.photos.committed.get? q = some a → a.version ≠ version := by
    intro q a ha hversion
    have hthere := h.stored q a ha
    rw [hversion, h.versions.fresh version _ hpending] at hthere
    cases hthere
  have hself := Function.update_self c
    (PhotoPhase.finished request (.returned version true)) s.phase
  have hother : ∀ d, d ≠ c → Function.update s.phase c
      (PhotoPhase.finished request (.returned version true)) d = s.phase d :=
    fun d hd => Function.update_of_ne hd _ _
  have hmine : Holds (s.phase c) request.report := by
    rw [hphase]
    exact rfl
  refine ⟨h.versions.commit, h.photos.commit, ?_, ?_, ?_, ?_, ?_, ?_, ?_, ?_, ?_, ?_⟩
  · exact Versions.unique_of_stored h.once h.photos.stored_commit
  · intro d
    by_cases hd : d = c
    · subst hd
      show PhotoStands K _ d (Function.update s.phase d _ d)
      rw [hself]
      exact ⟨pk, (hphotos pk _).mpr (.inr ⟨rfl, rfl⟩)⟩
    · show PhotoStands K _ d (Function.update s.phase c _ d)
      rw [hother d hd]
      refine (h.phases d).grow (fun q a ha => (hphotos q a).mpr (.inl ha)) (fun r hr q a ha => ?_)
        (fun q row hrow => (s.versions.pending_commit c q ⟨d, row⟩).mpr ⟨hrow, hd⟩)
        (fun q row hrow => (s.photos.pending_commit c q ⟨d, row⟩).mpr ⟨hrow, hd⟩)
      rcases (hphotos q a).mp ha with hbefore | ⟨-, rfl⟩
      · exact .inl ⟨q, hbefore⟩
      · refine .inr fun hreport => ?_
        have hheld : Holds (s.phase d) request.report := by
          rw [show request.report = r from hreport]
          exact hr
        exact hd (h.holder_unique hheld hmine)
  · intro d report
    show (s.release c).reportHolder report = some d ↔ Holds (Function.update s.phase c _ d) report
    by_cases hd : d = c
    · rw [hd, hself]
      exact iff_of_false ((release_holder s c).1 report) id
    · rw [hother d hd]
      exact ((release_holder s c).2 report d hd).trans (h.holders d report)
  · intro q p hp
    obtain ⟨hp, hne⟩ := (s.versions.pending_commit c q p).mp hp
    obtain ⟨r, hr⟩ := h.versionOwners q p hp
    refine ⟨r, ?_⟩
    show Function.update s.phase c _ p.owner = _ ∨ Function.update s.phase c _ p.owner = _
    rw [hother _ hne]
    exact hr
  · intro q p hp
    obtain ⟨hp, hne⟩ := (s.photos.pending_commit c q p).mp hp
    obtain ⟨r, v, hr, hrow⟩ := h.photoOwners q p hp
    exact ⟨r, v, (hother _ hne).trans hr, hrow⟩
  · intro v sha hv
    rcases (hversions v sha).mp hv with hbefore | ⟨rfl, rfl⟩
    · obtain ⟨q, photo, hq, hphoto⟩ := h.shown v sha hbefore
      exact ⟨q, photo, (hphotos q photo).mpr (.inl hq), hphoto⟩
    · exact ⟨pk, _, (hphotos pk _).mpr (.inr ⟨rfl, rfl⟩), rfl, rfl⟩
  · intro q a ha
    rcases (hphotos q a).mp ha with hbefore | ⟨-, rfl⟩
    · exact (hversions _ _).mpr (.inl (h.stored q a hbefore))
    · exact (hversions _ _).mpr (.inr ⟨rfl, rfl⟩)
  · intro q r a b ha hb hsame
    rcases (hphotos q a).mp ha with ha | ⟨hq, rfl⟩
    · rcases (hphotos r b).mp hb with hb | ⟨-, rfl⟩
      · exact h.apart q r a b ha hb hsame
      · exact absurd hsame (hnew q a ha)
    · rcases (hphotos r b).mp hb with hb | ⟨hr, -⟩
      · exact absurd hsame.symm (hnew r b hb)
      · rw [hq, hr]
  · intro q a ha
    rcases (hphotos q a).mp ha with hbefore | ⟨-, rfl⟩
    · obtain ⟨d, r, hd⟩ := h.made q a hbefore
      have hdc : d ≠ c := fun hc => by
        rw [hc, hphase] at hd
        cases hd
      exact ⟨d, r, (hother d hdc).trans hd⟩
    · exact ⟨c, request, hself⟩
  · have hnone : ∀ d r, s.phase d ≠ .finished r (.returned version true) := by
      intro d r hd
      have hstands := h.phases d
      rw [hd] at hstands
      obtain ⟨q, hq⟩ := hstands
      exact hnew q _ hq rfl
    have hwas : ∀ d r v, d ≠ c → Function.update s.phase c
        (PhotoPhase.finished request (.returned version true)) d = .finished r (.returned v true) →
        s.phase d = .finished r (.returned v true) := fun d r v hd hfinished =>
      (hother d hd).symm.trans hfinished
    intro d e r q v hd he
    by_cases hdc : d = c
    · by_cases hec : e = c
      · rw [hdc, hec]
      · rw [hdc] at hd
        cases hself.symm.trans hd
        exact absurd (hwas e q version hec he) (hnone e q)
    · by_cases hec : e = c
      · rw [hec] at he
        cases hself.symm.trans he
        exact absurd (hwas d r version hdc hd) (hnone d r)
      · exact h.single d e r q v (hwas d r v hdc hd) (hwas e q v hec he)

/-- An integrity error is followed by another look. -/
theorem PhotoInv.recover (h : PhotoInv K s) (c : C) (request : PhotoRequest)
    (otherwise : PhotoResult) (hbefore : ∀ r result, s.phase c ≠ .finished r result)
    (hstands : PhotoStands K s c (.finished request otherwise))
    (hphotoless : Photoless (.finished request otherwise)) :
    PhotoInv K (s.recover K c request otherwise) := by
  unfold PhotoState.recover
  split
  · next photo hphoto =>
    exact h.giveUp c request _ hbefore ⟨photo.1, photo_of_look K s request photo hphoto⟩ trivial
  · exact h.giveUp c request otherwise hbefore hstands hphotoless

/-- **Every step keeps the invariant.** -/
theorem PhotoInv.step (h : PhotoInv K s) (action : PhotoAction C)
    (hstep : s.step K action = some t) : PhotoInv K t := by
  cases action with
  | setOccupancies livesIn =>
    cases hstep
    exact ⟨h.versions, h.photos, h.once, h.phases, h.holders, h.versionOwners, h.photoOwners,
      h.shown, h.stored, h.apart, h.made, h.single⟩
  | begin c request =>
    simp only [PhotoState.step, PhotoState.begin] at hstep
    split at hstep
    · next hphase =>
      have hbefore : ∀ r result, s.phase c ≠ .finished r result := fun _ _ hr =>
        by cases hphase.symm.trans hr
      have hfree : ∀ report, ¬ Holds (s.phase c) report := fun report => by
        rw [hphase]
        exact id
      split at hstep
      · cases hstep
        exact h.advance c _ hbefore hfree trivial trivial fun _ => id
      · cases hstep
        exact h.advance c _ hbefore hfree trivial trivial fun _ => id
    · cases hstep
  | look c =>
    simp only [PhotoState.step, PhotoState.look] at hstep
    split at hstep
    · next request hphase =>
      have hbefore : ∀ r result, s.phase c ≠ .finished r result := fun _ _ hr =>
        by cases hphase.symm.trans hr
      have hfree : ∀ report, ¬ Holds (s.phase c) report := fun report => by
        rw [hphase]
        exact id
      split at hstep
      · next photo hphoto =>
        cases hstep
        exact h.advance c _ hbefore hfree ⟨photo.1, photo_of_look K s request photo hphoto⟩
          trivial fun _ => id
      · cases hstep
        exact h.advance c _ hbefore hfree trivial trivial fun _ => id
    · cases hstep
  | lock c =>
    simp only [PhotoState.step, PhotoState.lock] at hstep
    split at hstep
    · next request hphase =>
      split at hstep
      · cases hstep
      · next hfree =>
        cases hstep
        exact h.lock c request hphase (Option.not_isSome_iff_eq_none.mp hfree)
    · cases hstep
  | recheck c =>
    simp only [PhotoState.step, PhotoState.recheck] at hstep
    split at hstep
    · next request hphase =>
      split at hstep
      · next photo hphoto =>
        cases hstep
        exact h.foundLocked c request photo hphase hphoto
      · next hnone =>
        cases hstep
        exact h.absentLocked c request hphase hnone
    · cases hstep
  | create c refusal =>
    simp only [PhotoState.step, PhotoState.create] at hstep
    split at hstep
    · next request hphase =>
      have hbefore : ∀ r result, s.phase c ≠ .finished r result := fun _ _ hr =>
        by cases hphase.symm.trans hr
      split at hstep
      · cases hstep
        exact h.recover c request _ hbefore trivial trivial
      · cases hstep
        exact h.giveUp c request _ hbefore trivial trivial
      · cases hstep
        exact h.createVersion c request hphase
    · cases hstep
  | link c =>
    simp only [PhotoState.step, PhotoState.link] at hstep
    split at hstep
    · next request version hphase =>
      obtain ⟨hawaits, hview⟩ := h.link_clear c request version hphase
      have hphoto : (⟨request.report, version, contentHash K request.file⟩ : ReportPhoto) =
          photoOf K request version := rfl
      simp only [hphoto, hawaits, hview, Bool.false_eq_true, if_false, Option.some.injEq] at hstep
      rw [← hstep]
      exact h.link c request version hphase
    · cases hstep
  | finish c =>
    simp only [PhotoState.step, PhotoState.finish] at hstep
    split at hstep
    · next request version hphase =>
      cases hstep
      exact h.commit c request version hphase
    · cases hstep
  | disconnect c =>
    simp only [PhotoState.step, PhotoState.disconnect] at hstep
    repeat' split at hstep
    all_goals
      first
      | cases hstep; done
      | next hphase =>
        cases hstep
        exact h.giveUp c _ _ (fun _ _ hr => by cases hphase.symm.trans hr) trivial trivial

/-! ## The calls come to their ends -/

/-- How many steps a call has at most before it. -/
def photoStepsLeft : PhotoPhase → ℕ
  | .idle => 7
  | .allowed _ => 6
  | .waiting _ => 5
  | .locked _ => 4
  | .creating _ => 3
  | .created _ _ => 2
  | .linked _ _ => 1
  | .finished _ _ => 0

/-- The call has begun and has not ended. -/
def Attaching : PhotoPhase → Prop
  | .idle | .finished _ _ => False
  | _ => True

/-- The action is the next statement of a call. -/
def IsPhotoStatementOf (c : C) : PhotoAction C → Prop
  | .look d | .lock d | .recheck d | .create d _ | .link d | .finish d => d = c
  | .setOccupancies _ | .begin _ _ | .disconnect _ => False

/-- The call can take its next statement, which brings it nearer to its end. -/
def PhotoCanGoOn (K : ArchiveConfig) (s : PhotoState C) (c : C) : Prop :=
  ∃ action t, IsPhotoStatementOf c action ∧ s.step K action = some t ∧
    photoStepsLeft (t.phase c) < photoStepsLeft (s.phase c) ∧ ∀ d, d ≠ c → t.phase d = s.phase d

theorem photoCanGoOn_of_step (c : C) (action : PhotoAction C) (u : PhotoState C)
    (phase : PhotoPhase) (haction : IsPhotoStatementOf c action)
    (hstep : s.step K action = some (u.setPhase c phase)) (hu : u.phase = s.phase)
    (hleft : photoStepsLeft phase < photoStepsLeft (s.phase c)) : PhotoCanGoOn K s c := by
  refine ⟨action, u.setPhase c phase, haction, hstep, ?_, ?_⟩
  · show photoStepsLeft (Function.update u.phase c phase c) < _
    rw [Function.update_self]
    exact hleft
  · intro d hd
    rw [← hu]
    exact Function.update_of_ne hd _ _

/-- A call that holds its report waits for nobody. -/
theorem PhotoInv.holder_canGoOn (h : PhotoInv K s) (c : C) (report : ℕ)
    (hholds : Holds (s.phase c) report) : PhotoCanGoOn K s c := by
  cases hphase : s.phase c with
  | idle => exact absurd hholds (by rw [hphase]; exact id)
  | allowed request => exact absurd hholds (by rw [hphase]; exact id)
  | waiting request => exact absurd hholds (by rw [hphase]; exact id)
  | finished request result => exact absurd hholds (by rw [hphase]; exact id)
  | locked request =>
    cases hfound : s.lookFor K request with
    | some photo =>
      refine photoCanGoOn_of_step c (.recheck c) (s.release c)
        (.finished request (.returned photo.2.version false)) rfl ?_ rfl ?_
      · simp only [PhotoState.step, PhotoState.recheck, hphase, hfound]
      · rw [hphase]
        simp only [photoStepsLeft, Nat.reduceLT]
    | none =>
      refine photoCanGoOn_of_step c (.recheck c) s (.creating request) rfl ?_ rfl ?_
      · simp only [PhotoState.step, PhotoState.recheck, hphase, hfound]
      · rw [hphase]
        simp only [photoStepsLeft, Nat.reduceLT]
  | creating request =>
    refine photoCanGoOn_of_step c (.create c none)
      { s with versions := s.versions.insert c (contentHash K request.file) }
      (.created request s.versions.committed.next) rfl ?_ rfl ?_
    · simp only [PhotoState.step, PhotoState.create, hphase]
    · rw [hphase]
      simp only [photoStepsLeft, Nat.reduceLT]
  | created request version =>
    obtain ⟨hawaits, hview⟩ := h.link_clear c request version hphase
    have hphoto : (⟨request.report, version, contentHash K request.file⟩ : ReportPhoto) =
        photoOf K request version := rfl
    refine photoCanGoOn_of_step c (.link c)
      { s with photos := s.photos.insert c (photoOf K request version) }
      (.linked request version) rfl ?_ rfl ?_
    · simp only [PhotoState.step, PhotoState.link, hphase, hphoto, hawaits, hview,
        Bool.false_eq_true, if_false]
    · rw [hphase]
      simp only [photoStepsLeft, Nat.reduceLT]
  | linked request version =>
    refine photoCanGoOn_of_step c (.finish c) (s.commit c)
      (.finished request (.returned version true)) rfl ?_ rfl ?_
    · simp only [PhotoState.step, PhotoState.finish, hphase]
    · rw [hphase]
      simp only [photoStepsLeft, Nat.reduceLT]

/-- **No call waits for ever**: while one is in progress, one can go on. -/
theorem PhotoInv.progress (h : PhotoInv K s) (c : C) (hprogress : Attaching (s.phase c)) :
    ∃ d, PhotoCanGoOn K s d := by
  cases hphase : s.phase c with
  | idle => exact absurd hprogress (by rw [hphase]; exact id)
  | finished request result => exact absurd hprogress (by rw [hphase]; exact id)
  | allowed request =>
    cases hfound : s.lookFor K request with
    | some photo =>
      refine ⟨c, photoCanGoOn_of_step c (.look c) s
        (.finished request (.returned photo.2.version false)) rfl ?_ rfl ?_⟩
      · simp only [PhotoState.step, PhotoState.look, hphase, hfound]
      · rw [hphase]
        simp only [photoStepsLeft, Nat.reduceLT]
    | none =>
      refine ⟨c, photoCanGoOn_of_step c (.look c) s (.waiting request) rfl ?_ rfl ?_⟩
      · simp only [PhotoState.step, PhotoState.look, hphase, hfound]
      · rw [hphase]
        simp only [photoStepsLeft, Nat.reduceLT]
  | waiting request =>
    cases hholder : s.reportHolder request.report with
    | some d => exact ⟨d, h.holder_canGoOn d request.report ((h.holders d _).mp hholder)⟩
    | none =>
      refine ⟨c, photoCanGoOn_of_step c (.lock c)
        { s with reportHolder := Function.update s.reportHolder request.report (some c) }
        (.locked request) rfl ?_ rfl ?_⟩
      · simp only [PhotoState.step, PhotoState.lock, hphase, hholder, Option.isSome_none,
          Bool.false_eq_true, if_false]
      · rw [hphase]
        simp only [photoStepsLeft, Nat.reduceLT]
  | locked request => exact ⟨c, h.holder_canGoOn c request.report (by rw [hphase]; exact rfl)⟩
  | creating request => exact ⟨c, h.holder_canGoOn c request.report (by rw [hphase]; exact rfl)⟩
  | created request version =>
    exact ⟨c, h.holder_canGoOn c request.report (by rw [hphase]; exact rfl)⟩
  | linked request version =>
    exact ⟨c, h.holder_canGoOn c request.report (by rw [hphase]; exact rfl)⟩

end LamTo.Analysis
