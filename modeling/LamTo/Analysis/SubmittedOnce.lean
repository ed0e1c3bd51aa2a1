import LamTo.Analysis.PhotoSubmissions
import LamTo.Analysis.QueuedEvidence
import LamTo.Analysis.ReportSubmissions
import LamTo.Analysis.ResidentDownloads

/-!
# What a resident sends twice is there once

The two protocols have one result. Of the calls that send the same thing one makes it and says so,
and every other call that gets through answers with what that one made; a report of other content
is a conflict. The calls that fail do so for a reason of their own: a check, a connection.

SOURCE: src/lamto/maintenance/reporting.py:114-217
-/

set_option autoImplicit false

namespace LamTo.Analysis

open LamTo.Library LamTo.Model

variable {C : Type} [DecidableEq C]

/-- The report of a resident under a reference of the client is there once. -/
structure ReportsOnce (K : SubmitConfig) (s : SubmitState C) : Prop where
  atMostOne : ∀ resident ref pk qk a b, s.reports.committed.get? pk = some a →
    s.reports.committed.get? qk = some b → SubmitState.sameRef resident ref a = true →
    SubmitState.sameRef resident ref b = true → pk = qk
  oneCreated : ∀ resident ref pk a, s.reports.committed.get? pk = some a →
    SubmitState.sameRef resident ref a = true →
    ∃! c, ∃ request, s.phase c = .finished request (.returned pk true)
  answers : ∀ c request result, s.phase c = .finished request result →
    (∃ e, result = .failed e ∧ Unsubmitted K request e) ∨
      ∃ pk a, s.reports.committed.get? pk = some a ∧
        SubmitState.sameRef request.resident request.clientRef a = true ∧
        if contentMatches K a request then ∃ created, result = .returned pk created
        else result = .conflict
  fails : ∀ action t c request e, s.step K action = some t →
    s.phase c ≠ .finished request (.failed e) → t.phase c = .finished request (.failed e) →
    reportRow K s.premises request = .error e ∨ (TwinPhotos K request ∧ e = .integrity) ∨
      action = .disconnect c
  unchanged : ∀ action t, s.step K action = some t →
    (∀ pk, t.reports.committed.get? pk = s.reports.committed.get? pk) ∨
      (∃ c request pk, t.phase c = .finished request (.returned pk true) ∧
        ∀ result, s.phase c ≠ .finished request result) ∨
      ∃ row, action = .other row
  goesOn : ∀ c, InProgress (s.phase c) → ∃ d, CanGoOn K s d

/-- The photo of a report with one content is there once, and so is its version. -/
structure PhotosOnce (K : ArchiveConfig) (s : PhotoState C) : Prop where
  atMostOne : ∀ pk qk a b, s.photos.committed.get? pk = some a →
    s.photos.committed.get? qk = some b → a.report = b.report →
    a.contentSha = b.contentSha → pk = qk
  oneVersion : ∀ version sha, s.versions.committed.get? version = some sha →
    ∃! pk, ∃ photo, s.photos.committed.get? pk = some photo ∧ photo.version = version ∧
      photo.contentSha = sha
  hasVersion : ∀ pk photo, s.photos.committed.get? pk = some photo →
    s.versions.committed.get? photo.version = some photo.contentSha
  oneCreated : ∀ pk photo, s.photos.committed.get? pk = some photo →
    ∃! c, ∃ request, s.phase c = .finished request (.returned photo.version true)
  answers : ∀ c request result, s.phase c = .finished request result →
    (∃ pk version created, s.photos.committed.get? pk = some (photoOf K request version) ∧
        result = .returned version created) ∨
      result = .permissionDenied ∨ (∃ e, result = .refused e) ∨ result = .connection
  goesOn : ∀ c, Attaching (s.phase c) → ∃ d, PhotoCanGoOn K s d

theorem reportsOnce (K : SubmitConfig) (s : SubmitState C) (h : SubmitInv K s) :
    ReportsOnce K s where
  atMostOne := by
    intro resident ref pk qk a b ha hb hrefA hrefB
    exact h.once pk qk a b (.inl ha) (.inl hb) (sameReport_of_sameRef resident ref a b hrefA hrefB)
  oneCreated := by
    intro resident ref pk a ha href
    have hclient : a.clientRef ≠ none := by
      rw [((sameRef_iff resident ref a).mp href).2]
      exact Option.some_ne_none ref
    obtain ⟨c, request, hc⟩ := h.made pk a ha hclient
    refine ⟨c, ⟨request, hc⟩, ?_⟩
    rintro d ⟨r, hd⟩
    exact h.single d c r request pk hd hc
  answers := by
    intro c request result hphase
    have hanswer := h.phases c
    rw [hphase] at hanswer
    cases hanswer with
    | returned pk created row hrow hrequest =>
      exact .inr ⟨pk, row, hrow, hrequest.ref, by rw [if_pos hrequest.content]; exact ⟨_, rfl⟩⟩
    | conflict pk row hrow href hcontent =>
      exact .inr ⟨pk, row, hrow, href, by rw [hcontent]; exact rfl⟩
    | failed e he => exact .inl ⟨e, rfl, he⟩
  fails := fun action _ c request e hstep => h.failed_step action hstep c request e
  unchanged := by
    intro action t hstep
    by_cases hsame : ∀ pk, t.reports.committed.get? pk = s.reports.committed.get? pk
    · exact .inl hsame
    · obtain ⟨pk, hpk⟩ := not_forall.mp hsame
      exact .inr ((committed_step action hstep pk).resolve_left hpk)
  goesOn := h.progress

theorem photosOnce (K : ArchiveConfig) (s : PhotoState C) (h : PhotoInv K s) :
    PhotosOnce K s where
  atMostOne := by
    intro pk qk a b ha hb hreport hsha
    exact h.once pk qk a b (.inl ha) (.inl hb) ⟨hreport, hsha⟩
  oneVersion := by
    intro version sha hversion
    obtain ⟨pk, photo, hpk, hphoto, hsha⟩ := h.shown version sha hversion
    refine ⟨pk, ⟨photo, hpk, hphoto, hsha⟩, ?_⟩
    rintro qk ⟨other, hqk, hother, -⟩
    exact h.apart qk pk other photo hqk hpk (hother.trans hphoto.symm)
  hasVersion := h.stored
  oneCreated := by
    intro pk photo hphoto
    obtain ⟨c, request, hc⟩ := h.made pk photo hphoto
    refine ⟨c, ⟨request, hc⟩, ?_⟩
    rintro d ⟨r, hd⟩
    exact h.single d c r request photo.version hd hc
  answers := by
    intro c request result hphase
    have hanswer := h.phases c
    rw [hphase] at hanswer
    cases result with
    | returned version created =>
      obtain ⟨pk, hpk⟩ := hanswer
      exact .inl ⟨pk, version, created, hpk, rfl⟩
    | integrity => exact hanswer.elim
    | permissionDenied => exact .inr (.inl rfl)
    | refused e => exact .inr (.inr (.inl ⟨e, rfl⟩))
    | connection => exact .inr (.inr (.inr rfl))
  goesOn := h.progress

/-- **What is sent twice is there once**, in every interleaving of the calls. -/
theorem submitted_once (K : SubmitConfig) (A : ArchiveConfig) (premises : Premises)
    (livesIn : ℕ → ℕ → Bool) (s : SubmitState C) (p : PhotoState C)
    (hs : Reaches (SubmitState.step K) Always (.empty premises) s)
    (hp : Reaches (PhotoState.step A) Always (.empty livesIn) p) :
    ReportsOnce K s ∧ PhotosOnce A p :=
  ⟨reportsOnce K s (hs.preserves (SubmitInv K) (fun _ action _ hu _ hstep => hu.step action hstep)
      (submitInv_empty K premises)),
    photosOnce A p (hp.preserves (PhotoInv A) (fun _ action _ hu _ hstep => hu.step action hstep)
      (photoInv_empty A livesIn))⟩

/-! ## Two taps -/

def tapConfig : SubmitConfig where
  unicode := asciiUnicode
  photoSha _ := []

/-- One unit, in a building with one location. -/
def tapPremises : Premises where
  unitBuilding := Table.empty.insert 1
  buildingName _ := "A".toList
  occupies _ _ := true
  places := Table.empty.insert ⟨1, "Lift".toList, true, none⟩
  attachable _ _ _ := false

def tapRequest (text : Text) : SubmitRequest where
  resident := 7
  unit := some 1
  text := text
  location := some 1
  photos := []
  clientRef := 3
  isPrivate := false

/-- Two calls at once, the texts of which differ in a blank, and a third with another text. -/
def taps : List (SubmitAction ℕ) :=
  [.begin 0 (tapRequest "It jerks".toList), .begin 1 (tapRequest " It jerks".toList), .check 0,
    .insert 0, .finish 0, .check 1, .insert 1, .recover 1,
    .begin 2 (tapRequest "It is stuck".toList)]

def tapPhoto : PhotoRequest where
  resident := 7
  report := 1
  building := 1
  file := samplePdf 1

/-- Two uploads of the same bytes at once. -/
def photoTaps : List (PhotoAction ℕ) :=
  [.begin 0 tapPhoto, .begin 1 tapPhoto, .look 0, .look 1, .lock 0, .recheck 0, .create 0 none,
    .link 0, .finish 0, .lock 1, .recheck 1]

theorem submitted_once_taps :
    (∃ s : SubmitState ℕ, Reaches (SubmitState.step tapConfig) Always (.empty tapPremises) s ∧
      s.phase 0 = .finished (tapRequest "It jerks".toList) (.returned 1 true) ∧
      s.phase 1 = .finished (tapRequest " It jerks".toList) (.returned 1 false) ∧
      s.phase 2 = .finished (tapRequest "It is stuck".toList) .conflict ∧
      ReportsOnce tapConfig s) ∧
    ∃ p : PhotoState ℕ, Reaches (PhotoState.step sampleArchive) Always
        (.empty fun _ _ => true) p ∧
      p.versions.committed.rows.length = 1 ∧ PhotosOnce sampleArchive p := by
  obtain ⟨s, hs, hphases⟩ := exists_of_run (SubmitState.step tapConfig)
    (.empty tapPremises : SubmitState ℕ)
    (fun s => s.phase 0 = .finished (tapRequest "It jerks".toList) (.returned 1 true) ∧
      s.phase 1 = .finished (tapRequest " It jerks".toList) (.returned 1 false) ∧
      s.phase 2 = .finished (tapRequest "It is stuck".toList) .conflict) taps (by decide +kernel)
  obtain ⟨p, hp, hone⟩ := exists_of_run (PhotoState.step sampleArchive)
    (.empty fun _ _ => true : PhotoState ℕ)
    (fun p => p.versions.committed.rows.length = 1) photoTaps (by decide +kernel)
  have honce := submitted_once tapConfig sampleArchive tapPremises (fun _ _ => true) s p hs hp
  exact ⟨⟨s, hs, hphases.1, hphases.2.1, hphases.2.2, honce.1⟩, p, hp, hone, honce.2⟩

end LamTo.Analysis
