import LamTo.Analysis.ReportSteps

/-!
# Finished reports

A report is finished when it is declined, completed or closed. Every service that writes the
status of a report leaves a finished one alone, except for the closing of a completed one,
with two exceptions: `group_report` gives a report that joins a case the status of the case
without looking at its own, and `reply_information` puts the report back in review although
the work may have been completed since the question was asked.

`reports_stepped` says what a step may do to a report; `reopens` is the condition under which
a call takes a finished one up again.

SOURCE: src/lamto/maintenance/cases.py:19-21, 216-241, src/lamto/maintenance/triage.py:126-172
-/

set_option autoImplicit false

namespace LamTo.Analysis

open LamTo.Library LamTo.Model

/-! ## What a step may do to a report -/

/-- The report is there and finished. -/
def finished (db : Db) (report : ℕ) : Bool :=
  (db.reports.get? report).any fun r => r.status.terminal

/-- The call sets the status of this report whatever it was. -/
def rewrites (db : Db) (report : ℕ) : Command → Bool
  | .groupReport _ joining _ => joining = report && !attached db report
  | .replyInformation _ _ answered _ => answered = report
  | _ => false

/-- The status changes of a report that no call rewrites. -/
inductive ReportMove : ReportStatus → ReportStatus → Prop where
  | stay (s : ReportStatus) : ReportMove s s
  | change (s t : ReportStatus) (unfinished : s.terminal = false) : ReportMove s t
  | close : ReportMove .completed .closed

/-- A report before and after a step. -/
structure ReportStep (db : Db) (a : Command) (pk : ℕ) (r r' : IssueReport) : Prop where
  isPrivate_eq : r'.isPrivate = r.isPrivate
  building_eq : r'.building = r.building
  moved : rewrites db pk a = true ∨ ReportMove r.status r'.status

theorem ReportStep.refl (db : Db) (a : Command) (pk : ℕ) (r : IssueReport) :
    ReportStep db a pk r r := ⟨rfl, rfl, .inr (.stay _)⟩

/-- Every report is stepped, and a new one is submitted for a building. -/
def ReportsStepped (db : Db) (a : Command) (db' : Db) : Prop :=
  db.reports.Evolves db'.reports (ReportStep db a) fun r => r.status = .submitted ∧ 0 < r.building

/-- A write to a report, in these terms. -/
theorem ReportChange.stepped (db : Db) (pk : ℕ) (r r' : IssueReport) (a : Command)
    (h : ReportChange db pk r a r') : ReportStep db a pk r r' := by
  cases h with
  | kept => exact .refl db a pk r
  | reviewed hsubmitted => exact ⟨rfl, rfl, .inr (.change _ _ (by rw [hsubmitted]; rfl))⟩
  | grouped case operator hdetached => exact ⟨rfl, rfl, .inl (by simp [rewrites, hdetached])⟩
  | started _ _ _ hopen => exact ⟨rfl, rfl, .inr (.change _ _ hopen.unfinished)⟩
  | startedInView _ _ _ _ _ hopen => exact ⟨rfl, rfl, .inr (.change _ _ hopen.unfinished)⟩
  | completed _ _ _ _ _ hopen => exact ⟨rfl, rfl, .inr (.change _ _ hopen.unfinished)⟩
  | expired _ _ hcompleted => exact ⟨rfl, rfl, .inr (hcompleted ▸ .close)⟩
  | declined _ _ _ _ hunfinished => exact ⟨rfl, rfl, .inr (.change _ _ hunfinished)⟩
  | asked _ _ hunfinished => exact ⟨rfl, rfl, .inr (.change _ _ hunfinished)⟩
  | replied => exact ⟨rfl, rfl, .inl (decide_eq_true rfl)⟩
  | rated _ _ _ _ _ _ _ hcompleted => exact ⟨rfl, rfl, .inr (hcompleted ▸ .close)⟩
  | proposed _ _ _ hopen => exact ⟨rfl, rfl, .inr (.change _ _ hopen.unfinished)⟩

/-- **What a step may do to a finished report**, whichever service is called. -/
theorem reports_stepped (C : EvidenceConfig) (db db' : Db) (a : Command)
    (h : Db.step C db a = some db') : ReportsStepped db a db' :=
  (reports_changed C db db' a h).imp (fun pk r r' _ hchange => hchange.stepped db pk r r' a)
    fun _ hnew => hnew

/-! ## Runs -/

/-- The call takes a finished report up again, when it is accepted. -/
def reopens (db : Db) (a : Command) : Bool :=
  db.reports.rows.any fun r => r.2.status.terminal && rewrites db r.1 a

/-- The steps that leave finished reports alone. -/
def KeepsFinished (db : Db) (a : Command) : Prop := reopens db a = false

instance (db : Db) (a : Command) : Decidable (KeepsFinished db a) :=
  inferInstanceAs (Decidable (_ = _))

/-- A finished status is kept, or changes from completed to closed. -/
def TerminalMove (s t : ReportStatus) : Prop :=
  s.terminal = true → t = s ∨ (s = .completed ∧ t = .closed)

theorem TerminalMove.refl (s : ReportStatus) : TerminalMove s s := fun _ => .inl rfl

theorem TerminalMove.trans (s t u : ReportStatus) (h : TerminalMove s t) (k : TerminalMove t u) :
    TerminalMove s u := by
  intro hs
  rcases h hs with rfl | ⟨rfl, rfl⟩
  · exact k hs
  · rcases k rfl with rfl | ⟨hne, _⟩
    · exact .inr ⟨rfl, rfl⟩
    · cases hne

theorem ReportMove.terminal (s t : ReportStatus) (h : ReportMove s t) : TerminalMove s t := by
  intro hs
  cases h with
  | stay => exact .inl rfl
  | change _ _ hunfinished =>
    rw [hunfinished] at hs
    cases hs
  | close => exact .inr ⟨rfl, rfl⟩

/-- The finished reports of a state are finished in another, as far as they may change. -/
def FinishedKept (db db' : Db) : Prop :=
  ∀ pk r, db.reports.get? pk = some r →
    ∃ r', db'.reports.get? pk = some r' ∧ TerminalMove r.status r'.status

theorem finishedKept_step (C : EvidenceConfig) (db db' : Db) (a : Command)
    (hkeeps : KeepsFinished db a) (h : Db.step C db a = some db') : FinishedKept db db' := by
  intro pk r hr
  obtain ⟨r', hr', hstep⟩ := (reports_stepped C db db' a h).kept pk r hr
  refine ⟨r', hr', ?_⟩
  rcases hstep.moved with hrewrites | hmove
  · -- A report the call rewrites is not finished.
    intro hterminal
    have hnone := List.any_eq_false.mp hkeeps (pk, r) ((Table.get?_eq_some _ _ _).mp hr)
    simp [hterminal, hrewrites] at hnone
  · exact hmove.terminal

/-- **Finished reports stay finished**, along every run that does not reopen one: declined and
closed reports keep their status, a completed one keeps it or is closed. -/
theorem finished_reports_stay (C : EvidenceConfig) (db db' : Db)
    (hrun : Reaches (Db.step C) KeepsFinished db db') (report : ℕ) (row : IssueReport)
    (hrow : db.reports.get? report = some row) (hterminal : row.status.terminal = true) :
    ∃ row', db'.reports.get? report = some row' ∧ row'.status.terminal = true ∧
      (row'.status = row.status ∨ (row.status = .completed ∧ row'.status = .closed)) := by
  have hkept : FinishedKept db db' := by
    refine hrun.monotone (fun _ => True) FinishedKept ?_ ?_ (fun _ _ _ _ _ _ => trivial)
      (fun u a v _ hok h => finishedKept_step C u v a hok h) trivial
    · exact fun u pk r hr => ⟨r, hr, .refl _⟩
    · intro u v w huv hvw pk r hr
      obtain ⟨r', hr', hmove⟩ := huv pk r hr
      obtain ⟨r'', hr'', hmove'⟩ := hvw pk r' hr'
      exact ⟨r'', hr'', hmove.trans _ _ _ hmove'⟩
  obtain ⟨row', hrow', hmove⟩ := hkept report row hrow
  have hchange := hmove hterminal
  refine ⟨row', hrow', ?_, hchange⟩
  rcases hchange with hsame | ⟨_, hclosed⟩
  · rw [hsame]
    exact hterminal
  · rw [hclosed]
    rfl

/-! ## A question answered after the work -/

/-- A building with a manager and a resident, and a report of the resident with its case. -/
def openedCase (isPrivate : Bool) : List Command :=
  [.createBuilding, .createMembership 7 1, .createOccupancy 8 1, .createLocation ⟨1, none, true⟩,
    .submitReport 8 1 isPrivate,
    .confirmTriage 1000 1 7 (.str "Lift".toList) (.str "LOW".toList) 1 (.str "General".toList)
      (.int 60)]

/-- The manager asks, and the work is started and completed before the resident answers. -/
def completedWithQuestion : List Command :=
  openedCase false ++ [.requestInformation 1 7 "Which floor?".toList, .startCaseWork 2000 1 7,
    .completeCaseWork 3000 1 7 "Worn cable".toList "Replaced".toList]

/-- The status of the report. -/
def reportStatus (db : Db) (report : ℕ) : Option ReportStatus :=
  (db.reports.get? report).map (·.status)

/-- A completed report that its reporter rates is closed. -/
theorem finished_reports_stay_rated : ∃ db db' : Db, db.Reachable sampleConfig ∧
    Reaches (Db.step sampleConfig) KeepsFinished db db' ∧ reportStatus db 1 = some .completed ∧
    ∃ row', db'.reports.get? 1 = some row' ∧ row'.status.terminal = true := by
  obtain ⟨db, hreach, hstatus, hrated⟩ := exists_of_run (Db.step sampleConfig) Db.empty
    (fun db => reportStatus db 1 = some .completed ∧
      (run (guarded (Db.step sampleConfig) KeepsFinished) db
        [.rateCompletedCase 4000 8 1 (.bool true) .none]).isSome = true)
    completedWithQuestion (by decide +kernel)
  obtain ⟨db', hdb'⟩ := Option.isSome_iff_exists.mp hrated
  have hrun := Reaches.of_guarded (reaches_of_run _ hdb')
  obtain ⟨row, hrow, hcompleted⟩ := Option.map_eq_some_iff.mp hstatus
  obtain ⟨row', hrow', hterminal, _⟩ := finished_reports_stay sampleConfig db db' hrun 1 row hrow
    (by rw [hcompleted]; rfl)
  exact ⟨db, db', hreach, hrun, hstatus, row', hrow', hterminal⟩

/-- The answer puts the completed report back in review. -/
theorem finished_report_reopened : ∃ db db' : Db, db.Reachable sampleConfig ∧
    Db.step sampleConfig db (.replyInformation 4000 8 1 "The second".toList) = some db' ∧
    reportStatus db 1 = some .completed ∧ reportStatus db' 1 = some .inReview := by
  obtain ⟨db, hreach, hstatus, hreply⟩ := exists_of_run (Db.step sampleConfig) Db.empty
    (fun db => reportStatus db 1 = some .completed ∧
      (Db.step sampleConfig db (.replyInformation 4000 8 1 "The second".toList)).any
        (fun db' => reportStatus db' 1 = some .inReview) = true)
    completedWithQuestion (by decide +kernel)
  obtain ⟨db', hstep, hreview⟩ := (Option.any_eq_true _ _).mp hreply
  exact ⟨db, db', hreach, hstep, hstatus, of_decide_eq_true hreview⟩

end LamTo.Analysis
