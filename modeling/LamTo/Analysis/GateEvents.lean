import LamTo.Analysis.GateSteps
import LamTo.Analysis.PlateLetters

/-!
# What the gate lets in, and what it records

In every run of residents, managers and readers:

* a plate is approved for one row of a building at most, and a manager of that building has
  approved it;
* a reading finds that row, when its occupancy is active, and nothing otherwise;
* a reading of a face names the best of the building's faces, or nobody;
* an event that names a plate names a row that stands, with its text and its occupancy, and an
  event never names an occupancy of another building.

SOURCE: src/lamto/gate/{recognition,matching,enrollment,review}.py
-/

set_option autoImplicit false

namespace LamTo.Analysis

open LamTo.Library LamTo.Model

variable {C : Type} [DecidableEq C]

/-! ## A gate with one reader -/

/-- One building with a reader at its entry; a face is compared by its bytes. -/
def sampleGate : ReaderConfig where
  folding := vietnameseFolding
  homeBuilding _ := 1
  displayName _ := []
  unitLabel _ := []
  reader _ := ⟨1, .entry⟩
  manager m := ⟨m, 1⟩
  faceCalibrated := true
  faceMatchThreshold := 1 / 2
  eventRetention := 24
  embed image := if image = [] then none else some ⟨image, [], []⟩
  unitable _ := true
  candidateScore probe candidate := .ok (if candidate = [] then none else
    some (if candidate = probe then 1 else 0))

/-- A plate is submitted, approved and read. -/
def sampleGateRun : List (ReadingAction ℕ) :=
  [.submit 0 5 (some "51F-123.45".toList), .next 0, .next 0, .setManages 3 true, .find 1 3 1,
    .approve 1, .next 1, .setActive 5 true, .readPlate 2 7 (some "51f 123 45".toList), .next 2]

/-! ## Plates -/

omit [DecidableEq C] in
/-- Two rows that a building has approved for a text are one. -/
theorem approved_unique {K : ReaderConfig} {owner : ℕ → ℕ × Text} {s : ReadingState C}
    (h : GateInv K owner s) (p q : ℕ) (a b : VehiclePlate) (ha : s.plates.get? p = some a)
    (hb : s.plates.get? q = some b) (hplate : a.plate = b.plate) (hastatus : a.status = .approved)
    (hbstatus : b.status = .approved)
    (hhome : K.homeBuilding a.occupancy = K.homeBuilding b.occupancy) : p = q := by
  refine h.apart p q a b ha hb ?_
  have hbuilding : a.building = b.building := by
    rw [(h.rows p a ha).home, (h.rows q b hb).home, hhome]
  simp only [VehiclePlate.clashes, Bool.or_eq_true, Bool.and_eq_true, decide_eq_true_eq]
  exact .inr ⟨⟨⟨hastatus, hbstatus⟩, hbuilding⟩, hplate⟩

/-- **A plate belongs to one row, and a manager has approved it.** Every row is in the building of
its occupancy and has a normal text; an approved one has been decided on by a manager of that
building; an occupancy has one row for a text, and a building one approved row. -/
theorem plates_held (K : ReaderConfig) (now : ℕ) (s : ReadingState C)
    (h : Reaches (ReadingState.step K) Always (ReadingState.empty now) s) :
    (∀ pk row, s.plates.get? pk = some row → row.building = K.homeBuilding row.occupancy ∧
      (∃ raw, normalizePlate K.folding raw = .ok row.plate) ∧
      (row.status = .approved → ∃ m, row.reviewedBy = some (K.manager m).user ∧
        (K.manager m).building = row.building)) ∧
    ∀ p q a b, s.plates.get? p = some a → s.plates.get? q = some b → a.plate = b.plate →
      (a.occupancy = b.occupancy ∨
        (a.status = .approved ∧ b.status = .approved ∧ a.building = b.building)) → p = q := by
  obtain ⟨owner, hinv⟩ := gateInv_of_reaches now h
  refine ⟨fun pk row hrow => ?_, fun p q a b ha hb hplate hsame => ?_⟩
  · have hfits := hinv.rows pk row hrow
    exact ⟨hfits.home, hfits.normal, hfits.approved⟩
  · rcases hsame with hoccupancy | ⟨hastatus, hbstatus, hbuilding⟩
    · refine hinv.apart p q a b ha hb ?_
      simp only [VehiclePlate.clashes, Bool.or_eq_true, Bool.and_eq_true, decide_eq_true_eq]
      exact .inl ⟨hoccupancy, hplate⟩
    · refine approved_unique hinv p q a b ha hb hplate hastatus hbstatus ?_
      rw [← (hinv.rows p a ha).home, ← (hinv.rows q b hb).home, hbuilding]

/-- The approved plate of the sample run has the manager who approved it. -/
theorem plates_held_approved : ∃ s : ReadingState ℕ,
    Reaches (ReadingState.step sampleGate) Always (ReadingState.empty 0) s ∧
      ∃ row m, s.plates.get? 1 = some row ∧ row.reviewedBy = some (sampleGate.manager m).user := by
  obtain ⟨s, hreach, hstatus⟩ := exists_of_run (ReadingState.step sampleGate) (ReadingState.empty 0)
    (fun s => (s.plates.get? 1).map VehiclePlate.status = some .approved) sampleGateRun
    (by decide +kernel)
  obtain ⟨row, hrow, happroved⟩ := Option.map_eq_some_iff.mp hstatus
  obtain ⟨m, hm, -⟩ := ((plates_held sampleGate 0 s hreach).1 1 row hrow).2.2 happroved
  exact ⟨s, hreach, row, m, hrow, hm⟩

/-! ## Readings -/

/-- **A reading is exact.** In every state that is reached, a text that is no plate ends the
call; another one finds a row if and only if that row is approved for the plate in the building of
the reader and its occupancy is active, and there is one such row at most. -/
theorem read_plate_exact (K : ReaderConfig) (now : ℕ) (s t : ReadingState C)
    (h : Reaches (ReadingState.step K) Always (ReadingState.empty now) s) (c : C) (device : ℕ)
    (raw : Option Text) (ht : s.step K (.readPlate c device raw) = some t) :
    (∃ message, normalizePlate K.folding raw = .error message ∧
      t.phase c = .finished (.plateFormat message)) ∨
    ∃ plate found, normalizePlate K.folding raw = .ok plate ∧
      t.phase c = .sawPlate device raw plate found ∧
      ∀ pk row, found = some (pk, row) ↔ s.plates.get? pk = some row ∧ row.plate = plate ∧
        row.status = .approved ∧ K.homeBuilding row.occupancy = (K.reader device).building ∧
        s.active row.occupancy = true := by
  obtain ⟨owner, hinv⟩ := gateInv_of_reaches now h
  simp only [ReadingState.step] at ht
  split at ht
  · cases ht
    unfold ReadingState.readPlate
    cases hplate : normalizePlate K.folding raw with
    | error message => exact .inl ⟨message, rfl, Function.update_self _ _ _⟩
    | ok plate =>
      refine .inr ⟨plate, _, rfl, Function.update_self _ _ _, fun pk row => ?_⟩
      -- What the query asks of a row that stands.
      have hasks : ∀ q a, s.plates.get? q = some a →
          ((decide (a.building = (K.reader device).building) && decide (a.plate = plate) &&
            decide (a.status = .approved) && s.active a.occupancy) = true ↔
          a.plate = plate ∧ a.status = .approved ∧
            K.homeBuilding a.occupancy = (K.reader device).building ∧
            s.active a.occupancy = true) := by
        intro q a ha
        simp only [Bool.and_eq_true, decide_eq_true_eq, (hinv.rows q a ha).home]
        tauto
      constructor
      · intro hfound
        obtain ⟨hrow, hkind⟩ := s.plates.first?_eq_some _ pk row hfound
        exact ⟨hrow, (hasks pk row hrow).mp hkind⟩
      · rintro ⟨hrow, hkind⟩
        refine s.plates.first?_eq_of_unique _ pk row hrow ((hasks pk row hrow).mpr hkind) ?_
        intro q a ha hother
        obtain ⟨hplate', hstatus', hbuilding', -⟩ := (hasks q a ha).mp hother
        exact approved_unique hinv q pk a row ha hrow (hplate'.trans hkind.1.symm) hstatus'
          hkind.2.1 (hbuilding'.trans hkind.2.2.1.symm)
  · cases ht

/-- The key of the row that a reading has found. -/
def foundPlate : ReadingPhase → Option ℕ
  | .sawPlate _ _ _ found => found.map Prod.fst
  | _ => none

/-- The approved plate of the sample run is found, written in another way. -/
theorem read_plate_exact_found : ∃ s t : ReadingState ℕ,
    Reaches (ReadingState.step sampleGate) Always (ReadingState.empty 0) s ∧
      s.step sampleGate (.readPlate 2 7 (some "51f 123 45".toList)) = some t ∧
      ∃ plate row, t.phase 2 = .sawPlate 7 (some "51f 123 45".toList) plate (some (1, row)) ∧
        s.plates.get? 1 = some row ∧ row.status = .approved := by
  obtain ⟨s, hreach, hfound⟩ := exists_of_run (ReadingState.step sampleGate) (ReadingState.empty 0)
    (fun s => (s.step sampleGate (.readPlate 2 7 (some "51f 123 45".toList))).bind
      (fun t => foundPlate (t.phase 2)) = some 1) (sampleGateRun.take 8) (by decide +kernel)
  obtain ⟨t, ht, hfound⟩ := Option.bind_eq_some_iff.mp hfound
  refine ⟨s, t, hreach, ht, ?_⟩
  rcases read_plate_exact sampleGate 0 s t hreach 2 7 _ ht with
    ⟨message, -, hphase⟩ | ⟨plate, found, -, hphase, hrows⟩
  · rw [hphase] at hfound
    cases hfound
  · rw [hphase] at hfound
    obtain ⟨⟨pk, row⟩, rfl, hpk⟩ := Option.map_eq_some_iff.mp hfound
    obtain rfl : pk = 1 := hpk
    obtain ⟨hrow, -, hstatus, -⟩ := (hrows 1 row).mp rfl
    exact ⟨plate, row, hphase, hrow, hstatus⟩

/-! ## Events -/

/-- **An event names what stands.** Its building is that of the reader and of the occupancy it
names; a plate it names has a row, with its text, its occupancy and its building. -/
theorem plate_events_named (K : ReaderConfig) (now : ℕ) (s : ReadingState C)
    (h : Reaches (ReadingState.step K) Always (ReadingState.empty now) s) (pk : ℕ) (e : GateEvent)
    (he : s.events.get? pk = some e) :
    e.building = (K.reader e.device).building ∧
    (∀ occupancy, e.matchedOccupancy = some occupancy → K.homeBuilding occupancy = e.building) ∧
    ∀ plate, e.matchedPlate = some plate → ∃ row, s.plates.get? plate = some row ∧
      e.matchedOccupancy = some row.occupancy ∧ e.normalizedPlateText = row.plate ∧
      e.building = row.building := by
  obtain ⟨owner, hinv⟩ := gateInv_of_reaches now h
  have hfits := hinv.events pk e he
  refine ⟨hfits.read, hfits.home, fun plate hplate => ?_⟩
  obtain ⟨hsome, hmatched, htext⟩ := hfits.named plate hplate
  obtain ⟨row, hrow⟩ := Option.isSome_iff_exists.mp hsome
  have hrowFits := hinv.rows plate row hrow
  rw [hrowFits.owned] at hmatched htext
  exact ⟨row, hrow, hmatched, htext, (hfits.home _ hmatched).symm.trans hrowFits.home.symm⟩

/-- The event of the sample run names the row of the plate that was read. -/
theorem plate_events_named_recorded : ∃ s : ReadingState ℕ,
    Reaches (ReadingState.step sampleGate) Always (ReadingState.empty 0) s ∧
      ∃ e row, s.events.get? 1 = some e ∧ s.plates.get? 1 = some row ∧
        e.matchedOccupancy = some row.occupancy := by
  obtain ⟨s, hreach, hplate⟩ := exists_of_run (ReadingState.step sampleGate) (ReadingState.empty 0)
    (fun s => (s.events.get? 1).bind GateEvent.matchedPlate = some 1) sampleGateRun
    (by decide +kernel)
  obtain ⟨e, he, hplate⟩ := Option.bind_eq_some_iff.mp hplate
  obtain ⟨row, hrow, hmatched, -⟩ := (plate_events_named sampleGate 0 s hreach 1 e he).2.2 1 hplate
  exact ⟨s, hreach, e, row, he, hrow, hmatched⟩

/-! ## Faces -/

/-- **The best face of the building is let in, or nobody.** Whatever order the enrolments come in,
the occupancy that a reading names has an approved enrolment of the reader's building and of the
model of the probe, is active, and has a score that reaches the threshold and is the highest; when
none is named, no such enrolment has a score above the start of the scan that reaches it. -/
theorem face_match_best (K : ReaderConfig) (s t : ReadingState C) (c : C) (device : ℕ)
    (image : List UInt8) (order : List (ℕ × FaceEnrollment)) (result : EmbeddingResult)
    (found : FaceMatch) (ht : s.step K (.readFace c device image order) = some t)
    (hphase : t.phase c = .sawFace device result found) :
    K.embed image = some result ∧
    (∀ occupancy, found.occupancy = some occupancy → K.faceMatchThreshold ≤ found.score ∧
      ∃ pk row, s.faces.get? pk = some row ∧ row.occupancy = occupancy ∧
        isFaceCandidate K s.active (K.reader device).building result row = true ∧
        K.candidateScore result.vector (row.embedding.getD []) = .ok (some found.score)) ∧
    ∀ pk row score, s.faces.get? pk = some row →
      isFaceCandidate K s.active (K.reader device).building result row = true →
      K.candidateScore result.vector (row.embedding.getD []) = .ok (some score) →
      (found.occupancy ≠ none → score ≤ found.score) ∧
        (found.occupancy = none → score ≤ -1 ∨ score < K.faceMatchThreshold) := by
  simp only [ReadingState.step] at ht
  split at ht
  · obtain ⟨hembed, horder, hmatch⟩ := readFace_sawFace c device image order result found ht hphase
    -- The rows of the loop are the candidates of the table.
    have hrows : ∀ row, row ∈ order.map Prod.snd ↔ ∃ pk, s.faces.get? pk = some row ∧
        isFaceCandidate K s.active (K.reader device).building result row = true := by
      intro row
      simp only [List.mem_map, horder.mem_iff, Prod.exists, Table.mem_select, exists_eq_right]
    refine ⟨hembed, fun occupancy hfound => ?_, fun pk row score hrow hcandidate hscore => ?_⟩
    · obtain ⟨hthreshold, ⟨row, hrow, howner, hscore⟩, -⟩ :=
        matchFace_some result.vector _ found occupancy hmatch hfound
      obtain ⟨pk, hpk, hcandidate⟩ := (hrows row).mp hrow
      exact ⟨hthreshold, pk, row, hpk, howner, hcandidate, hscore⟩
    · have hmem := (hrows row).mpr ⟨pk, hrow, hcandidate⟩
      refine ⟨fun hfound => ?_, fun hnone => ?_⟩
      · obtain ⟨occupancy, hoccupancy⟩ := Option.ne_none_iff_exists'.mp hfound
        exact (matchFace_some result.vector _ found occupancy hmatch hoccupancy).2.2 row hmem
          score hscore
      · exact matchFace_none result.vector _ found hmatch hnone row hmem score hscore
  · cases ht

/-- The reader of a face, and the occupancy that was found. -/
def foundFace : ReadingPhase → Option (ℕ × ℕ)
  | .sawFace device _ found => found.occupancy.map fun occupancy => (device, occupancy)
  | _ => none

/-- An approved enrolment. -/
def sampleFace (occupancy : ℕ) (embedding : List UInt8) : FaceEnrollment :=
  ⟨occupancy, some embedding, [], [], .approved, 0, none, none, []⟩

/-- Of two faces the gate lets the one in that is like the probe, though it comes second. -/
theorem face_match_best_second : ∃ s t : ReadingState ℕ,
    s.step sampleGate (.readFace 0 7 [1] [(1, sampleFace 5 [2]), (2, sampleFace 6 [1])]) = some t ∧
      ∃ result found, t.phase 0 = .sawFace 7 result found ∧ found.occupancy = some 6 ∧
        sampleGate.faceMatchThreshold ≤ found.score := by
  obtain ⟨s, -, hfound⟩ := exists_of_run (ReadingState.step sampleGate) (ReadingState.empty 0)
    (fun s => (s.step sampleGate
        (.readFace 0 7 [1] [(1, sampleFace 5 [2]), (2, sampleFace 6 [1])])).bind
      (fun t => foundFace (t.phase 0)) = some (7, 6))
    [.setFaces ((Table.empty.insert (sampleFace 5 [2])).insert (sampleFace 6 [1])),
      .setActive 5 true, .setActive 6 true] (by decide +kernel)
  obtain ⟨t, ht, hfound⟩ := Option.bind_eq_some_iff.mp hfound
  refine ⟨s, t, ht, ?_⟩
  cases hphase : t.phase 0 with
  | sawFace device result found =>
    rw [hphase] at hfound
    obtain ⟨occupancy, hoccupancy, heq⟩ := Option.map_eq_some_iff.mp hfound
    cases heq
    obtain ⟨-, hsome, -⟩ := face_match_best sampleGate s t 0 7 [1] _ result found ht hphase
    exact ⟨result, found, rfl, hoccupancy, (hsome 6 hoccupancy).1⟩
  | _ =>
    rw [hphase] at hfound
    cases hfound

end LamTo.Analysis
