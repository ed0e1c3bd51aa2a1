import LamTo.Analysis.FaceMatches
import LamTo.Analysis.PlateRows

/-!
# Steps at the gate

Every statement of a call keeps `GateInv`, under an assignment of keys that an insertion extends
by the key it draws. Two of the calls write over what others have done since they read:

* a submission saves the rejected row it found, in full; it is the row of that key, so that its
  owner and its text are what they were, and it is not approved after it;
* a decision writes its own columns over the row as it is now, which is of the building of the
  manager, as the row he was shown was.

SOURCE: src/lamto/gate/{recognition,matching,enrollment,review}.py
-/

set_option autoImplicit false

namespace LamTo.Analysis

open LamTo.Library LamTo.Model

variable {C : Type} [DecidableEq C] {K : ReaderConfig} {owner : ℕ → ℕ × Text}
  {s t : ReadingState C}

/-! ## Plates of residents -/

theorem gateInv_submit (h : GateInv K owner s) (c : C) (occupancy : ℕ) (raw : Option Text) :
    GateInv K owner (s.submit K c occupancy raw) := by
  unfold ReadingState.submit
  split
  · exact h.finish c _
  · next plate hplate =>
    split
    · exact h.finish c _
    · exact h.move c _ ⟨raw, hplate⟩

omit [DecidableEq C] in
theorem readRow_of_get? (h : GateInv K owner s) (pk : ℕ) (row : VehiclePlate)
    (hrow : s.plates.get? pk = some row) : ReadRow K owner s.plates.next pk row :=
  ⟨s.plates.pos_of_get? pk row hrow, s.plates.lt_next_of_get? pk row hrow, h.rows pk row hrow⟩

theorem gateInv_lookup (h : GateInv K owner s) (c : C) (occupancy : ℕ) (plate : Text)
    (missing : ReadingPhase) (hmissing : PhaseFits K owner s.plates.next missing) :
    GateInv K owner (s.lookup c occupancy plate missing) := by
  unfold ReadingState.lookup
  split
  · next pk row hfind =>
    unfold ReadingState.found
    split
    · exact h.move c _ (readRow_of_get? h pk row (s.plates.first?_eq_some _ pk row hfind).1)
    · exact h.finish c _
  · exact h.move c missing hmissing

/-- A new row extends the assignment by its key. -/
theorem gateInv_create (h : GateInv K owner s) (c : C) (occupancy : ℕ) (plate : Text)
    (hplate : IsNormalPlate K plate) :
    ∃ owner', GateInv K owner' (s.create K c occupancy plate) := by
  unfold ReadingState.create
  dsimp only
  split
  · next hallows =>
    refine ⟨Function.update owner s.plates.next (occupancy, plate), ?_⟩
    refine h.put _ c s.plates.next _ _ _ (fun q => ?_) (Nat.le_succ _) ?_ ?_ hallows
    · rw [Table.get?_insert]
    · intro q hq
      exact Function.update_of_ne (Nat.ne_of_lt hq) _ _
    · refine ⟨Function.update_self _ _ _, rfl, hplate, fun hstatus => ?_⟩
      cases hstatus
  · exact ⟨owner, h.move c _ hplate⟩

theorem plateFits_reopened {pk : ℕ} {row : VehiclePlate} (now : ℕ) (h : PlateFits K owner pk row) :
    PlateFits K owner pk (ReadingState.reopened now row) :=
  ⟨h.owned, h.home, h.normal, fun hstatus => by cases hstatus⟩

theorem gateInv_reopen (h : GateInv K owner s) (c : C) (pk : ℕ) (row : VehiclePlate)
    (hread : ReadRow K owner s.plates.next pk row) : GateInv K owner (s.reopen c pk row) := by
  have hrow := plateFits_reopened s.now hread.fits
  unfold ReadingState.reopen
  dsimp only
  split
  · exact h.finish c _
  · next hallows =>
    have hallows : platesAdmit s.plates pk (ReadingState.reopened s.now row) = true := by
      simpa only [Bool.not_eq_true', Bool.not_eq_false] using hallows
    split
    · next hfree =>
      exact h.put owner c pk _ _ _ (Table.get?_insertAt _ _ _ _) (le_max_left _ _)
        (fun _ _ => rfl) hrow hallows
    · next hstands =>
      refine h.overwrite c pk _ _ ?_ hrow hallows
      rw [Option.isSome_iff_exists]
      by_contra hnone
      refine hstands ⟨hread.positive, fun r hr hkey => hnone ⟨r.2, ?_⟩⟩
      rw [Table.get?_eq_some, ← hkey]
      exact hr

/-! ## Decisions -/

theorem gateInv_find (h : GateInv K owner s) (c : C) (m pk : ℕ) :
    GateInv K owner (s.find K c m pk) := by
  unfold ReadingState.find
  split
  · split
    · next row hrow =>
      split
      · next hhome => exact h.move c _ ⟨readRow_of_get? h pk row hrow, hhome.symm⟩
      · exact h.finish c _
    · exact h.finish c _
  · exact h.finish c _

theorem gateInv_approve (h : GateInv K owner s) (c : C) (m pk : ℕ) (row : VehiclePlate)
    (hread : ReadRow K owner s.plates.next pk row ∧ (K.manager m).building = row.building) :
    GateInv K owner (s.approve c m pk row) := by
  unfold ReadingState.approve
  split
  · exact h.finish c _
  · split
    · exact h.finish c _
    · exact h.move c _ hread

/-- **A decision on the row as it is now**: the manager who read the row is of its building. -/
theorem gateInv_decide (h : GateInv K owner s) (c : C) (m pk : ℕ) (row : VehiclePlate)
    (status : ReviewStatus) (note : Text) (hread : ReadRow K owner s.plates.next pk row)
    (hm : (K.manager m).building = row.building) :
    GateInv K owner (s.decide K c m pk status note) := by
  unfold ReadingState.decide
  split
  · exact h.finish c _
  · next now hnow =>
    dsimp only
    split
    · exact h.finish c _
    · split
      · next hallows =>
        have hfits := h.rows pk now hnow
        have hsame : now.occupancy = row.occupancy :=
          congrArg Prod.fst (hfits.owned.symm.trans hread.fits.owned)
        have hbuilding : (K.manager m).building = now.building := by
          rw [hm, hread.fits.home, ← hsame, ← hfits.home]
        refine h.overwrite c pk _ _ (by rw [hnow]; rfl) ?_ hallows
        exact ⟨hfits.owned, hfits.home, hfits.normal, fun _ => ⟨m, rfl, hbuilding⟩⟩
      · exact h.finish c _

theorem gateInv_reject (h : GateInv K owner s) (c : C) (m pk : ℕ) (row : VehiclePlate)
    (note : Option Text)
    (hread : ReadRow K owner s.plates.next pk row ∧ (K.manager m).building = row.building) :
    GateInv K owner (s.reject K c m pk note) := by
  unfold ReadingState.reject
  dsimp only
  split
  · exact h.finish c _
  · exact gateInv_decide h c m pk row _ _ hread.1 hread.2

/-! ## Recognitions -/

theorem gateInv_readPlate (h : GateInv K owner s) (c : C) (device : ℕ) (raw : Option Text) :
    GateInv K owner (s.readPlate K c device raw) := by
  unfold ReadingState.readPlate
  split
  · exact h.finish c _
  · next normalized hnormal =>
    refine h.move c _ fun pk row hfound => ?_
    obtain ⟨hrow, hkind⟩ := s.plates.first?_eq_some _ pk row hfound
    simp only [Bool.and_eq_true, decide_eq_true_eq] at hkind
    exact ⟨readRow_of_get? h pk row hrow, hkind.1.1.1, hkind.1.1.2⟩

theorem gateInv_readFace (h : GateInv K owner s) (c : C) (device : ℕ) (image : List UInt8)
    (order : List (ℕ × FaceEnrollment)) (ht : s.readFace K c device image order = some t) :
    GateInv K owner t := by
  unfold ReadingState.readFace at ht
  split at ht
  · split at ht
    · cases ht
      exact h.finish c _
    · next result hresult =>
      split at ht
      · next horder =>
        split at ht
        · cases ht
          exact h.finish c _
        · next found hfound =>
          cases ht
          refine h.move c _ fun occupancy hoccupancy => ?_
          obtain ⟨-, ⟨row, hmem, hrow, -⟩, -⟩ :=
            matchFace_some result.vector _ found occupancy hfound hoccupancy
          obtain ⟨r, hr, rfl⟩ := List.mem_map.mp hmem
          have hcandidate := ((Table.mem_select _ _ r.1 r.2).mp (horder.mem_iff.mp hr)).2
          simp only [isFaceCandidate, Bool.and_eq_true, decide_eq_true_eq] at hcandidate
          rw [← hrow]
          exact hcandidate.2
      · cases ht
  · cases ht
    exact h.finish c _

/-- The event of a plate names the row that was found. -/
theorem gateInv_recordPlate (h : GateInv K owner s) (c : C) (device : ℕ) (raw : Option Text)
    (normalized : Text) (found : Option (ℕ × VehiclePlate))
    (hfound : PhaseFits K owner s.plates.next (.sawPlate device raw normalized found)) :
    GateInv K owner
      (s.record K c (ReadingState.plateEvent K s.now device raw normalized found)) := by
  refine h.log c _ fun hplate => ?_
  cases found with
  | none =>
    refine ⟨rfl, fun occupancy hoccupancy => ?_, fun pk hpk => ?_⟩
    · cases hoccupancy
    · cases hpk
  | some r =>
    obtain ⟨pk, row⟩ := r
    obtain ⟨hread, hbuilding, htext⟩ := hfound pk row rfl
    refine ⟨rfl, fun occupancy hoccupancy => ?_, fun q hq => ?_⟩
    · cases hoccupancy
      exact hread.fits.home.symm.trans hbuilding
    · cases hq
      rw [hread.fits.owned]
      exact ⟨hplate, rfl, htext.symm⟩

theorem gateInv_recordFace (h : GateInv K owner s) (c : C) (device : ℕ) (result : EmbeddingResult)
    (found : FaceMatch)
    (hfound : PhaseFits K owner s.plates.next (.sawFace device result found)) :
    GateInv K owner (s.record K c (ReadingState.faceEvent K s.now device result found)) :=
  h.log c _ fun _ => ⟨rfl, hfound, fun pk hpk => by cases hpk⟩

/-! ## Runs -/

theorem gateInv_next (h : GateInv K owner s) (c : C) (ht : s.next K c = some t) :
    ∃ owner', GateInv K owner' t := by
  have hphase := h.phases c
  unfold ReadingState.next at ht
  split at ht
  · next occupancy plate hc =>
    rw [hc] at hphase
    cases ht
    exact ⟨owner, gateInv_lookup h c occupancy plate _ hphase⟩
  · next occupancy plate hc =>
    rw [hc] at hphase
    cases ht
    exact gateInv_create h c occupancy plate hphase
  · next occupancy plate hc =>
    cases ht
    exact ⟨owner, gateInv_lookup h c occupancy plate _ trivial⟩
  · next pk row hc =>
    rw [hc] at hphase
    cases ht
    exact ⟨owner, gateInv_reopen h c pk row hphase⟩
  · next m pk row hc =>
    rw [hc] at hphase
    cases ht
    exact ⟨owner, gateInv_decide h c m pk row _ _ hphase.1 hphase.2⟩
  · next device raw normalized found hc =>
    rw [hc] at hphase
    cases ht
    exact ⟨owner, gateInv_recordPlate h c device raw normalized found hphase⟩
  · next device result found hc =>
    rw [hc] at hphase
    cases ht
    exact ⟨owner, gateInv_recordFace h c device result found hphase⟩
  · cases ht

/-- **Every step keeps the invariant**, under an assignment of the keys drawn by then. -/
theorem gateInv_step (a : ReadingAction C) (h : GateInv K owner s) (ht : s.step K a = some t) :
    ∃ owner', GateInv K owner' t := by
  cases a with
  | tick elapsed =>
    cases ht
    exact ⟨owner, h.rows, h.apart, h.events, h.phases⟩
  | setActive occupancy active =>
    cases ht
    exact ⟨owner, h.rows, h.apart, h.events, h.phases⟩
  | setManages membership active =>
    cases ht
    exact ⟨owner, h.rows, h.apart, h.events, h.phases⟩
  | setFaces faces =>
    cases ht
    exact ⟨owner, h.rows, h.apart, h.events, h.phases⟩
  | purge =>
    cases ht
    refine ⟨owner, h.rows, h.apart, fun pk e he => ?_, h.phases⟩
    exact h.events pk e ((Table.get?_remove _ _ _ _).mp he).1
  | revoke occupancy pk =>
    cases ht
    exact ⟨owner, h.drop occupancy pk⟩
  | submit c occupancy raw =>
    simp only [ReadingState.step] at ht
    split at ht
    · cases ht
      exact ⟨owner, gateInv_submit h c occupancy raw⟩
    · cases ht
  | find c m pk =>
    simp only [ReadingState.step] at ht
    split at ht
    · cases ht
      exact ⟨owner, gateInv_find h c m pk⟩
    · cases ht
  | approve c =>
    have hphase := h.phases c
    simp only [ReadingState.step] at ht
    split at ht
    · next m pk row hc =>
      rw [hc] at hphase
      cases ht
      exact ⟨owner, gateInv_approve h c m pk row hphase⟩
    · cases ht
  | reject c note =>
    have hphase := h.phases c
    simp only [ReadingState.step] at ht
    split at ht
    · next m pk row hc =>
      rw [hc] at hphase
      cases ht
      exact ⟨owner, gateInv_reject h c m pk row note hphase⟩
    · cases ht
  | readPlate c device raw =>
    simp only [ReadingState.step] at ht
    split at ht
    · cases ht
      exact ⟨owner, gateInv_readPlate h c device raw⟩
    · cases ht
  | readFace c device image order =>
    simp only [ReadingState.step] at ht
    split at ht
    · exact ⟨owner, gateInv_readFace h c device image order ht⟩
    · cases ht
  | next c => exact gateInv_next h c ht
  | fail c =>
    simp only [ReadingState.step] at ht
    split at ht
    · cases ht
    · cases ht
    · cases ht
      exact ⟨owner, h.finish c _⟩

omit [DecidableEq C] in
theorem gateInv_empty (now : ℕ) : GateInv K owner (ReadingState.empty now : ReadingState C) where
  rows := fun _ _ h => by cases h
  apart := fun _ _ _ _ h => by cases h
  events := fun _ _ h => by cases h
  phases := fun _ => trivial

theorem gateInv_of_reaches (now : ℕ)
    (h : Reaches (ReadingState.step K) Always (ReadingState.empty now : ReadingState C) s) :
    ∃ owner, GateInv K owner s := by
  refine h.preserves (fun u => ∃ owner, GateInv K owner u) ?_
    ⟨fun _ => (0, []), gateInv_empty now⟩
  rintro u a v ⟨owner, hu⟩ - hv
  exact gateInv_step a hu hv

end LamTo.Analysis
