import LamTo.Model.GateReaders

/-!
# The face that is let in

`match_face` goes through the candidates and keeps the best score it has met, so it ends with the
first of the highest (`matchFace_eq`, over the scan of the library). What a reader is told follows
from the bounds on the scores before and after the winner, whatever order the rows come in.

SOURCE: src/lamto/gate/matching.py:26-42, recognition.py:27-39
-/

set_option autoImplicit false

namespace LamTo.Analysis

open LamTo.Library LamTo.Model

variable {K : ReaderConfig}

/-- The occupancy of a candidate with its score, when it has one. -/
def faceScore (K : ReaderConfig) (probe : List UInt8) (row : FaceEnrollment) : Option (ℕ × ℚ) :=
  match K.candidateScore probe (row.embedding.getD []) with
  | .ok (some score) => some (row.occupancy, score)
  | _ => none

theorem faceScore_eq_some (probe : List UInt8) (row : FaceEnrollment) (occupancy : ℕ) (score : ℚ) :
    faceScore K probe row = some (occupancy, score) ↔
      K.candidateScore probe (row.embedding.getD []) = .ok (some score) ∧
        row.occupancy = occupancy := by
  unfold faceScore
  split
  · next found hfound => simp [hfound, and_comm]
  · next hother =>
    constructor
    · intro h
      cases h
    · rintro ⟨hscore, -⟩
      exact absurd hscore (hother score)

/-- The loop is the scan over the candidates with a score. -/
theorem foldlM_considerFace (probe : List UInt8) (rows : List FaceEnrollment)
    (best last : Option ℕ × ℚ) (h : rows.foldlM (considerFace K probe) best = .ok last) :
    last = bestFrom best (rows.filterMap (faceScore K probe)) := by
  induction rows generalizing best with
  | nil =>
    cases h
    rfl
  | cons row rows ih =>
    simp only [List.foldlM_cons, considerFace, bind_eq_ok] at h
    obtain ⟨next, ⟨score, hscore, hnext⟩, h⟩ := h
    rw [ih next h]
    cases score with
    | none =>
      cases hnext
      have hnone : faceScore K probe row = none := by
        unfold faceScore
        rw [hscore]
      rw [List.filterMap_cons_none hnone]
    | some score =>
      rw [pure_eq_ok] at hnext
      rw [List.filterMap_cons_some ((faceScore_eq_some probe row row.occupancy score).mpr
        ⟨hscore, rfl⟩), ← hnext]
      rfl

/-- What `match_face` returns, over the scan. -/
theorem matchFace_eq (probe : List UInt8) (rows : List FaceEnrollment) (found : FaceMatch)
    (h : matchFace K probe rows = .ok found) :
    (bestFrom (none, -1) (rows.filterMap (faceScore K probe))).1 = none ∧ found = ⟨none, 0⟩ ∨
      ∃ occupancy score, bestFrom (none, -1) (rows.filterMap (faceScore K probe)) =
          (some occupancy, score) ∧
        found = ⟨if K.faceMatchThreshold ≤ score then some occupancy else none, score⟩ := by
  simp only [matchFace, bind_eq_ok, require_eq_ok] at h
  obtain ⟨-, -, ⟨best, score⟩, hbest, h⟩ := h
  have hscan := foldlM_considerFace probe rows _ _ hbest
  cases best with
  | none =>
    rw [pure_eq_ok] at h
    exact .inl ⟨congrArg Prod.fst hscan.symm, h.symm⟩
  | some occupancy =>
    rw [pure_eq_ok] at h
    exact .inr ⟨occupancy, score, hscan.symm, h.symm⟩

/-- A candidate has a score in the scan. -/
theorem mem_faceScores (probe : List UInt8) (rows : List FaceEnrollment) (row : FaceEnrollment)
    (score : ℚ) (hrow : row ∈ rows)
    (hscore : K.candidateScore probe (row.embedding.getD []) = .ok (some score)) :
    (row.occupancy, score) ∈ rows.filterMap (faceScore K probe) :=
  List.mem_filterMap.mpr ⟨row, hrow, (faceScore_eq_some probe row _ _).mpr ⟨hscore, rfl⟩⟩

/-- **Who is let in has the best score**, and it reaches the threshold. -/
theorem matchFace_some (probe : List UInt8) (rows : List FaceEnrollment) (found : FaceMatch)
    (occupancy : ℕ) (h : matchFace K probe rows = .ok found)
    (hfound : found.occupancy = some occupancy) :
    K.faceMatchThreshold ≤ found.score ∧
    (∃ row ∈ rows, row.occupancy = occupancy ∧
      K.candidateScore probe (row.embedding.getD []) = .ok (some found.score)) ∧
    ∀ row ∈ rows, ∀ score, K.candidateScore probe (row.embedding.getD []) = .ok (some score) →
      score ≤ found.score := by
  rcases matchFace_eq probe rows found h with ⟨-, rfl⟩ | ⟨winner, score, hscan, rfl⟩
  · cases hfound
  · dsimp only at hfound
    split at hfound
    · next hthreshold =>
      cases hfound
      obtain ⟨row, hrow, hwinner⟩ := List.mem_filterMap.mp (mem_of_bestFrom hscan)
      obtain ⟨hscore, howner⟩ := (faceScore_eq_some probe row _ _).mp hwinner
      refine ⟨hthreshold, ⟨row, hrow, howner, hscore⟩, fun other hother score' hscore' => ?_⟩
      exact le_of_bestFrom hscan _ (mem_faceScores probe rows other score' hother hscore')
    · cases hfound

/-- **Nobody is let in** when no candidate has a score above the start of the scan that reaches
the threshold. -/
theorem matchFace_none (probe : List UInt8) (rows : List FaceEnrollment) (found : FaceMatch)
    (h : matchFace K probe rows = .ok found) (hfound : found.occupancy = none)
    (row : FaceEnrollment) (hrow : row ∈ rows) (score : ℚ)
    (hscore : K.candidateScore probe (row.embedding.getD []) = .ok (some score)) :
    score ≤ -1 ∨ score < K.faceMatchThreshold := by
  have hmem := mem_faceScores probe rows row score hrow hscore
  rcases matchFace_eq probe rows found h with ⟨hnone, -⟩ | ⟨winner, best, hscan, rfl⟩
  · exact .inl (bestFrom_eq_none.mp hnone _ hmem)
  · dsimp only at hfound
    split at hfound
    · cases hfound
    · next hthreshold =>
      exact .inr (lt_of_le_of_lt (le_of_bestFrom hscan _ hmem) (not_le.mp hthreshold))

/-- What a reading that ends with a match has gone through. -/
theorem readFace_sawFace {C : Type} [DecidableEq C] {s t : ReadingState C} (c : C) (device : ℕ)
    (image : List UInt8) (order : List (ℕ × FaceEnrollment)) (result : EmbeddingResult) (found : FaceMatch)
    (ht : s.readFace K c device image order = some t)
    (hphase : t.phase c = .sawFace device result found) :
    K.embed image = some result ∧
      order.Perm (s.faces.select
        (isFaceCandidate K s.active (K.reader device).building result)) ∧
      matchFace K result.vector (order.map Prod.snd) = .ok found := by
  unfold ReadingState.readFace at ht
  split at ht
  · split at ht
    · cases ht
      cases (Function.update_self c _ s.phase).symm.trans hphase
    · next read hread =>
      split at ht
      · next horder =>
        split at ht
        · cases ht
          cases (Function.update_self c _ s.phase).symm.trans hphase
        · next other hother =>
          cases ht
          cases (Function.update_self c _ s.phase).symm.trans hphase
          exact ⟨hread, horder, hother⟩
      · cases ht
  · cases ht
    cases (Function.update_self c _ s.phase).symm.trans hphase

end LamTo.Analysis
