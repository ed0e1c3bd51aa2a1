import LamTo.Library.FirstOfKey
import LamTo.Model.ActionInbox

/-!
# The open mismatches that are listed

The list of open mismatches is made from the newest mismatch observations of a building, so many
of them and no more. It names an entry once, and only when its latest observation is a mismatch,
and it names them newest first. But observations that repeat an entry, and those of entries that
verified since, take places too: an entry is sure to be listed exactly when fewer than `limit`
mismatch observations of other entries are as new as its latest one.

SOURCE: src/lamto/web/action_inbox.py:257-281
-/

set_option autoImplicit false

namespace LamTo.Analysis

open LamTo.Library LamTo.Model

/-! ## The latest observation -/

instance isNewer_total : Std.Total isNewer := ⟨fun a b => by
  unfold isNewer
  omega⟩

instance isNewer_trans : IsTrans (ℕ × VerificationObservation) isNewer := ⟨fun a b c hab hbc => by
  unfold isNewer at *
  omega⟩

/-- The latest observation is one of the entry, and no other is newer. -/
theorem latestObservation_spec (db : Db) (entry : ℕ) (l : ℕ × VerificationObservation)
    (h : latestObservation db entry = some l) :
    l ∈ db.observations.rows ∧ l.2.publishedEntry = entry ∧
      ∀ r ∈ db.observations.rows, r.2.publishedEntry = entry →
        r.2.observedAt ≤ l.2.observedAt := by
  have hmem : ∀ r, r ∈ (db.observations.select fun o => o.publishedEntry = entry).insertionSort
      isNewer ↔ r ∈ db.observations.rows ∧ r.2.publishedEntry = entry := by
    intro r
    rw [List.mem_insertionSort, Table.select, List.mem_filter, decide_eq_true_eq]
  obtain ⟨hrow, hentry⟩ := (hmem l).mp (List.mem_of_mem_head? h)
  refine ⟨hrow, hentry, fun r hr hsame => ?_⟩
  obtain ⟨rest, hrest⟩ := List.head?_eq_some_iff.mp h
  have hsorted := List.pairwise_insertionSort isNewer
    (db.observations.select fun o => o.publishedEntry = entry)
  have hin := (hmem r).mpr ⟨hr, hsame⟩
  rw [hrest] at hsorted hin
  rcases List.mem_cons.mp hin with rfl | hin
  · exact Nat.le_refl _
  · rcases (List.pairwise_cons.mp hsorted).1 r hin with hlt | ⟨heq, _⟩
    · exact Nat.le_of_lt hlt
    · exact Nat.le_of_eq heq

/-- The time of the latest observation. -/
def latestTime (db : Db) (entry : ℕ) : ℕ :=
  ((latestObservation db entry).map (·.2.observedAt)).getD 0

/-- An entry of the building with an open mismatch. -/
def MismatchOpen (db : Db) (building entry : ℕ) : Prop :=
  entryBuilding db entry = some building ∧ isOpenMismatch db entry = true

instance (db : Db) (building entry : ℕ) : Decidable (MismatchOpen db building entry) :=
  inferInstanceAs (Decidable (_ ∧ _))

/-- All of them. -/
def openEntries (db : Db) (building : ℕ) : List ℕ :=
  (db.ledger.rows.map Prod.fst).filter fun entry => MismatchOpen db building entry

/-- The latest observation of an open entry is one of the mismatches of the building. -/
theorem MismatchOpen.latest {db : Db} {building entry : ℕ} (h : MismatchOpen db building entry) :
    ∃ l, l ∈ buildingMismatches db building ∧ l.2.publishedEntry = entry ∧
      l.2.observedAt = latestTime db entry ∧
      ∀ r ∈ buildingMismatches db building, r.2.publishedEntry = entry →
        r.2.observedAt ≤ l.2.observedAt := by
  obtain ⟨hbuilding, hopen⟩ := h
  obtain ⟨l, hl, hresult⟩ := (Option.any_eq_true _ _).mp hopen
  obtain ⟨hrow, hentry, hnewest⟩ := latestObservation_spec db entry l hl
  have htime : l.2.observedAt = latestTime db entry := by
    rw [latestTime, hl]
    rfl
  refine ⟨l, ?_, hentry, htime, fun r hr => hnewest r (List.mem_filter.mp hr).1⟩
  rw [buildingMismatches, List.mem_filter, hentry, Bool.and_eq_true, decide_eq_true_eq]
  exact ⟨hrow, of_decide_eq_true hresult, decide_eq_true hbuilding⟩

/-! ## The loop -/

abbrev entryOf (r : ℕ × VerificationObservation) : ℕ := r.2.publishedEntry

theorem collectMismatches_eq (db : Db) (entryIds : List ℕ)
    (rows : List (ℕ × VerificationObservation)) :
    collectMismatches db entryIds rows =
      entryIds ++ (firsts entryOf (isOpenMismatch db) entryIds rows).map entryOf := by
  induction rows generalizing entryIds with
  | nil => rw [collectMismatches, firsts, List.map_nil, List.append_nil]
  | cons obs rows ih =>
    rw [collectMismatches, firsts]
    by_cases hmet : obs.2.publishedEntry ∈ entryIds
    · rw [if_pos hmet, if_pos hmet]
      exact ih entryIds
    · rw [if_neg hmet, if_neg hmet]
      by_cases hopen : isOpenMismatch db obs.2.publishedEntry = true
      · rw [if_pos hopen, if_pos hopen, ih, List.map_cons, List.append_assoc,
          List.singleton_append]
      · rw [if_neg hopen, if_neg hopen]
        exact ih entryIds

/-- The kept observations are the listed entries' own. -/
theorem mismatchedLedgerEntryIds_eq (db : Db) (rows : List (ℕ × VerificationObservation))
    (limit : ℕ) :
    mismatchedLedgerEntryIds db rows limit =
      (firsts entryOf (isOpenMismatch db) [] (rows.take limit)).map entryOf :=
  collectMismatches_eq db [] (rows.take limit)

theorem mem_mismatchedLedgerEntryIds (db : Db) (rows : List (ℕ × VerificationObservation))
    (limit entry : ℕ) :
    entry ∈ mismatchedLedgerEntryIds db rows limit ↔
      isOpenMismatch db entry = true ∧ ∃ r ∈ rows.take limit, r.2.publishedEntry = entry := by
  rw [mismatchedLedgerEntryIds_eq, mem_keys_firsts]
  simp only [List.not_mem_nil, not_false_eq_true, true_and]

variable {db : Db} {building limit : ℕ} {rows : List (ℕ × VerificationObservation)}

theorem row_building (h : MismatchRows db building rows)
    {r : ℕ × VerificationObservation} (hr : r ∈ rows) :
    entryBuilding db r.2.publishedEntry = some building := by
  have hmem := h.perm.mem_iff.mp hr
  rw [buildingMismatches, List.mem_filter, Bool.and_eq_true, decide_eq_true_eq,
    decide_eq_true_eq] at hmem
  exact hmem.2.2

/-- **What is listed is open.** -/
theorem listed_open (h : MismatchRows db building rows) (entry : ℕ)
    (hmem : entry ∈ mismatchedLedgerEntryIds db rows limit) : MismatchOpen db building entry := by
  obtain ⟨hopen, r, hr, rfl⟩ := (mem_mismatchedLedgerEntryIds db rows limit entry).mp hmem
  exact ⟨row_building h (List.mem_of_mem_take hr), hopen⟩

/-- The observation an entry is listed for is as new as its latest. -/
theorem kept_time (h : MismatchRows db building rows)
    {r : ℕ × VerificationObservation}
    (hr : r ∈ firsts entryOf (isOpenMismatch db) [] (rows.take limit)) :
    r.2.observedAt = latestTime db r.2.publishedEntry := by
  obtain ⟨_, hopen, before, after, htake, hbefore⟩ := first_of_mem_firsts _ _ _ _ _ hr
  have hrows : rows = before ++ r :: (after ++ rows.drop limit) := by
    rw [← List.cons_append, ← List.append_assoc, ← htake, List.take_append_drop]
  have hmem : r ∈ rows := by
    rw [hrows]
    simp
  obtain ⟨l, hl, hentry, htime, hnewest⟩ := MismatchOpen.latest ⟨row_building h hmem, hopen⟩
  have hle := hnewest r (h.perm.mem_iff.mp hmem) rfl
  have hsorted := h.newestFirst
  rw [hrows] at hsorted
  have hlater := (List.pairwise_cons.mp (List.pairwise_append.mp hsorted).2.1).1
  have hin := h.perm.mem_iff.mpr hl
  rw [hrows, List.mem_append, List.mem_cons] at hin
  rw [← htime]
  rcases hin with hin | rfl | hin
  · exact absurd hentry (hbefore l hin)
  · rfl
  · exact Nat.le_antisymm hle (hlater l hin)

/-- **The newest come first.** -/
theorem listed_newest_first (h : MismatchRows db building rows) :
    (mismatchedLedgerEntryIds db rows limit).Pairwise fun e f =>
      latestTime db f ≤ latestTime db e := by
  rw [mismatchedLedgerEntryIds_eq, List.pairwise_map]
  have hsorted := (h.newestFirst.sublist (List.take_sublist limit rows)).sublist
    (firsts_sublist entryOf (isOpenMismatch db) [] (rows.take limit))
  refine hsorted.imp_of_mem fun {a b} ha hb hle => ?_
  exact kept_time h ha ▸ kept_time h hb ▸ hle

/-! ## When all are listed -/

/-- A mismatch observation of another entry that is as new as the latest of this one. -/
def crowds (db : Db) (entry : ℕ) (r : ℕ × VerificationObservation) : Bool :=
  decide (r.2.publishedEntry ≠ entry) && decide (latestTime db entry ≤ r.2.observedAt)

/-- Fewer than `limit` of them: the entry is listed, however ties are broken. -/
theorem listed_of_room (h : MismatchRows db building rows) (entry : ℕ)
    (hopen : MismatchOpen db building entry)
    (hroom : (buildingMismatches db building).countP (crowds db entry) < limit) :
    entry ∈ mismatchedLedgerEntryIds db rows limit := by
  rw [mem_mismatchedLedgerEntryIds]
  refine ⟨hopen.2, ?_⟩
  by_contra hnone
  obtain ⟨l, hl, hentry, htime, _⟩ := hopen.latest
  have hin := h.perm.mem_iff.mpr hl
  rw [← List.take_append_drop limit rows, List.mem_append] at hin
  have hdrop : l ∈ rows.drop limit := by
    rcases hin with hin | hin
    · exact absurd ⟨l, hin, hentry⟩ hnone
    · exact hin
  -- the rows before the cut are `limit` many, and all of them crowd
  have hlength : (rows.take limit).length = limit := by
    have hpos := List.length_pos_of_mem hdrop
    rw [List.length_drop] at hpos
    rw [List.length_take]
    omega
  have hsorted := h.newestFirst
  rw [← List.take_append_drop limit rows] at hsorted
  have hbefore := (List.pairwise_append.mp hsorted).2.2
  have hall : (rows.take limit).countP (crowds db entry) = limit := by
    rw [List.countP_eq_length.mpr, hlength]
    intro r hr
    rw [crowds, Bool.and_eq_true, decide_eq_true_eq, decide_eq_true_eq, ← htime]
    exact ⟨fun hsame => hnone ⟨r, hr, hsame⟩, hbefore r hr l hdrop⟩
  have hcount : (rows.take limit).countP (crowds db entry) ≤
      (buildingMismatches db building).countP (crowds db entry) := by
    rw [← h.perm.countP_eq]
    exact (List.take_sublist limit rows).countP_le
  omega

/-- The order that puts an entry behind all others of its time. -/
def lastOf (entry : ℕ) (a b : ℕ × VerificationObservation) : Prop :=
  b.2.observedAt < a.2.observedAt ∨
    b.2.observedAt = a.2.observedAt ∧ (a.2.publishedEntry = entry → b.2.publishedEntry = entry)

instance (entry : ℕ) : DecidableRel (lastOf entry) := fun _ _ =>
  inferInstanceAs (Decidable (_ ∨ _))

instance (entry : ℕ) : Std.Total (lastOf entry) := ⟨fun a b => by
  unfold lastOf
  omega⟩

instance (entry : ℕ) : IsTrans (ℕ × VerificationObservation) (lastOf entry) :=
  ⟨fun a b c hab hbc => by
    unfold lastOf at *
    omega⟩

theorem mismatchRows_lastOf (db : Db) (building entry : ℕ) :
    MismatchRows db building ((buildingMismatches db building).insertionSort (lastOf entry)) where
  perm := List.perm_insertionSort _ _
  newestFirst := (List.pairwise_insertionSort (lastOf entry) _).imp fun {a b} h => by
    unfold lastOf at h
    omega

/-- An entry that is listed even when it loses all ties has room. -/
theorem room_of_listed (entry : ℕ) (hopen : MismatchOpen db building entry)
    (h : entry ∈ mismatchedLedgerEntryIds db
      ((buildingMismatches db building).insertionSort (lastOf entry)) limit) :
    (buildingMismatches db building).countP (crowds db entry) < limit := by
  obtain ⟨_, r, hr, hentry⟩ := (mem_mismatchedLedgerEntryIds db _ limit entry).mp h
  obtain ⟨l, _, _, htime, hnewest⟩ := hopen.latest
  have hperm := List.perm_insertionSort (lastOf entry) (buildingMismatches db building)
  have hsorted := List.pairwise_insertionSort (lastOf entry) (buildingMismatches db building)
  generalize (buildingMismatches db building).insertionSort (lastOf entry) = rows at *
  obtain ⟨before, after, htake⟩ := List.append_of_mem hr
  have hrows : rows = before ++ r :: (after ++ rows.drop limit) := by
    rw [← List.cons_append, ← List.append_assoc, ← htake, List.take_append_drop]
  have hbefore : before.length < limit := by
    have hle : (rows.take limit).length ≤ limit := List.length_take_le limit rows
    rw [htake, List.length_append, List.length_cons] at hle
    omega
  have hold : r.2.observedAt ≤ latestTime db entry := by
    rw [← htime]
    refine hnewest r (hperm.mem_iff.mp ?_) hentry
    rw [hrows]
    simp
  rw [hrows] at hsorted
  have hlater := (List.pairwise_cons.mp (List.pairwise_append.mp hsorted).2.1).1
  have hnone : (r :: (after ++ rows.drop limit)).countP (crowds db entry) = 0 := by
    rw [List.countP_eq_zero]
    intro x hx hcrowds
    rw [crowds, Bool.and_eq_true, decide_eq_true_eq, decide_eq_true_eq] at hcrowds
    rcases List.mem_cons.mp hx with rfl | hx
    · exact hcrowds.1 hentry
    · rcases hlater x hx with hlt | ⟨_, hlast⟩
      · exact absurd hcrowds.2 (by omega)
      · exact hcrowds.1 (hlast hentry)
  calc (buildingMismatches db building).countP (crowds db entry)
      = rows.countP (crowds db entry) := (hperm.countP_eq _).symm
    _ = before.countP (crowds db entry) := by
        rw [hrows, List.countP_append, hnone, Nat.add_zero]
    _ ≤ before.length := List.countP_le_length
    _ < limit := hbefore

/-- **When the open mismatches are all listed.** Whatever the history and the limit, the listed
entries are distinct, their latest observations are mismatches of the building, and the newest
come first. A list that has room for all open entries is sure to name them all exactly when fewer
than `limit` mismatch observations of others are as new as the latest of each. -/
theorem open_mismatches_listed_iff (db : Db) (building limit : ℕ) :
    (∀ rows, MismatchRows db building rows →
      (mismatchedLedgerEntryIds db rows limit).Nodup ∧
      (∀ entry ∈ mismatchedLedgerEntryIds db rows limit, MismatchOpen db building entry) ∧
      (mismatchedLedgerEntryIds db rows limit).Pairwise fun e f =>
        latestTime db f ≤ latestTime db e) ∧
    (((openEntries db building).length ≤ limit → ∀ rows, MismatchRows db building rows →
        ∀ entry, MismatchOpen db building entry → entry ∈ mismatchedLedgerEntryIds db rows limit) ↔
      ((openEntries db building).length ≤ limit → ∀ entry, MismatchOpen db building entry →
        (buildingMismatches db building).countP (crowds db entry) < limit)) := by
  refine ⟨fun rows h => ⟨?_, listed_open h, listed_newest_first h⟩, imp_congr_right fun _ => ?_⟩
  · rw [mismatchedLedgerEntryIds_eq]
    exact keys_firsts_nodup entryOf (isOpenMismatch db) [] _
  · constructor
    · intro h entry hopen
      exact room_of_listed entry hopen
        (h _ (mismatchRows_lastOf db building entry) entry hopen)
    · intro h rows hrows entry hopen
      exact listed_of_room hrows entry hopen (h entry hopen)

/-! ## A mismatch that was resolved -/

def observationOf (entry : ℕ) (result : VerificationResult) (time : ℕ) :
    VerificationObservation :=
  ⟨entry, result, [], [], true, .null, time⟩

/-- The first entry has a mismatch, the second had a later one and verified since. -/
def resolvedLater : Db :=
  { Db.empty with
    proposals := Table.empty.insert ⟨none, 7, 1, .completed, none, none, none, [], none, none,
      none, 0⟩
    ledger := (Table.empty.insert ⟨.null, none, 1, 1, 0, [], 0⟩).insert
      ⟨.null, none, 1, 2, 0, [], 0⟩
    observations := ((Table.empty.insert (observationOf 1 .mismatch 1)).insert
      (observationOf 2 .mismatch 2)).insert (observationOf 2 .verified 3) }

/-- With room for one, the resolved mismatch takes the place of the only open one. -/
theorem open_mismatch_missing :
    openEntries resolvedLater 7 = [1] ∧
      MismatchRows resolvedLater 7 [(2, observationOf 2 .mismatch 2),
        (1, observationOf 1 .mismatch 1)] ∧
      mismatchedLedgerEntryIds resolvedLater [(2, observationOf 2 .mismatch 2),
        (1, observationOf 1 .mismatch 1)] 1 = [] := by
  refine ⟨by decide, ⟨?_, ?_⟩, by decide⟩
  · exact List.Perm.swap _ _ []
  · exact List.pairwise_cons.mpr ⟨fun r hr => by
      rw [List.mem_singleton.mp hr]
      decide, List.pairwise_singleton _ _⟩

end LamTo.Analysis
