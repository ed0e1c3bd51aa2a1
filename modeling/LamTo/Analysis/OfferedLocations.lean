import LamTo.Library.ParentChain
import LamTo.Model.Locations
import LamTo.Model.Maintenance
import Mathlib.Data.List.Lex

/-!
# The locations that are offered and those that are accepted

A report names a location, and so does its case. Both services walk from it to the root and
want every location on the way to be active and of the building; the picker asks this of the
location alone.

* both walks end, whatever the parent pointers, and accept the locations whose chain of active
  locations of the building ends at a root;
* all the locations that are offered are accepted exactly when their parents are offered too and
  there is no cycle among them;
* the roots have no `parent_id` and come last, so the list puts a child before its parent as soon
  as there is one: it keeps both promises exactly when it has roots only.

SOURCE: src/lamto/maintenance/reporting.py:31-54, triage.py:24-37, selectors.py:112-117
-/

set_option autoImplicit false

namespace LamTo.Analysis

open LamTo.Library LamTo.Model

/-! ## The order -/

theorem nameThenKey_total (C : Collation) (a b : ℕ × Place) :
    (C.nameThenKey a b || C.nameThenKey b a) = true := by
  unfold Collation.nameThenKey
  by_cases hname : a.2.name = b.2.name
  · rw [if_pos hname, if_pos hname.symm, Bool.or_eq_true, decide_eq_true_eq, decide_eq_true_eq]
    exact Nat.le_total a.1 b.1
  · rw [if_neg hname, if_neg (Ne.symm hname)]
    exact C.le_total a.2.name b.2.name

theorem nameThenKey_trans (C : Collation) (a b c : ℕ × Place) (hab : C.nameThenKey a b = true)
    (hbc : C.nameThenKey b c = true) : C.nameThenKey a c = true := by
  unfold Collation.nameThenKey at hab hbc ⊢
  by_cases h₁ : a.2.name = b.2.name
  · by_cases h₂ : b.2.name = c.2.name
    · rw [if_pos h₁, decide_eq_true_eq] at hab
      rw [if_pos h₂, decide_eq_true_eq] at hbc
      rw [if_pos (h₁.trans h₂), decide_eq_true_eq]
      exact Nat.le_trans hab hbc
    · rw [if_neg h₂] at hbc
      rw [h₁, if_neg h₂]
      exact hbc
  · rw [if_neg h₁] at hab
    by_cases h₂ : b.2.name = c.2.name
    · rw [← h₂, if_neg h₁]
      exact hab
    · rw [if_neg h₂] at hbc
      have hne : a.2.name ≠ c.2.name := by
        intro hsame
        rw [← hsame] at hbc
        exact h₁ (C.le_antisymm _ _ hab hbc)
      rw [if_neg hne]
      exact C.le_trans _ _ _ hab hbc

theorem locationLe_total (C : Collation) (a b : ℕ × Place) :
    (C.locationLe a b || C.locationLe b a) = true := by
  unfold Collation.locationLe
  cases a.2.parent with
  | none =>
    cases b.2.parent with
    | none => exact nameThenKey_total C a b
    | some q => rfl
  | some p =>
    cases b.2.parent with
    | none => rfl
    | some q =>
      by_cases hsame : p = q
      · simp only [hsame, if_true]
        exact nameThenKey_total C a b
      · simp only [hsame, Ne.symm hsame, if_false, Bool.or_eq_true, decide_eq_true_eq]
        omega

theorem locationLe_trans (C : Collation) (a b c : ℕ × Place) (hab : C.locationLe a b = true)
    (hbc : C.locationLe b c = true) : C.locationLe a c = true := by
  unfold Collation.locationLe at hab hbc ⊢
  cases ha : a.2.parent with
  | none =>
    cases hb : b.2.parent with
    | none =>
      cases hc : c.2.parent with
      | none =>
        simp only [ha, hb, hc] at hab hbc
        exact nameThenKey_trans C a b c hab hbc
      | some r =>
        simp only [hb, hc] at hbc
        cases hbc
    | some q =>
      simp only [ha, hb] at hab
      cases hab
  | some p =>
    cases hc : c.2.parent with
    | none => rfl
    | some r =>
      cases hb : b.2.parent with
      | none =>
        simp only [hb, hc] at hbc
        cases hbc
      | some q =>
        simp only [ha, hb, hc] at hab hbc
        by_cases hpq : p = q
        · by_cases hqr : q = r
          · simp only [hpq, hqr, if_true] at hab hbc ⊢
            exact nameThenKey_trans C a b c hab hbc
          · simp only [hpq, hqr, if_false] at hbc ⊢
            exact hbc
        · simp only [hpq, if_false, decide_eq_true_eq] at hab
          by_cases hqr : q = r
          · have hpr : p ≠ r := fun h => hpq (h.trans hqr.symm)
            simp only [hpr, if_false, decide_eq_true_eq]
            omega
          · simp only [hqr, if_false, decide_eq_true_eq] at hbc
            have hpr : p ≠ r := by omega
            simp only [hpr, if_false, decide_eq_true_eq]
            omega

/-! ## The two walks -/

/-- What the walks find under a key. -/
def placeNode (places : Table Place) (building pk : ℕ) : ChainNode ℕ :=
  match places.get? pk with
  | none => .missing
  | some place =>
    if place.active = true ∧ place.building = building then
      match place.parent with
      | none => .root
      | some parent => .up parent
    else .barred

theorem placeNode_missing_iff (places : Table Place) (building pk : ℕ) :
    placeNode places building pk = .missing ↔ places.get? pk = none := by
  unfold placeNode
  cases places.get? pk with
  | none => exact ⟨fun _ => rfl, fun _ => rfl⟩
  | some place =>
    refine ⟨fun h => ?_, nofun⟩
    simp only at h
    split at h
    · split at h <;> cases h
    · cases h

/-- An active location of the building. -/
def Offered (places : Table Place) (building pk : ℕ) (place : Place) : Prop :=
  places.get? pk = some place ∧ place.active = true ∧ place.building = building

theorem placeNode_root_iff (places : Table Place) (building pk : ℕ) :
    placeNode places building pk = .root ↔
      ∃ place, Offered places building pk place ∧ place.parent = none := by
  unfold placeNode Offered
  cases places.get? pk with
  | none => exact ⟨nofun, fun ⟨_, ⟨h, _⟩, _⟩ => by cases h⟩
  | some place =>
    simp only [Option.some.injEq, and_assoc, exists_eq_left']
    split
    · next hgood => cases hparent : place.parent <;> simp [hgood]
    · next hbad =>
      refine ⟨nofun, fun ⟨hactive, hbuilding, _⟩ => absurd ⟨hactive, hbuilding⟩ hbad⟩

theorem placeNode_up_iff (places : Table Place) (building pk parent : ℕ) :
    placeNode places building pk = .up parent ↔
      ∃ place, Offered places building pk place ∧ place.parent = some parent := by
  unfold placeNode Offered
  cases places.get? pk with
  | none => exact ⟨nofun, fun ⟨_, ⟨h, _⟩, _⟩ => by cases h⟩
  | some place =>
    simp only [Option.some.injEq, and_assoc, exists_eq_left']
    split
    · next hgood => cases hparent : place.parent <;> simp [hgood]
    · next hbad =>
      refine ⟨nofun, fun ⟨hactive, hbuilding, _⟩ => absurd ⟨hactive, hbuilding⟩ hbad⟩

/-- The keys of the table are all there is to walk over. -/
theorem within_keys (places : Table Place) (building : ℕ) :
    Within (placeNode places building) (places.rows.map Prod.fst) := by
  intro pk h
  cases hget : places.get? pk with
  | some place =>
    exact List.mem_map_of_mem ((places.get?_eq_some pk place).mp hget)
  | none =>
    have hmissing := (placeNode_missing_iff places building pk).mpr hget
    rcases h with hroot | ⟨parent, hup⟩
    · cases hmissing.symm.trans hroot
    · cases hmissing.symm.trans hup

/-- An offered location that was not seen passes the test of `submit_report`. -/
theorem Offered.passes {places : Table Place} {building pk : ℕ} {place : Place}
    (h : Offered places building pk place) {seen : List ℕ} (hnew : pk ∉ seen) :
    (seen.contains pk || !place.active || decide (place.building ≠ building)) = false := by
  have hcontains : seen.contains pk = false := by
    rw [Bool.eq_false_iff]
    exact fun hseen => hnew (List.contains_iff_mem.mp hseen)
  rw [hcontains, h.2.1, decide_eq_false (not_not_intro h.2.2)]
  rfl

/-- How the walk of `submit_report` ends. -/
def pathEnd : Except SubmitError (List Text) → WalkEnd
  | .ok _ => .accepted
  | .error e => if e = .validation hierarchyMessage then .barred else .missing

theorem pathEnd_map (x : Except SubmitError (List Text)) (f : List Text → List Text) :
    pathEnd (x.map f) = pathEnd x := by
  cases x <;> rfl

/-- **The fuel of the walk of `submit_report` never runs out**: it ends as the loop does. -/
theorem pathEnd_of_walks (places : Table Place) (building fuel : ℕ) (seen : List ℕ) (pk : ℕ)
    (v : WalkEnd) (h : Walks (placeNode places building) seen pk v) (hnodup : seen.Nodup)
    (hsub : ∀ s ∈ seen, s ∈ places.rows.map Prod.fst)
    (hfuel : places.rows.length ≤ fuel + seen.length) :
    pathEnd (pathNames places building fuel seen pk) = v := by
  induction h generalizing fuel with
  | missing seen pk h =>
    have hget := (placeNode_missing_iff places building pk).mp h
    unfold pathNames
    rw [hget]
    rfl
  | barred seen pk hthere h =>
    cases hget : places.get? pk with
    | none => exact absurd ((placeNode_missing_iff places building pk).mpr hget) hthere
    | some place =>
      have hrefused : (seen.contains pk || !place.active || decide (place.building ≠ building)) =
          true := by
        rcases h with hseen | hbarred
        · rw [List.contains_iff_mem.mpr hseen]
          rfl
        · have hbad : ¬ (place.active = true ∧ place.building = building) := by
            intro hgood
            unfold placeNode at hbarred
            rw [hget] at hbarred
            simp only [hgood, and_self, if_true] at hbarred
            split at hbarred <;> cases hbarred
          by_cases hactive : place.active = true
          · have hother : place.building ≠ building := fun hsame => hbad ⟨hactive, hsame⟩
            rw [decide_eq_true hother, Bool.or_true]
          · rw [Bool.not_eq_true] at hactive
            rw [hactive, Bool.not_false, Bool.or_true, Bool.true_or]
      unfold pathNames
      rw [hget]
      simp only [hrefused, if_true]
      rfl
  | root seen pk hnew h =>
    obtain ⟨place, hoffered, hparent⟩ := (placeNode_root_iff places building pk).mp h
    unfold pathNames
    rw [hoffered.1]
    simp only [hoffered.passes hnew, Bool.false_eq_true, if_false, hparent]
    rfl
  | up seen pk parent v hnew h hrest ih =>
    obtain ⟨place, hoffered, hparent⟩ := (placeNode_up_iff places building pk parent).mp h
    have hkey : pk ∈ places.rows.map Prod.fst :=
      List.mem_map_of_mem ((places.get?_eq_some pk place).mp hoffered.1)
    have hnodup' := List.nodup_cons.mpr ⟨hnew, hnodup⟩
    have hsub' := List.forall_mem_cons.mpr ⟨hkey, hsub⟩
    have hroom := seen_length_le hnodup' hsub'
    rw [List.length_cons, List.length_map] at hroom
    cases fuel with
    | zero => omega
    | succ fuel =>
      have hrest' := ih fuel hnodup' hsub' (by rw [List.length_cons]; omega)
      unfold pathNames
      rw [hoffered.1]
      simp only [hoffered.passes hnew, Bool.false_eq_true, if_false, hparent]
      rw [pathEnd_map, hrest']

/-- A location as the walk of a case reads it. -/
def Place.location (place : Place) : Location where
  building := place.building
  parent := place.parent
  active := place.active

/-- The two services read the same table. -/
def SameLocations (db : Db) (places : Table Place) : Prop :=
  ∀ pk, db.locations.get? pk = (places.get? pk).map Place.location

/-- How the walk of `_active_location` ends. -/
def caseEnd : Except ServiceError Unit → WalkEnd
  | .ok _ => .accepted
  | .error e =>
    if e = .validation "Case location must be active and belong to the report building." then
      .barred
    else .missing

/-- **Nor does that of `_active_location`.** -/
theorem caseEnd_of_walks (db : Db) (places : Table Place) (hsame : SameLocations db places)
    (building fuel : ℕ) (seen : List ℕ) (pk : ℕ) (place : Place) (v : WalkEnd)
    (h : Walks (placeNode places building) seen pk v) (hget : places.get? pk = some place)
    (hnodup : seen.Nodup) (hsub : ∀ s ∈ seen, s ∈ db.locations.rows.map Prod.fst)
    (hfuel : db.locations.rows.length < fuel + seen.length) (hpos : 0 < fuel) :
    caseEnd (locationWalk db building fuel seen pk (Place.location place)) = v := by
  obtain ⟨fuel, rfl⟩ := Nat.exists_eq_succ_of_ne_zero (Nat.ne_of_gt hpos)
  induction h generalizing fuel place with
  | missing seen pk h =>
    rw [(placeNode_missing_iff places building pk).mp h] at hget
    cases hget
  | barred seen pk hthere h =>
    have hrefused : ¬ (pk ∉ seen ∧ place.active = true ∧ place.building = building) := by
      rintro ⟨hnew, hactive, hbuilding⟩
      rcases h with hseen | hbarred
      · exact hnew hseen
      · unfold placeNode at hbarred
        rw [hget] at hbarred
        simp only [hactive, hbuilding, and_self, if_true] at hbarred
        split at hbarred <;> cases hbarred
    rw [locationWalk, Place.location, require, if_neg hrefused]
    rfl
  | root seen pk hnew h =>
    obtain ⟨place', hoffered, hparent⟩ := (placeNode_root_iff places building pk).mp h
    obtain rfl := Option.some.inj (hget.symm.trans hoffered.1)
    rw [locationWalk, Place.location, require, if_pos ⟨hnew, hoffered.2.1, hoffered.2.2⟩]
    simp only [ok_bind, hparent]
    rfl
  | up seen pk parent v hnew h hrest ih =>
    obtain ⟨place', hoffered, hparent⟩ := (placeNode_up_iff places building pk parent).mp h
    obtain rfl := Option.some.inj (hget.symm.trans hoffered.1)
    have hrow : db.locations.get? pk = some (Place.location place) := by
      rw [hsame pk, hget]
      rfl
    have hkey : pk ∈ db.locations.rows.map Prod.fst :=
      List.mem_map_of_mem ((db.locations.get?_eq_some pk _).mp hrow)
    have hnodup' := List.nodup_cons.mpr ⟨hnew, hnodup⟩
    have hsub' := List.forall_mem_cons.mpr ⟨hkey, hsub⟩
    have hroom := seen_length_le hnodup' hsub'
    rw [List.length_cons, List.length_map] at hroom
    rw [locationWalk, Place.location, require, if_pos ⟨hnew, hoffered.2.1, hoffered.2.2⟩]
    simp only [ok_bind, hparent]
    rw [hsame parent]
    cases hnext : places.get? parent with
    | none =>
      have hmissing := (placeNode_missing_iff places building parent).mpr hnext
      rw [hrest.unique (.missing _ _ hmissing)]
      rfl
    | some next =>
      obtain ⟨fuel, rfl⟩ := Nat.exists_eq_succ_of_ne_zero (show fuel ≠ 0 by omega)
      simp only [Option.map_some, orRaise, ok_bind]
      exact ih next hnext hnodup' hsub' fuel (by rw [List.length_cons]; omega) (Nat.succ_pos fuel)

/-! ## What is accepted -/

/-- **`submit_report` accepts the locations whose chain ends at a root.** -/
theorem pathNames_accepts_iff (places : Table Place) (building pk : ℕ) :
    (∃ names, pathNames places building places.rows.length [] pk = .ok names) ↔
      Rooted (placeNode places building) pk := by
  obtain ⟨v, hv⟩ := exists_walks _ (within_keys places building) [] List.nodup_nil
    (fun _ hs => absurd hs List.not_mem_nil) pk
  have hend := pathEnd_of_walks places building places.rows.length [] pk v hv List.nodup_nil
    (fun _ hs => absurd hs List.not_mem_nil) (Nat.le_refl _)
  rw [← walks_accepted_iff]
  constructor
  · rintro ⟨names, hnames⟩
    rw [hnames] at hend
    rw [show WalkEnd.accepted = v from hend]
    exact hv
  · intro haccepted
    rw [hv.unique haccepted] at hend
    cases hnames : pathNames places building places.rows.length [] pk with
    | ok names => exact ⟨names, rfl⟩
    | error e =>
      rw [hnames, pathEnd] at hend
      split at hend <;> cases hend

/-- **`_active_location` accepts the same.** -/
theorem activeLocation_accepts_iff (db : Db) (places : Table Place)
    (hsame : SameLocations db places) (building pk : ℕ) :
    activeLocation db pk building = .ok () ↔ Rooted (placeNode places building) pk := by
  rw [← walks_accepted_iff, activeLocation, hsame pk]
  cases hget : places.get? pk with
  | none =>
    refine ⟨nofun, fun h => ?_⟩
    have hmissing := (placeNode_missing_iff places building pk).mpr hget
    cases h.unique (.missing [] pk hmissing)
  | some place =>
    obtain ⟨v, hv⟩ := exists_walks _ (within_keys places building) [] List.nodup_nil
      (fun _ hs => absurd hs List.not_mem_nil) pk
    have hend := caseEnd_of_walks db places hsame building (db.locations.rows.length + 1) [] pk
      place v hv hget List.nodup_nil (fun s hs => absurd hs List.not_mem_nil)
      (Nat.lt_succ_self _) (Nat.succ_pos _)
    simp only [Option.map_some, orRaise, ok_bind]
    constructor
    · intro hok
      rw [hok] at hend
      rw [show WalkEnd.accepted = v from hend]
      exact hv
    · intro haccepted
      rw [hv.unique haccepted] at hend
      generalize locationWalk db building _ [] pk _ = result at hend
      cases result with
      | ok u => rfl
      | error e =>
        rw [caseEnd] at hend
        split at hend <;> cases hend

/-! ## What is offered -/

theorem mem_activeLocationTree (C : Collation) (places : Table Place) (building pk : ℕ)
    (place : Place) :
    (pk, place) ∈ activeLocationTree C places building ↔ Offered places building pk place := by
  rw [activeLocationTree, (List.mergeSort_perm _ _).mem_iff, List.mem_filter,
    ← places.get?_eq_some, Bool.and_eq_true, decide_eq_true_eq]
  exact and_congr_right fun _ => and_comm

theorem sorted_activeLocationTree (C : Collation) (places : Table Place) (building : ℕ) :
    (activeLocationTree C places building).Pairwise fun a b => C.locationLe a b = true :=
  List.pairwise_mergeSort (locationLe_trans C) (locationLe_total C) _

/-- Every location of the list comes after its parent. -/
def ParentsFirst (tree : List (ℕ × Place)) : Prop :=
  ∀ before after pk place parent, tree = before ++ (pk, place) :: after →
    place.parent = some parent → parent ∈ before.map Prod.fst

/-- Every location of the list is accepted. -/
def AllAccepted (places : Table Place) (building : ℕ) (tree : List (ℕ × Place)) : Prop :=
  ∀ r ∈ tree, Rooted (placeNode places building) r.1

/-- A root comes after its children. -/
theorem not_parentsFirst (C : Collation) (places : Table Place) (building : ℕ) {pk root : ℕ}
    {place top : Place} (hoffered : Offered places building pk place)
    (hparent : place.parent = some root) (htop : Offered places building root top)
    (hroot : top.parent = none) : ¬ ParentsFirst (activeLocationTree C places building) := by
  intro hfirst
  have hmem := (mem_activeLocationTree C places building pk place).mpr hoffered
  obtain ⟨before, after, htree⟩ := List.append_of_mem hmem
  obtain ⟨⟨key, found⟩, hfound, rfl⟩ := List.mem_map.mp
    (hfirst before after pk place root htree hparent)
  have hthere : (key, found) ∈ activeLocationTree C places building := by
    rw [htree]
    exact List.mem_append_left _ hfound
  have hsame := ((mem_activeLocationTree C places building key found).mp hthere).1
  obtain rfl := Option.some.inj (hsame.symm.trans htop.1)
  have hsorted := sorted_activeLocationTree C places building
  rw [htree] at hsorted
  have hle := (List.pairwise_append.mp hsorted).2.2 _ hfound _ List.mem_cons_self
  simp only [Collation.locationLe, hroot, hparent] at hle
  cases hle

/-- A chain that is not a root alone ends with a root and its child. -/
theorem exists_child_of_root {node : ℕ → ChainNode ℕ} {n k : ℕ} (h : RootedAt node (n + 1) k) :
    ∃ child root, node child = .up root ∧ node root = .root := by
  induction n generalizing k with
  | zero =>
    cases h with
    | up _ _ parent hup hrest =>
      cases hrest with
      | root _ hroot => exact ⟨k, parent, hup, hroot⟩
  | succ n ih =>
    cases h with
    | up _ _ parent hup hrest => exact ih hrest

/-- **Which lists are accepted whole.** -/
theorem allAccepted_iff (C : Collation) (places : Table Place) (building : ℕ) :
    AllAccepted places building (activeLocationTree C places building) ↔
      (∀ r ∈ activeLocationTree C places building, ∀ parent, r.2.parent = some parent →
        ∃ place, (parent, place) ∈ activeLocationTree C places building) ∧
      ∀ pk, ¬ Relation.TransGen (Points (placeNode places building)) pk pk := by
  have hgood : ∀ pk, (∃ place, Offered places building pk place) ↔
      placeNode places building pk = .root ∨
        ∃ parent, placeNode places building pk = .up parent := by
    intro pk
    constructor
    · rintro ⟨place, hoffered⟩
      cases hparent : place.parent with
      | none => exact .inl ((placeNode_root_iff places building pk).mpr ⟨place, hoffered, hparent⟩)
      | some parent =>
        exact .inr ⟨parent, (placeNode_up_iff places building pk parent).mpr
          ⟨place, hoffered, hparent⟩⟩
    · rintro (hroot | ⟨parent, hup⟩)
      · obtain ⟨place, hoffered, _⟩ := (placeNode_root_iff places building pk).mp hroot
        exact ⟨place, hoffered⟩
      · obtain ⟨place, hoffered, _⟩ := (placeNode_up_iff places building pk parent).mp hup
        exact ⟨place, hoffered⟩
  have hiff := rooted_iff _ (within_keys places building)
    (fun pk => ∃ place, Offered places building pk place) hgood
  have hall : AllAccepted places building (activeLocationTree C places building) ↔
      ∀ pk, (∃ place, Offered places building pk place) →
        Rooted (placeNode places building) pk := by
    constructor
    · rintro h pk ⟨place, hoffered⟩
      exact h (pk, place) ((mem_activeLocationTree C places building pk place).mpr hoffered)
    · intro h r hr
      exact h r.1 ⟨r.2, (mem_activeLocationTree C places building r.1 r.2).mp hr⟩
  rw [hall, hiff]
  refine and_congr_left fun _ => ?_
  constructor
  · intro h r hr parent hparent
    have hoffered := (mem_activeLocationTree C places building r.1 r.2).mp hr
    obtain ⟨place, hplace⟩ := h r.1 parent
      ((placeNode_up_iff places building r.1 parent).mpr ⟨r.2, hoffered, hparent⟩)
    exact ⟨place, (mem_activeLocationTree C places building parent place).mpr hplace⟩
  · intro h pk parent hup
    obtain ⟨place, hoffered, hparent⟩ := (placeNode_up_iff places building pk parent).mp hup
    obtain ⟨next, hnext⟩ := h (pk, place)
      ((mem_activeLocationTree C places building pk place).mpr hoffered) parent hparent
    exact ⟨next, (mem_activeLocationTree C places building parent next).mp hnext⟩

/-- **Which lists are accepted whole and put parents first.** -/
theorem accepted_and_ordered_iff (C : Collation) (places : Table Place) (building : ℕ) :
    (AllAccepted places building (activeLocationTree C places building) ∧
        ParentsFirst (activeLocationTree C places building)) ↔
      ∀ r ∈ activeLocationTree C places building, r.2.parent = none := by
  constructor
  · rintro ⟨haccepted, hfirst⟩ r hr
    obtain ⟨n, hn⟩ := haccepted r hr
    have hoffered := (mem_activeLocationTree C places building r.1 r.2).mp hr
    cases hparent : r.2.parent with
    | none => rfl
    | some parent =>
      have hup := (placeNode_up_iff places building r.1 parent).mpr ⟨r.2, hoffered, hparent⟩
      cases hn with
      | root _ hroot => cases hroot.symm.trans hup
      | up m _ next hnext hrest =>
        obtain ⟨child, root, hchild, hroot⟩ :=
          exists_child_of_root (RootedAt.up m r.1 next hnext hrest)
        obtain ⟨place, hplace, hpoints⟩ := (placeNode_up_iff places building child root).mp hchild
        obtain ⟨top, htop, hnone⟩ := (placeNode_root_iff places building root).mp hroot
        exact absurd hfirst (not_parentsFirst C places building hplace hpoints htop hnone)
  · intro hroots
    constructor
    · intro r hr
      have hoffered := (mem_activeLocationTree C places building r.1 r.2).mp hr
      exact ⟨0, .root r.1 ((placeNode_root_iff places building r.1).mpr
        ⟨r.2, hoffered, hroots r hr⟩)⟩
    · intro before after pk place parent htree hparent
      have hnone := hroots (pk, place) (by rw [htree]; simp)
      rw [hparent] at hnone
      cases hnone

/-- **When the offered locations are accepted, parents first.** Whatever the parent pointers,
both walks end and accept the same locations, those whose chain of active locations of the
building ends at a root. All that is offered is accepted exactly when the parents are offered
too and there is no cycle; and the order keeps its promise as well exactly when no offered
location has a parent. -/
theorem offered_locations_iff (C : Collation) (places : Table Place) (building : ℕ) :
    (∀ pk, ∃ v, Walks (placeNode places building) [] pk v ∧
      (∀ w, Walks (placeNode places building) [] pk w → w = v) ∧
      pathEnd (pathNames places building places.rows.length [] pk) = v) ∧
    (∀ pk, (∃ names, pathNames places building places.rows.length [] pk = .ok names) ↔
      Rooted (placeNode places building) pk) ∧
    (∀ db, SameLocations db places → ∀ pk,
      (activeLocation db pk building = .ok () ↔ Rooted (placeNode places building) pk)) ∧
    (AllAccepted places building (activeLocationTree C places building) ↔
      (∀ r ∈ activeLocationTree C places building, ∀ parent, r.2.parent = some parent →
        ∃ place, (parent, place) ∈ activeLocationTree C places building) ∧
      ∀ pk, ¬ Relation.TransGen (Points (placeNode places building)) pk pk) ∧
    ((AllAccepted places building (activeLocationTree C places building) ∧
        ParentsFirst (activeLocationTree C places building)) ↔
      ∀ r ∈ activeLocationTree C places building, r.2.parent = none) := by
  refine ⟨fun pk => ?_, pathNames_accepts_iff places building,
    fun db hsame pk => activeLocation_accepts_iff db places hsame building pk,
    allAccepted_iff C places building, accepted_and_ordered_iff C places building⟩
  obtain ⟨v, hv⟩ := exists_walks _ (within_keys places building) [] List.nodup_nil
    (fun _ hs => absurd hs List.not_mem_nil) pk
  refine ⟨v, hv, fun w hw => hw.unique hv, ?_⟩
  exact pathEnd_of_walks places building places.rows.length [] pk v hv List.nodup_nil
    (fun _ hs => absurd hs List.not_mem_nil) (Nat.le_refl _)

/-! ## A wing that was closed -/

/-- Names by their code points. -/
def codePoints : Collation where
  le a b := decide (a ≤ b)
  le_total a b := by
    rw [Bool.or_eq_true, decide_eq_true_eq, decide_eq_true_eq]
    exact le_total a b
  le_trans a b c hab hbc := by
    rw [decide_eq_true_eq] at hab hbc ⊢
    exact le_trans hab hbc
  le_antisymm a b hab hba := by
    rw [decide_eq_true_eq] at hab hba
    exact le_antisymm hab hba

/-- A tower with one floor, and a closed wing whose room is still active. -/
def towerAndWing : Table Place :=
  (((Table.empty.insert ⟨7, "Tower".toList, true, none⟩).insert
    ⟨7, "Floor 1".toList, true, some 1⟩).insert
    ⟨7, "Wing".toList, false, none⟩).insert ⟨7, "Room".toList, true, some 3⟩

/-- The room is offered and refused by the walk, and the floor comes before the tower. -/
theorem offered_location_refused :
    ((4, ⟨7, "Room".toList, true, some 3⟩) ∈ activeLocationTree codePoints towerAndWing 7 ∧
      ¬ ∃ names, pathNames towerAndWing 7 towerAndWing.rows.length [] 4 = .ok names) ∧
      ¬ ParentsFirst (activeLocationTree codePoints towerAndWing 7) := by
  refine ⟨⟨?_, ?_⟩, ?_⟩
  · exact (mem_activeLocationTree codePoints towerAndWing 7 4 _).mpr ⟨by decide, by decide, rfl⟩
  · have hrefused : pathNames towerAndWing 7 towerAndWing.rows.length [] 4 =
        .error (.validation hierarchyMessage) := by decide
    rw [hrefused]
    exact nofun
  · have hfloor : Offered towerAndWing 7 2 ⟨7, "Floor 1".toList, true, some 1⟩ :=
      ⟨by decide, rfl, rfl⟩
    have htower : Offered towerAndWing 7 1 ⟨7, "Tower".toList, true, none⟩ :=
      ⟨by decide, rfl, rfl⟩
    exact not_parentsFirst codePoints towerAndWing 7 hfloor rfl htower rfl

end LamTo.Analysis
