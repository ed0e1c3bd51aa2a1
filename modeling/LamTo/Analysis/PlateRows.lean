import LamTo.Library.Transition
import LamTo.Model.GateReaders

/-!
# Plates, and the events they are named in

The calls at the gate work on rows that they have read before. What they rely on is that a key
never changes hands: the occupancy and the text of a plate are the same whenever a row stands
under its key, also after `save()` has inserted a deleted row again. `GateInv` is stated over such
an assignment of keys, `owner`, which only an insertion extends.

* Every row is in the building of its occupancy, has a normal text, and is approved by a manager
  of that building, or not at all.
* No two rows clash.
* An event that names a plate names a row that is there, and has its occupancy and its text.

A step writes one row, deletes one, or writes an event; `GateInv.put`, `GateInv.drop` and
`GateInv.log` are these cases.

SOURCE: src/lamto/gate/{recognition,matching,enrollment,review}.py
-/

set_option autoImplicit false

namespace LamTo.Analysis

open LamTo.Library LamTo.Model

/-- The text has the form in which plates are stored. -/
def IsNormalPlate (K : ReaderConfig) (plate : Text) : Prop :=
  ∃ raw, normalizePlate K.folding raw = .ok plate

/-- A manager of the building of the row has decided on it. -/
def DecidedAtHome (K : ReaderConfig) (row : VehiclePlate) : Prop :=
  ∃ m, row.reviewedBy = some (K.manager m).user ∧ (K.manager m).building = row.building

/-- What a row under a key is like. -/
structure PlateFits (K : ReaderConfig) (owner : ℕ → ℕ × Text) (pk : ℕ) (row : VehiclePlate) :
    Prop where
  owned : owner pk = (row.occupancy, row.plate)
  home : row.building = K.homeBuilding row.occupancy
  normal : IsNormalPlate K row.plate
  approved : row.status = .approved → DecidedAtHome K row

/-- What an event is like. -/
structure EventFits (K : ReaderConfig) (owner : ℕ → ℕ × Text) (plates : Table VehiclePlate)
    (e : GateEvent) : Prop where
  read : e.building = (K.reader e.device).building
  home : ∀ occupancy, e.matchedOccupancy = some occupancy → K.homeBuilding occupancy = e.building
  named : ∀ pk, e.matchedPlate = some pk → (plates.get? pk).isSome = true ∧
    e.matchedOccupancy = some (owner pk).1 ∧ e.normalizedPlateText = (owner pk).2

/-- The row that a call has read, with its key. -/
structure ReadRow (K : ReaderConfig) (owner : ℕ → ℕ × Text) (next pk : ℕ) (row : VehiclePlate) :
    Prop where
  positive : 0 < pk
  drawn : pk < next
  fits : PlateFits K owner pk row

/-- What a call has read. -/
def PhaseFits (K : ReaderConfig) (owner : ℕ → ℕ × Text) (next : ℕ) : ReadingPhase → Prop
  | .checked _ plate | .creating _ plate | .refetching _ plate => IsNormalPlate K plate
  | .reopening pk row => ReadRow K owner next pk row
  | .reviewing m pk row | .approving m pk row =>
    ReadRow K owner next pk row ∧ (K.manager m).building = row.building
  | .sawPlate device _ normalized found => ∀ pk row, found = some (pk, row) →
    ReadRow K owner next pk row ∧ row.building = (K.reader device).building ∧
      row.plate = normalized
  | .sawFace device _ found => ∀ occupancy, found.occupancy = some occupancy →
    K.homeBuilding occupancy = (K.reader device).building
  | .idle | .finished _ => True

/-- No two rows clash. -/
def PlatesApart (plates : Table VehiclePlate) : Prop :=
  ∀ p q a b, plates.get? p = some a → plates.get? q = some b → a.clashes b = true → p = q

structure GateInv {C : Type} (K : ReaderConfig) (owner : ℕ → ℕ × Text) (s : ReadingState C) :
    Prop where
  rows : ∀ pk row, s.plates.get? pk = some row → PlateFits K owner pk row
  apart : PlatesApart s.plates
  events : ∀ pk e, s.events.get? pk = some e → EventFits K owner s.plates e
  phases : ∀ c, PhaseFits K owner s.plates.next (s.phase c)

/-! ## A larger assignment of keys -/

section Extension

variable {K : ReaderConfig} {owner owner' : ℕ → ℕ × Text} {next next' : ℕ}

theorem PlateFits.extend {pk : ℕ} {row : VehiclePlate} (h : PlateFits K owner pk row)
    (howner : owner' pk = owner pk) : PlateFits K owner' pk row :=
  ⟨howner.trans h.owned, h.home, h.normal, h.approved⟩

theorem ReadRow.extend {pk : ℕ} {row : VehiclePlate} (h : ReadRow K owner next pk row)
    (hnext : next ≤ next') (howner : ∀ q, q < next → owner' q = owner q) :
    ReadRow K owner' next' pk row :=
  ⟨h.positive, lt_of_lt_of_le h.drawn hnext, h.fits.extend (howner pk h.drawn)⟩

theorem PhaseFits.extend {phase : ReadingPhase} (h : PhaseFits K owner next phase)
    (hnext : next ≤ next') (howner : ∀ q, q < next → owner' q = owner q) :
    PhaseFits K owner' next' phase := by
  cases phase with
  | idle | finished => trivial
  | checked | creating | refetching => exact h
  | reopening pk row => exact ReadRow.extend h hnext howner
  | reviewing m pk row => exact ⟨h.1.extend hnext howner, h.2⟩
  | approving m pk row => exact ⟨h.1.extend hnext howner, h.2⟩
  | sawPlate device raw normalized found =>
    intro pk row hfound
    obtain ⟨hread, hrest⟩ := h pk row hfound
    exact ⟨hread.extend hnext howner, hrest⟩
  | sawFace device result found => exact h

theorem EventFits.extend {plates plates' : Table VehiclePlate} {e : GateEvent}
    (h : EventFits K owner plates e) (howner : ∀ q, q < plates.next → owner' q = owner q)
    (hkept : ∀ pk, e.matchedPlate = some pk → (plates.get? pk).isSome = true →
      (plates'.get? pk).isSome = true) : EventFits K owner' plates' e := by
  refine ⟨h.read, h.home, fun pk hpk => ?_⟩
  obtain ⟨hsome, hmatched, htext⟩ := h.named pk hpk
  obtain ⟨row, hrow⟩ := Option.isSome_iff_exists.mp hsome
  have hsame := howner pk (plates.lt_next_of_get? pk row hrow)
  rw [hsame]
  exact ⟨hkept pk hpk hsome, hmatched, htext⟩

end Extension

/-! ## The constraints -/

theorem clashes_symm (a b : VehiclePlate) (h : a.clashes b = true) : b.clashes a = true := by
  simp only [VehiclePlate.clashes, Bool.or_eq_true, Bool.and_eq_true, decide_eq_true_eq] at h ⊢
  rcases h with ⟨hoccupancy, hplate⟩ | ⟨⟨⟨ha, hb⟩, hbuilding⟩, hplate⟩
  · exact .inl ⟨hoccupancy.symm, hplate.symm⟩
  · exact .inr ⟨⟨⟨hb, ha⟩, hbuilding.symm⟩, hplate.symm⟩

/-- A row clashes with none of the others. -/
theorem platesAdmit_iff (plates : Table VehiclePlate) (pk : ℕ) (row : VehiclePlate) :
    platesAdmit plates pk row = true ↔
      ∀ q a, plates.get? q = some a → row.clashes a = true → q = pk := by
  simp only [platesAdmit, List.all_eq_true, Bool.or_eq_true, decide_eq_true_eq, Bool.not_eq_true',
    Prod.forall, Table.get?_eq_some]
  constructor
  · intro h q a ha hclash
    rcases h q a ha with heq | hfree
    · exact heq
    · rw [hclash] at hfree
      cases hfree
  · intro h q a ha
    cases hclash : row.clashes a with
    | false => exact .inr rfl
    | true => exact .inl (h q a ha hclash)

theorem PlatesApart.put {plates plates' : Table VehiclePlate} (h : PlatesApart plates) (pk : ℕ)
    (row : VehiclePlate)
    (hget : ∀ q, plates'.get? q = if q = pk then some row else plates.get? q)
    (hallows : platesAdmit plates pk row = true) : PlatesApart plates' := by
  rw [platesAdmit_iff] at hallows
  intro p q a b ha hb hclash
  rw [hget] at ha hb
  split at ha
  · next hp =>
    cases ha
    split at hb
    · next hq => rw [hp, hq]
    · rw [hp, hallows q b hb hclash]
  · next hp =>
    split at hb
    · cases hb
      exact absurd (hallows p a ha (clashes_symm a row hclash)) hp
    · exact h p q a b ha hb hclash

/-! ## Steps -/

section Steps

variable {C : Type} {K : ReaderConfig} {owner : ℕ → ℕ × Text} {s : ReadingState C}

/-- **A row is deleted** with the events that name it. -/
theorem GateInv.drop (h : GateInv K owner s) (occupancy pk : ℕ) :
    GateInv K owner (s.revoke occupancy pk) := by
  unfold ReadingState.revoke
  split
  · split
    · refine ⟨?_, ?_, ?_, h.phases⟩
      · intro q a ha
        exact h.rows q a ((Table.get?_remove _ _ _ _).mp ha).1
      · intro p q a b ha hb
        exact h.apart p q a b ((Table.get?_remove _ _ _ _).mp ha).1
          ((Table.get?_remove _ _ _ _).mp hb).1
      · intro q e he
        obtain ⟨he, hkept⟩ := (Table.get?_remove _ _ _ _).mp he
        refine (h.events q e he).extend (fun _ _ => rfl) fun p hp hsome => ?_
        obtain ⟨row, hrow⟩ := Option.isSome_iff_exists.mp hsome
        have hne : p ≠ pk := by
          rintro rfl
          simp [hp] at hkept
        exact Option.isSome_iff_exists.mpr
          ⟨row, (Table.get?_remove _ _ _ _).mpr ⟨hrow, by simpa using hne⟩⟩
    · exact h
  · exact h

variable [DecidableEq C]

theorem phases_update {P : ReadingPhase → Prop} (phases : C → ReadingPhase) (c : C)
    (phase : ReadingPhase) (h : ∀ d, P (phases d)) (hphase : P phase) (d : C) :
    P (Function.update phases c phase d) := by
  by_cases hd : d = c
  · subst hd
    rw [Function.update_self]
    exact hphase
  · rw [Function.update_of_ne hd]
    exact h d

/-- **A call moves on**, and nothing else. -/
theorem GateInv.move (h : GateInv K owner s) (c : C) (phase : ReadingPhase)
    (hphase : PhaseFits K owner s.plates.next phase) : GateInv K owner (s.setPhase c phase) :=
  ⟨h.rows, h.apart, h.events, phases_update s.phase c phase h.phases hphase⟩

theorem GateInv.finish (h : GateInv K owner s) (c : C) (result : ReadingResult) :
    GateInv K owner (s.finish c result) := h.move c _ trivial

/-- **A row is written** under a key, and its call is finished. -/
theorem GateInv.put (h : GateInv K owner s) (owner' : ℕ → ℕ × Text) (c : C) (pk : ℕ)
    (row : VehiclePlate) (plates : Table VehiclePlate) (result : ReadingResult)
    (hget : ∀ q, plates.get? q = if q = pk then some row else s.plates.get? q)
    (hnext : s.plates.next ≤ plates.next)
    (howner : ∀ q, q < s.plates.next → owner' q = owner q) (hrow : PlateFits K owner' pk row)
    (hallows : platesAdmit s.plates pk row = true) :
    GateInv K owner' ({ s with plates := plates }.finish c result) := by
  refine ⟨?_, h.apart.put pk row hget hallows, ?_, ?_⟩
  · intro q a ha
    change plates.get? q = some a at ha
    rw [hget] at ha
    split at ha
    · next hq =>
      cases ha
      rw [hq]
      exact hrow
    · exact (h.rows q a ha).extend (howner q (s.plates.lt_next_of_get? q a ha))
  · intro q e he
    refine (h.events q e he).extend howner fun p _ hsome => ?_
    show (plates.get? p).isSome = true
    rw [hget]
    split
    · rfl
    · exact hsome
  · exact phases_update s.phase c _ (fun d => (h.phases d).extend hnext howner) trivial

/-- A row is written over the one under its key. -/
theorem GateInv.overwrite (h : GateInv K owner s) (c : C) (pk : ℕ) (row : VehiclePlate)
    (result : ReadingResult) (hsome : (s.plates.get? pk).isSome = true)
    (hrow : PlateFits K owner pk row) (hallows : platesAdmit s.plates pk row = true) :
    GateInv K owner
      ({ s with plates := s.plates.update pk fun _ => row }.finish c result) := by
  refine h.put owner c pk row _ result (fun q => ?_) (le_refl _) (fun _ _ => rfl) hrow hallows
  rw [Table.get?_update]
  split
  · next hq =>
    obtain ⟨old, hold⟩ := Option.isSome_iff_exists.mp hsome
    rw [hq, hold]
    rfl
  · rfl

/-- **An event is written**, when the plate it names is there. -/
theorem GateInv.log (h : GateInv K owner s) (c : C) (event : GateEvent)
    (hevent : (event.matchedPlate.all fun pk => (s.plates.get? pk).isSome) = true →
      EventFits K owner s.plates event) : GateInv K owner (s.record K c event) := by
  unfold ReadingState.record
  split
  · next hplate =>
    split
    · exact h.finish c _
    · refine ⟨h.rows, h.apart, ?_, phases_update s.phase c _ h.phases trivial⟩
      intro q e he
      change (s.events.insert event).get? q = some e at he
      rw [Table.get?_insert] at he
      split at he
      · cases he
        exact hevent hplate
      · exact h.events q e he
  · exact h.finish c _

end Steps

end LamTo.Analysis
