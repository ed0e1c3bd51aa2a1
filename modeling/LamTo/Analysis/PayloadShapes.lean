import LamTo.Analysis.CaseSteps
import LamTo.Analysis.PublishedEntries
import LamTo.Analysis.TerminalReports
import LamTo.Analysis.Timestamps

/-!
# What an anchored payload may carry

`_validate_payload` keeps free text out of the payloads whose digests are anchored: numbers,
digests, one literal and timestamps are all that passes. The test of a timestamp takes the
decimal digits of any script, so that a text `utc_rfc3339` never writes can pass it.

* **The tests** (`validatePayload_eq_ok`): the keys are within the schema, the required ones
  are there, and every value has the shape of its key.
* **The shapes** (`meant_of_accepts`): what passes is of the kind it is meant to be, when a
  timestamp is in ASCII (`opaque_iff`).
* **The producers** (`validatePayload_submission`, `validatePayload_settlement`): what the two
  services build is accepted. The ids they fill in are keys of rows, which are positive; the
  building of a proposal is one by `BuildingsInv`.

SOURCE: src/lamto/evidence/services.py:19-119, src/lamto/finance/proposals.py:93-148,
src/lamto/finance/settlements.py:27-29
-/

set_option autoImplicit false

namespace LamTo.Analysis

open LamTo.Library LamTo.Model

/-! ## The tests -/

/-- A dictionary with string keys. -/
def dictOf (members : List (Text × PyValue)) : PyValue :=
  .dict (members.map fun m => (.str m.1, m.2))

theorem stringKeys_eq_some (ms : List (PyKey × PyValue)) (members : List (Text × PyValue)) :
    stringKeys ms = some members ↔ ms = members.map fun m => (.str m.1, m.2) := by
  unfold stringKeys
  induction ms generalizing members with
  | nil => cases members <;> simp
  | cons m ms ih =>
    obtain ⟨k, v⟩ := m
    rw [List.mapM_cons]
    cases k with
    | other typeName => cases members <;> simp
    | str k =>
      simp only [Option.bind_eq_bind, Option.bind_some, Option.bind_eq_some_iff, ih,
        Option.pure_def, Option.some.injEq]
      constructor
      · rintro ⟨rest, rfl, rfl⟩
        rfl
      · intro h
        cases members with
        | nil => cases h
        | cons n rest =>
          obtain ⟨hhead, htail⟩ := List.cons.inj h
          cases hhead
          exact ⟨rest, htail, rfl⟩

/-- What the tests leave through. -/
structure WellShaped (U : Unicode) (schema : Schema) (members : List (Text × PyValue)) : Prop where
  shaped : ∀ m ∈ members, ∃ shape, schema.shape m.1 = some shape ∧ shape.accepts U m.2 = true
  complete : ∀ f ∈ schema.required, f.1 ∈ members.map Prod.fst

/-- The tests of a dictionary with string keys. -/
theorem wellShaped_iff (U : Unicode) (schema : Schema) (members : List (Text × PyValue)) :
    WellShaped U schema members ↔
      (members.all fun m => (schema.shape m.1).isSome) = true ∧
      (schema.required.filter fun f => !(members.map Prod.fst).contains f.1).isEmpty = true ∧
      ∀ m ∈ members, ((schema.shape m.1).map fun s => s.accepts U m.2) = some true := by
  rw [List.isEmpty_iff, List.filter_eq_nil_iff, List.all_eq_true]
  constructor
  · intro h
    refine ⟨fun m hm => ?_, fun f hf => ?_, fun m hm => ?_⟩
    · obtain ⟨shape, hshape, _⟩ := h.shaped m hm
      rw [hshape]
      rfl
    · rw [List.contains_iff_mem.mpr (h.complete f hf)]
      exact Bool.false_ne_true
    · obtain ⟨shape, hshape, haccepts⟩ := h.shaped m hm
      rw [hshape, Option.map_some, haccepts]
  · rintro ⟨_, hmissing, hshapes⟩
    constructor
    · intro m hm
      obtain ⟨shape, hshape, haccepts⟩ := Option.map_eq_some_iff.mp (hshapes m hm)
      exact ⟨shape, hshape, haccepts⟩
    · intro f hf
      have hfound := hmissing f hf
      rw [Bool.not_eq_true', Bool.not_eq_false] at hfound
      exact List.contains_iff_mem.mp hfound

/-- **The payloads that are accepted.** -/
theorem validatePayload_eq_ok (U : Unicode) (eventType : ℕ) (payload : PyValue) :
    validatePayload U eventType payload = .ok () ↔
      ∃ schema members, payloadSchema eventType = some schema ∧ payload = dictOf members ∧
        WellShaped U schema members := by
  cases payload with
  | dict ms =>
    simp only [validatePayload, bind_eq_ok, orRaise_eq_ok, require_eq_ok, forM_eq_ok, dictOf,
      PyValue.dict.injEq, stringKeys_eq_some, wellShaped_iff]
    constructor
    · rintro ⟨schema, hschema, members, hmembers, _, hknown, _, hmissing, hshapes⟩
      exact ⟨schema, members, hschema, hmembers, hknown, hmissing, hshapes⟩
    · rintro ⟨schema, members, hschema, hmembers, hknown, hmissing, hshapes⟩
      exact ⟨schema, hschema, members, hmembers, (), hknown, (), hmissing, hshapes⟩
  | _ => simp [validatePayload, bind_eq_ok, dictOf]

/-! ## What the values are meant to be -/

/-- Sixty-four lower-case hexadecimal digits, with `0x` in front or not. -/
def HashText (s : Text) : Prop :=
  ∃ digits : Text, digits.length = 64 ∧ (∀ c ∈ digits, isLowerHex c = true) ∧
    (s = digits ∨ s = '0' :: 'x' :: digits)

theorem hashText_of_isHashText (s : Text) (h : isHashText s = true) : HashText s := by
  rcases Bool.or_eq_true_iff.mp h with hbare | hprefixed
  · obtain ⟨hlength, hdigits⟩ := (isHash64_iff s).mp hbare
    exact ⟨s, hlength, hdigits, .inl rfl⟩
  · obtain ⟨digits, rfl, hhash⟩ := (isBytes32Text_iff s).mp hprefixed
    obtain ⟨hlength, hdigits⟩ := (isHash64_iff digits).mp hhash
    exact ⟨digits, hlength, hdigits, .inr rfl⟩

/-- The values a payload is meant to carry, by shape: numbers, digests, the one literal and the
timestamps `utc_rfc3339` writes. -/
inductive Meant : Shape → PyValue → Prop where
  | id (i : ℤ) (positive : 0 < i) : Meant .id (.int i)
  | positiveInt (i : ℤ) (positive : 0 < i) : Meant .positiveInt (.int i)
  | money (i : ℤ) (nonnegative : 0 ≤ i) : Meant .money (.int i)
  | hash (s : Text) (digest : HashText s) : Meant .hash (.str s)
  | hashes (texts : List Text) (digests : ∀ s ∈ texts, HashText s) :
      Meant .hashes (.list (texts.map .str))
  | literal : Meant (.oneOf ["settlement.v2".toList]) (.str "settlement.v2".toList)
  | timestamp (t : UtcTime) : Meant .timestamp (.str (utcRfc3339 t))

/-- **An opaque payload**: its keys are within the schema of its type, the required ones are
there, and every value is of the kind it is meant to be. -/
def OpaquePayload (eventType : ℕ) (payload : PyValue) : Prop :=
  ∃ schema members, payloadSchema eventType = some schema ∧ payload = dictOf members ∧
    (∀ m ∈ members, ∃ shape, schema.shape m.1 = some shape ∧ Meant shape m.2) ∧
    ∀ f ∈ schema.required, f.1 ∈ members.map Prod.fst

/-- The timestamp of the payload, when it has one, is in ASCII. -/
def SettledAtAscii (payload : PyValue) : Prop :=
  ∀ members s, payload = dictOf members → ("settled_at".toList, PyValue.str s) ∈ members → Ascii s

/-- The shapes of the two schemas. -/
def anchoredShapes : List Shape :=
  [.id, .positiveInt, .money, .hash, .hashes, .timestamp, .oneOf ["settlement.v2".toList]]

/-- A field of a schema is listed there. -/
theorem mem_of_shape (schema : Schema) (field : Text) (shape : Shape)
    (h : schema.shape field = some shape) :
    (field, shape) ∈ schema.required ++ schema.optional := by
  obtain ⟨⟨k, _⟩, hfind, rfl⟩ := Option.map_eq_some_iff.mp h
  have hkey := List.find?_some hfind
  rw [decide_eq_true_eq] at hkey
  rw [← hkey]
  exact List.mem_of_find?_eq_some hfind

theorem proposalSchema_shapes : ∀ f ∈ proposalSchema.required ++ proposalSchema.optional,
    f.2 ∈ anchoredShapes ∧ f.2 ≠ .timestamp := by
  simp only [proposalSchema, List.cons_append, List.nil_append, List.forall_mem_cons,
    List.not_mem_nil, false_imp_iff, implies_true, and_true, anchoredShapes]
  simp

theorem settlementSchema_shapes : ∀ f ∈ settlementSchema.required ++ settlementSchema.optional,
    f.2 ∈ anchoredShapes ∧ (f.2 = .timestamp → f.1 = "settled_at".toList) := by
  simp only [settlementSchema, List.append_nil, List.forall_mem_cons, List.not_mem_nil,
    false_imp_iff, implies_true, and_true, anchoredShapes]
  simp

theorem anchoredShapes_of_shape (eventType : ℕ) (schema : Schema) (field : Text) (shape : Shape)
    (hschema : payloadSchema eventType = some schema) (h : schema.shape field = some shape) :
    shape ∈ anchoredShapes ∧ (shape = .timestamp → field = "settled_at".toList) := by
  have hmem := mem_of_shape schema field shape h
  unfold payloadSchema at hschema
  split at hschema
  · cases hschema
    obtain ⟨hshape, hother⟩ := proposalSchema_shapes _ hmem
    exact ⟨hshape, fun htime => absurd htime hother⟩
  · split at hschema
    · cases hschema
      exact settlementSchema_shapes _ hmem
    · cases hschema

/-- A list whose items are all digests. -/
theorem hashTexts_of_all (xs : List PyValue)
    (h : ∀ x ∈ xs, (match x with
      | .str s => isHashText s
      | _ => false) = true) :
    ∃ texts : List Text, xs = texts.map .str ∧ ∀ s ∈ texts, HashText s := by
  induction xs with
  | nil => exact ⟨[], rfl, fun _ hs => by cases hs⟩
  | cons x xs ih =>
    obtain ⟨hx, hxs⟩ := List.forall_mem_cons.mp h
    obtain ⟨texts, rfl, htexts⟩ := ih hxs
    cases x with
    | str s =>
      exact ⟨s :: texts, rfl, List.forall_mem_cons.mpr ⟨hashText_of_isHashText s hx, htexts⟩⟩
    | _ => cases hx

/-- An accepted value is of the kind it is meant to be, when a timestamp is in ASCII. -/
theorem meant_of_accepts (U : Unicode) (shape : Shape) (v : PyValue)
    (hshape : shape ∈ anchoredShapes) (h : shape.accepts U v = true)
    (hascii : shape = .timestamp → ∀ s, v = .str s → Ascii s) :
    Meant shape v := by
  simp only [anchoredShapes, List.mem_cons, List.not_mem_nil, or_false] at hshape
  rcases hshape with rfl | rfl | rfl | rfl | rfl | rfl | rfl
  · cases v with
    | int i => exact .id i (of_decide_eq_true h)
    | _ => cases h
  · cases v with
    | int i => exact .positiveInt i (of_decide_eq_true h)
    | _ => cases h
  · cases v with
    | int i => exact .money i (of_decide_eq_true h)
    | _ => cases h
  · cases v with
    | str s => exact .hash s (hashText_of_isHashText s h)
    | _ => cases h
  · cases v with
    | list xs =>
      simp only [Shape.accepts, Bool.and_eq_true, List.all_eq_true] at h
      obtain ⟨texts, rfl, htexts⟩ := hashTexts_of_all xs h.2
      exact .hashes texts htexts
    | _ => cases h
  · cases v with
    | str s =>
      obtain ⟨t, rfl⟩ := utcRfc3339_of_valid U s (hascii rfl s rfl) h
      exact .timestamp t
    | _ => cases h
  · cases v with
    | str s =>
      have hs : s = "settlement.v2".toList := by simpa [Shape.accepts] using h
      rw [hs]
      exact .literal
    | _ => cases h

theorem dictOf_injective (members members' : List (Text × PyValue))
    (h : dictOf members = dictOf members') : members = members' := by
  have hinj : Function.Injective fun m : Text × PyValue => (PyKey.str m.1, m.2) := by
    rintro ⟨k, v⟩ ⟨k', v'⟩ heq
    cases heq
    rfl
  exact List.map_injective_iff.mpr hinj (PyValue.dict.inj h)

/-- Only settlements have a timestamp. -/
theorem shape_settledAt (eventType : ℕ) (schema : Schema)
    (hschema : payloadSchema eventType = some schema) :
    schema.shape "settled_at".toList = none ∨
      schema.shape "settled_at".toList = some .timestamp := by
  unfold payloadSchema at hschema
  split at hschema
  · cases hschema
    exact .inl rfl
  · split at hschema
    · cases hschema
      exact .inr rfl
    · cases hschema

/-- **When an accepted payload is opaque.** -/
theorem opaque_iff (U : Unicode) (eventType : ℕ) (payload : PyValue)
    (h : validatePayload U eventType payload = .ok ()) :
    OpaquePayload eventType payload ↔ SettledAtAscii payload := by
  obtain ⟨schema, members, hschema, rfl, hshaped⟩ :=
    (validatePayload_eq_ok U eventType payload).mp h
  constructor
  · rintro ⟨schema', members', hschema', hsame, hmeant, _⟩ other s hother hmem
    cases hschema.symm.trans hschema'
    rw [dictOf_injective _ _ (hother.symm.trans hsame)] at hmem
    obtain ⟨shape, hshape, hvalue⟩ := hmeant _ hmem
    rcases shape_settledAt eventType schema hschema with hnone | htime
    · cases hnone.symm.trans hshape
    · cases htime.symm.trans hshape
      cases hvalue
      exact ascii_utcRfc3339 _
  · intro hascii
    refine ⟨schema, members, hschema, rfl, fun m hm => ?_, hshaped.complete⟩
    obtain ⟨shape, hshape, haccepts⟩ := hshaped.shaped m hm
    obtain ⟨hanchored, hfield⟩ := anchoredShapes_of_shape eventType schema m.1 shape hschema hshape
    refine ⟨shape, hshape, meant_of_accepts U shape m.2 hanchored haccepts fun htime s hs => ?_⟩
    refine hascii members s rfl ?_
    rw [← hfield htime, ← hs]
    exact hm

/-! ## Ids are positive -/

/-- The buildings that memberships, reports, cases and proposals name have positive keys. -/
structure BuildingsInv (db : Db) : Prop where
  member : ∀ pk m, db.memberships.get? pk = some m → 0 < m.building
  report : ∀ pk r, db.reports.get? pk = some r → 0 < r.building
  case : ∀ pk c, db.cases.get? pk = some c → 0 < c.building
  proposal : ∀ pk p, db.proposals.get? pk = some p → 0 < p.building

theorem buildingsInv_empty : BuildingsInv Db.empty where
  member _ _ h := by cases h
  report _ _ h := by cases h
  case _ _ h := by cases h
  proposal _ _ h := by cases h

/-- What a step does to memberships. -/
theorem memberships_kept (C : EvidenceConfig) (db db' : Db) (a : Command)
    (h : Db.step C db a = some db') (pk : ℕ) (m : Membership)
    (hm : db'.memberships.get? pk = some m) :
    (∃ n, db.memberships.get? pk = some n ∧ m.building = n.building) ∨ 0 < m.building := by
  cases service_effect C db db' a h with
  | setup _ hsetup => exact hsetup.members pk m hm
  | work _ hwork =>
    rw [hwork.sameRegisters.memberships] at hm
    exact .inl ⟨m, hm, rfl⟩
  | publish creator args p =>
    rw [p.result] at hm
    exact .inl ⟨m, hm, rfl⟩
  | settle now member transfer eventId s =>
    rw [s.result] at hm
    exact .inl ⟨m, hm, rfl⟩
  | openFund building fund funds _ result =>
    rw [result] at hm
    exact .inl ⟨m, hm, rfl⟩
  | record now entryType amountVnd evidence recorder fundEntryId aware r =>
    rw [r.result] at hm
    exact .inl ⟨m, hm, rfl⟩
  | verify now verifier v =>
    rw [v.result] at hm
    exact .inl ⟨m, hm, rfl⟩

theorem BuildingsInv.step (C : EvidenceConfig) (db db' : Db) (a : Command) (hinv : BuildingsInv db)
    (h : Db.step C db a = some db') : BuildingsInv db' := by
  refine ⟨fun pk m hm => ?_, fun pk r hr => ?_, fun pk c hc => ?_, fun pk p hp => ?_⟩
  · rcases memberships_kept C db db' a h pk m hm with ⟨n, hn, heq⟩ | hnew
    · rw [heq]
      exact hinv.member pk n hn
    · exact hnew
  · rcases (reports_stepped C db db' a h).found pk r hr with ⟨q, hq, hstep⟩ | ⟨_, _, hnew⟩
    · rw [hstep.building_eq]
      exact hinv.report pk q hq
    · exact hnew
  · rcases (cases_stepped C db db' a h).cases.found pk c hc with ⟨q, hq, hchange⟩ | ⟨_, hnew⟩
    · rw [hchange.building_eq]
      exact hinv.case pk q hq
    · cases hnew with
      | opened _ report _ _ _ _ _ _ _ row hrow _ _ hbuilding =>
        rw [hbuilding]
        exact hinv.report report row hrow
  · rcases (proposals_changed C db db' a h).found pk p hp with ⟨q, hq, hchange⟩ | ⟨_, hnew⟩
    · rw [hchange.building_eq]
      exact hinv.proposal pk q hq
    · cases hnew with
      | forCase _ case _ _ row hrow => exact hinv.case case row hrow
      | standalone _ _ _ _ member hmember hbuilding =>
        have hpos := hinv.member _ member hmember
        rw [hbuilding] at hpos
        exact hpos

theorem BuildingsInv.reachable (C : EvidenceConfig) (db : Db) (h : db.Reachable C) :
    BuildingsInv db := by
  refine h.preserves BuildingsInv ?_ buildingsInv_empty
  exact fun u a v hinv _ hstep => hinv.step C u v a hstep

/-! ## What the services build is accepted -/

theorem isHash64_jsonHash (C : EvidenceConfig) (j : Json) (h : Text) (hj : jsonHash C j = .ok h) :
    isHash64 h = true := by
  rw [jsonHash, liftCanonical_eq_ok, payloadHash_eq_ok] at hj
  obtain ⟨b, _, rfl⟩ := hj
  exact (isHash64_iff _).mpr ⟨C.hashing.sha256hex_length b, C.hashing.sha256hex_digit b⟩

theorem isHashText_of_hash64 (t : Text) (h : isHash64 t = true) : isHashText t = true := by
  rw [isHashText, h, Bool.true_or]

/-- The members of a JSON object, tested against a schema. -/
theorem validatePayload_obj (U : Unicode) (eventType : ℕ) (schema : Schema)
    (ms : List (Text × Json)) (hschema : payloadSchema eventType = some schema)
    (hshaped : ∀ m ∈ ms, ∃ shape, schema.shape m.1 = some shape ∧
      shape.accepts U (.ofJson m.2) = true)
    (hcomplete : ∀ f ∈ schema.required, f.1 ∈ ms.map Prod.fst) :
    validatePayload U eventType (.ofJson (.obj ms)) = .ok () := by
  refine (validatePayload_eq_ok U eventType _).mpr
    ⟨schema, ms.map fun m => (m.1, .ofJson m.2), hschema, ?_, ?_, ?_⟩
  · simp only [PyValue.ofJson, ofMembers_eq_map, dictOf, List.map_map, Function.comp_def]
  · intro m hm
    obtain ⟨n, hn, rfl⟩ := List.mem_map.mp hm
    exact hshaped n hn
  · intro f hf
    rw [List.map_map]
    exact hcomplete f hf

/-- **A proposal's payload is accepted.** -/
theorem validatePayload_submission (C : EvidenceConfig) (db : Db) (proposal : ℕ) (row : Proposal)
    (terms : Terms) (versions : List (ℕ × DocumentVersion)) (number : ℕ) (snap : Json)
    (members : List (Text × Json)) (hproposal : 0 < proposal) (hnumber : 0 < number)
    (hbuilding : 0 < row.building)
    (h : submissionSnapshot C db proposal row terms versions number = .ok (snap, members)) :
    validatePayload C.unicode proposalCreated (.ofJson (.obj members)) = .ok () := by
  simp only [submissionSnapshot, bind_eq_ok, pure_eq_ok, Prod.mk.injEq] at h
  obtain ⟨snapshotHash, hsnapshot, quotationHash, hquotation, caseMembers, hcase, _, rfl⟩ := h
  have hpos : ∀ n : ℕ, 0 < n → (0 : ℤ) < n := fun n hn => by exact_mod_cast hn
  have hsnapshot' := isHashText_of_hash64 _ (isHash64_jsonHash C _ _ hsnapshot)
  have hquotation' := isHashText_of_hash64 _ (isHash64_jsonHash C _ _ hquotation)
  have hspend : ∀ m ∈ spendFields proposal row terms.amountVnd number snapshotHash quotationHash,
      ∃ shape, proposalSchema.shape m.1 = some shape ∧
        shape.accepts C.unicode (.ofJson m.2) = true := by
    simp only [spendFields, List.forall_mem_cons, List.not_mem_nil, false_imp_iff, implies_true,
      and_true]
    exact ⟨⟨_, rfl, decide_eq_true (hpos _ hproposal)⟩, ⟨_, rfl, decide_eq_true (hpos _ hnumber)⟩,
      ⟨_, rfl, decide_eq_true (hpos _ hproposal)⟩, ⟨_, rfl, decide_eq_true (hpos _ hbuilding)⟩,
      ⟨_, rfl, decide_eq_true (Int.natCast_nonneg terms.amountVnd)⟩, ⟨_, rfl, hsnapshot'⟩,
      ⟨_, rfl, hquotation'⟩⟩
  have hcaseMembers : ∀ m ∈ caseMembers, ∃ shape, proposalSchema.shape m.1 = some shape ∧
      shape.accepts C.unicode (.ofJson m.2) = true := by
    unfold caseFields at hcase
    split at hcase
    · cases hcase
      exact fun _ h => by cases h
    · simp only [bind_eq_ok, getRow_eq_ok, pure_eq_ok] at hcase
      obtain ⟨c, hc, hash, hhash, rfl⟩ := hcase
      have hhash' := isHashText_of_hash64 _ (isHash64_jsonHash C _ _ hhash)
      simp only [List.forall_mem_cons, List.not_mem_nil, false_imp_iff, implies_true, and_true]
      exact ⟨⟨_, rfl, decide_eq_true (hpos _ (db.cases.pos_of_get? _ c hc))⟩, ⟨_, rfl, hhash'⟩⟩
  refine validatePayload_obj C.unicode proposalCreated proposalSchema _ rfl
    (List.forall_mem_append.mpr ⟨hspend, hcaseMembers⟩) ?_
  simp [proposalSchema, spendFields]

/-- The members of a settlement's payload. -/
def settlementMembers (settlement : ℕ) (row : Settlement) (number : ℕ) (sha256 settledAt : Text) :
    List (Text × Json) :=
  [("schema".toList, .str "settlement.v2".toList), ("settlement_id".toList, .int settlement),
    ("proposal_id".toList, .int row.proposal), ("proposal_version".toList, .int number),
    ("amount_vnd".toList, .int row.amountVnd), ("transfer_sha256".toList, .str sha256),
    ("settled_at".toList, .str settledAt)]

theorem validatePayload_settlementMembers (U : Unicode) (settlement : ℕ) (row : Settlement)
    (number : ℕ) (sha256 : Text) (t : UtcTime) (hsettlement : 0 < settlement)
    (hproposal : 0 < row.proposal) (hnumber : 0 < number) (hsha : isHash64 sha256 = true) :
    validatePayload U settlementType
      (.ofJson (.obj (settlementMembers settlement row number sha256 (utcRfc3339 t)))) = .ok () := by
  have hpos : ∀ n : ℕ, 0 < n → (0 : ℤ) < n := fun n hn => by exact_mod_cast hn
  refine validatePayload_obj U settlementType settlementSchema _ rfl ?_ ?_
  · simp only [settlementMembers, List.forall_mem_cons, List.not_mem_nil, false_imp_iff,
      implies_true, and_true]
    refine ⟨⟨_, rfl, ?_⟩, ⟨_, rfl, ?_⟩, ⟨_, rfl, ?_⟩, ⟨_, rfl, ?_⟩, ⟨_, rfl, ?_⟩, ⟨_, rfl, ?_⟩,
      ⟨_, rfl, ?_⟩⟩
    · simp [Shape.accepts, PyValue.ofJson]
    · exact decide_eq_true (hpos _ hsettlement)
    · exact decide_eq_true (hpos _ hproposal)
    · exact decide_eq_true (hpos _ hnumber)
    · exact decide_eq_true (Int.natCast_nonneg row.amountVnd)
    · exact isHashText_of_hash64 sha256 hsha
    · exact isValidUtcTimestamp_utcRfc3339 U t
  · simp [settlementSchema, settlementMembers]

/-- **A settlement's payload is accepted.** -/
theorem validatePayload_settlement (C : EvidenceConfig) (db : Db) (settlement : ℕ)
    (row : Settlement) (payload : Json) (hsettlement : 0 < settlement)
    (hnumber : ∀ pk v, db.versions.get? pk = some v → 0 < v.number)
    (hdigest : ∀ pk v, db.documentVersions.get? pk = some v → isHash64 v.sha256 = true)
    (h : buildSettlementEvidencePayload db settlement row = .ok payload) :
    validatePayload C.unicode settlementType (.ofJson payload) = .ok () := by
  simp only [buildSettlementEvidencePayload, bind_eq_ok, getRow_eq_ok, orRaise_eq_ok,
    pure_eq_ok] at h
  obtain ⟨proposal, hproposal, current, _, version, hversion, transfer, htransfer, settledAt, htime,
    rfl⟩ := h
  obtain ⟨t, rfl⟩ := utcText_eq_some _ _ htime
  exact validatePayload_settlementMembers C.unicode settlement row version.number transfer.sha256 t
    hsettlement (db.proposals.pos_of_get? _ _ hproposal) (hnumber current version hversion)
    (hdigest _ transfer htransfer)

/-- **Anchored payloads are opaque** exactly when the timestamp of a settlement is in ASCII; and
what the two services build in a reachable state is accepted. SOURCE: services.py:70-119 -/
theorem anchored_payloads_opaque_iff (C : EvidenceConfig) :
    (∀ eventType payload, validatePayload C.unicode eventType payload = .ok () →
      (OpaquePayload eventType payload ↔ SettledAtAscii payload)) ∧
    (∀ db : Db, db.Reachable C → ∀ proposal row, db.proposals.get? proposal = some row →
      ∀ terms versions number snap members, 0 < number →
        submissionSnapshot C db proposal row terms versions number = .ok (snap, members) →
          validatePayload C.unicode proposalCreated (.ofJson (.obj members)) = .ok ()) ∧
    (∀ db : Db, db.Reachable C → ∀ settlement row payload, 0 < settlement →
      buildSettlementEvidencePayload db settlement row = .ok payload →
        validatePayload C.unicode settlementType (.ofJson payload) = .ok ()) := by
  refine ⟨opaque_iff C.unicode, ?_, ?_⟩
  · intro db hreach proposal row hrow terms versions number snap members hnumber hsubmit
    have hbuilding := (BuildingsInv.reachable C db hreach).proposal proposal row hrow
    exact validatePayload_submission C db proposal row terms versions number snap members
      (db.proposals.pos_of_get? proposal row hrow) hnumber hbuilding hsubmit
  · intro db hreach settlement row payload hsettlement hbuilt
    have hinv := EntriesInv.reachable hreach
    exact validatePayload_settlement C db settlement row payload hsettlement
      (fun pk v hv => (hinv.version pk v hv).number) hinv.digest hbuilt

/-! ## Digits of another script -/

/-- The ASCII tables with the full-width digits, which NFC leaves as they are. -/
def wideUnicode : Unicode where
  nfc s := s
  decimal c :=
    if c.isDigit then some (c.toNat - '0'.toNat)
    else if 0xFF10 ≤ c.toNat ∧ c.toNat ≤ 0xFF19 then some (c.toNat - 0xFF10)
    else none
  upper s := s.map Char.toUpper
  isSpace c := c.isWhitespace
  nfc_nfc _ := rfl
  nfc_ascii _ _ := rfl
  decimal_ascii c hc := by
    split
    · rfl
    · exact if_neg (by omega)

/-- A settlement payload dated in a year written as given. -/
def datedPayload (year : Text) : PyValue :=
  dictOf [("schema".toList, .str "settlement.v2".toList), ("settlement_id".toList, .int 1),
    ("proposal_id".toList, .int 1), ("proposal_version".toList, .int 1),
    ("amount_vnd".toList, .int 600), ("transfer_sha256".toList, .str (List.replicate 64 'a')),
    ("settled_at".toList, .str (year ++ "-01-02T03:04:05.000006Z".toList))]

/-- The text of the timestamp. -/
theorem settledAt_datedPayload (year : Text) (members : List (Text × PyValue)) (s : Text)
    (h : datedPayload year = dictOf members)
    (hmem : ("settled_at".toList, PyValue.str s) ∈ members) :
    s = year ++ "-01-02T03:04:05.000006Z".toList := by
  rw [← dictOf_injective _ _ h] at hmem
  simpa using hmem

/-- Dated in ASCII the payload is opaque. -/
theorem anchored_payloads_opaque_iff_dated :
    validatePayload sampleConfig.unicode settlementType (datedPayload "2024".toList) = .ok () ∧
      OpaquePayload settlementType (datedPayload "2024".toList) := by
  refine ⟨rfl, ((anchored_payloads_opaque_iff sampleConfig).1 _ _ rfl).mpr ?_⟩
  intro members s h hmem
  rw [settledAt_datedPayload _ members s h hmem]
  exact ascii_of_all _ (by decide)

/-- Full-width digits pass the same test. -/
theorem anchored_payload_not_opaque :
    validatePayload wideUnicode settlementType (datedPayload "２０２４".toList) = .ok () ∧
      ¬ OpaquePayload settlementType (datedPayload "２０２４".toList) := by
  refine ⟨rfl, fun hopaque => ?_⟩
  have hascii := (opaque_iff wideUnicode settlementType _ rfl).mp hopaque
  have hdigit := hascii _ ("２０２４".toList ++ "-01-02T03:04:05.000006Z".toList) rfl (by simp) '２'
    (by simp)
  exact absurd hdigit (by decide)

end LamTo.Analysis
