import LamTo.Analysis.ChainMatch
import LamTo.Analysis.FinanceSteps
import LamTo.Library.Linked

/-!
# Books only grow

Seen from the versions, the settlements and their evidence, a step is a publication, a
settlement or leaves the books as they are (`SameBooks`). Whatever it is, nothing that was
written is lost or rewritten (`Extends`): this is what later checks of published rows rest
on.

Every outbox event belongs to one version or to one settlement (`Ownership`). Queueing under
the event id of an existing event would give that event a second owner, which the columns'
uniqueness refuses; so every publication and every settlement has an event of its own
(`NewEvent`).
-/

set_option autoImplicit false

namespace LamTo.Analysis

open LamTo.Library LamTo.Model

/-! ## Three kinds of steps -/

/-- The signed identity of an event. -/
def eventOf (db : Db) (event : ℕ) : Option Identity :=
  (db.outbox.get? event).map OutboxEvent.toIdentity

/-- The versions of a proposal, in the order they were written. -/
def versionsOf (db : Db) (proposal : ℕ) : List (ℕ × ProposalVersion) :=
  db.versions.select fun v => v.proposal = proposal

/-- The quotation links of a version, in the order they were written. -/
def linksOf (db : Db) (version : ℕ) : List (ℕ × ProposalDocument) :=
  db.proposalDocuments.select fun d => d.proposalVersion = version

structure SameBooks (db db' : Db) : Prop where
  versions : db'.versions.rows = db.versions.rows := by rfl
  proposalDocuments : db'.proposalDocuments.rows = db.proposalDocuments.rows := by rfl
  settlements : db'.settlements.rows = db.settlements.rows := by rfl
  events : ∀ event, eventOf db' event = eventOf db event := by exact fun _ => rfl
  documentVersions : ∀ pk v, db.documentVersions.get? pk = some v →
    db'.documentVersions.get? pk = some v := by exact fun _ _ h => h
  cases : ∀ pk, (db.cases.get? pk).isSome = true →
    (db'.cases.get? pk).isSome = true := by exact fun _ h => h
  proposals : ProposalsMoved db db' := by exact ProposalsMoved.of_eq _ _ fun _ => rfl

inductive BookStep (C : EvidenceConfig) (db db' : Db) : Prop where
  | same (h : SameBooks db db')
  | publish (p : Publishing C db db')
  | settle (s : Settling C db db')

theorem bookStep_of_step (C : EvidenceConfig) (db db' : Db) (a : Command)
    (h : Db.step C db a = some db') : BookStep C db db' := by
  cases book_effect C db db' a h with
  | quiet _ h =>
    exact .same ⟨h.versions, h.proposalDocuments, h.settlements, h.identities, h.documentVersions,
      h.cases, h.proposals⟩
  | publish _ _ p => exact .publish p
  | settle _ _ _ _ s => exact .settle s
  | openFund _ _ _ _ result =>
    subst result
    exact .same {}
  | record _ _ _ _ _ _ _ r =>
    obtain ⟨_, _, _, _, _, _, _, _, _, _, _, _, rfl⟩ := r
    exact .same {}
  | verify _ _ v =>
    obtain ⟨_, _, _, _, _, _, _, _, rfl⟩ := v
    exact .same {}

/-! ## New events -/

/-- An event queued under a key of its own. -/
structure NewEvent (C : EvidenceConfig) (eventType : ℕ) (payload : PyValue) (link : Text)
    (rows rows' : OutboxTable) (event : ℕ) (i : Identity) : Prop where
  event_eq : event = rows.next
  rows_eq : rows' = rows.insert ⟨i, .fresh⟩
  eventType_eq : i.eventType = eventType
  previousHash_eq : i.previousHash = lower link
  digest : payloadHash C.unicode C.hashing payload = .ok i.payloadHash
  rehashes : Rehashes C i
  plain : Json.Plain i.payload
  normalized : ∃ j, Model.normalize C.unicode payload = .ok j ∧ Json.denote i.payload = Json.denote j

/-- A call that does not find an event of its type under the key it returns queued one. -/
theorem newEvent_of_queued (C : EvidenceConfig) (now : ℕ) (eventId : Text) (eventType : ℕ)
    (payload : PyValue) (link : Text) (building event : ℕ) (rows rows' : OutboxTable)
    (h : queuePlatformEvent C now eventId eventType payload link building rows = .ok (event, rows'))
    (hnew : ∀ e, rows.get? event = some e → e.eventType ≠ eventType) :
    ∃ i, NewEvent C eventType payload link rows rows' event i := by
  obtain ⟨f, hf, hcases⟩ := queuePlatformEvent_eq_ok C _ _ _ _ _ _ rows rows' event h
  rcases hcases with ⟨_, e, he, hsame⟩ | ⟨i, stored, hstored, hi, hevent, hrows⟩
  · have htype : e.eventType = f.eventType := by
      simp only [sameIdentity, Bool.and_eq_true, decide_eq_true_eq] at hsame
      exact hsame.1.1.1.1.1
    exact absurd (htype.trans hf.eventType_eq) (hnew e he)
  · obtain ⟨j, hj, hpayload⟩ := hf.normalized
    have hplain := (normalize_spec C.unicode payload j hj).plain
    have hsorted := Json.plain_sortKeys j hplain
    have hpayload_i : i.payload = stored := congrArg IdentityFields.payload hi
    rw [hpayload] at hstored
    have hdigest := hf.digest
    rw [← show i.payloadHash = f.payloadHash from congrArg IdentityFields.payloadHash hi] at hdigest
    refine ⟨i, hevent, hrows, ?_, ?_, hdigest, ?_, ?_, j, hj, ?_⟩
    · exact (congrArg IdentityFields.eventType hi).trans hf.eventType_eq
    · exact (congrArg IdentityFields.previousHash hi).trans hf.previousHash_eq
    · exact rehashes_of_prepared C _ _ _ _ f i stored hf (by rw [hpayload]; exact hstored) hi
    · rw [hpayload_i]
      exact C.jsonb.column_plain _ _ hsorted hstored
    · rw [hpayload_i, C.jsonb.column_denote _ _ hsorted hstored, Json.denote_sortKeys j hplain]

theorem NewEvent.eventOf_eq (C : EvidenceConfig) (eventType : ℕ) (payload : PyValue) (link : Text)
    (db db' : Db) (event : ℕ) (i : Identity)
    (h : NewEvent C eventType payload link db.outbox db'.outbox event i) (pk : ℕ) :
    eventOf db' pk = if pk = event then some i else eventOf db pk := by
  rw [eventOf, h.rows_eq, Table.get?_insert, h.event_eq]
  split
  · rfl
  · rfl

/-! ## Ownership of events -/

/-- Every event has one owner: a version when it is of the first type, a settlement when it is
of the other. -/
structure Ownership (db : Db) : Prop where
  version_event : ∀ pk v, db.versions.get? pk = some v →
    ∃ i, eventOf db v.outboxEvent = some i ∧ i.eventType = proposalCreated
  settlement_event : ∀ pk s, db.settlements.get? pk = some s →
    ∃ event i, s.outboxEvent = some event ∧ eventOf db event = some i ∧
      i.eventType = settlementType
  version_unique : ∀ pk v pk' v', db.versions.get? pk = some v → db.versions.get? pk' = some v' →
    v.outboxEvent = v'.outboxEvent → pk = pk'
  settlement_unique : ∀ pk s pk' s', db.settlements.get? pk = some s →
    db.settlements.get? pk' = some s' → s.outboxEvent = s'.outboxEvent → pk = pk'
  owned : ∀ event i, eventOf db event = some i →
    (i.eventType = proposalCreated ∧ ∃ pk v, db.versions.get? pk = some v ∧ v.outboxEvent = event) ∨
    (i.eventType = settlementType ∧
      ∃ pk s, db.settlements.get? pk = some s ∧ s.outboxEvent = some event)

theorem ownership_empty : Ownership Db.empty where
  version_event _ _ h := by cases h
  settlement_event _ _ h := by cases h
  version_unique _ _ _ _ h := by cases h
  settlement_unique _ _ _ _ h := by cases h
  owned _ _ h := by cases h

variable {C : EvidenceConfig} {db db' : Db}

/-- A publication queues an event of its own. -/
theorem Publishing.newEvent (p : Publishing C db db') (hown : Ownership db) :
    ∃ i, NewEvent C proposalCreated (.ofJson (.obj p.members)) p.link db.outbox p.outbox p.event i := by
  refine newEvent_of_queued C _ _ _ _ _ _ _ _ _ p.queued fun e he htype => ?_
  have hevent : eventOf db p.event = some e.toIdentity := by rw [eventOf, he]; rfl
  rcases hown.owned _ _ hevent with ⟨_, pk, v, hv, howner⟩ | ⟨htype', _⟩
  · exact p.event_unused pk v hv howner
  · exact absurd (htype.symm.trans htype') (by decide)

/-- A settlement queues an event of its own. -/
theorem Settling.newEvent (s : Settling C db db') (hown : Ownership db) :
    ∃ i, NewEvent C settlementType (.ofJson s.payload) s.link db.outbox s.outbox s.event i := by
  refine newEvent_of_queued C _ _ _ _ _ _ _ _ _ s.queued fun e he htype => ?_
  have hevent : eventOf db s.event = some e.toIdentity := by rw [eventOf, he]; rfl
  rcases hown.owned _ _ hevent with ⟨htype', _⟩ | ⟨_, pk, t, ht, howner⟩
  · exact absurd (htype'.symm.trans htype) (by decide)
  · exact s.event_unused pk t ht howner

/-! ## What the tables hold afterwards -/

theorem SameBooks.versions_get (h : SameBooks db db') (pk : ℕ) :
    db'.versions.get? pk = db.versions.get? pk := Table.get?_congr _ _ h.versions pk

theorem SameBooks.settlements_get (h : SameBooks db db') (pk : ℕ) :
    db'.settlements.get? pk = db.settlements.get? pk := Table.get?_congr _ _ h.settlements pk

theorem Publishing.versions_eq (p : Publishing C db db') :
    db'.versions = db.versions.insert p.version := congrArg (fun d : Db => d.versions) p.result

theorem Publishing.versions_get (p : Publishing C db db') (pk : ℕ) :
    db'.versions.get? pk = if pk = db.versions.next then some p.version else db.versions.get? pk := by
  rw [p.versions_eq, Table.get?_insert]

theorem Publishing.settlements_eq (p : Publishing C db db') : db'.settlements = db.settlements := by
  rw [p.result]

theorem Publishing.outbox_eq (p : Publishing C db db') : db'.outbox = p.outbox :=
  congrArg Db.outbox p.result

theorem Settling.versions_eq (s : Settling C db db') : db'.versions = db.versions := by
  rw [s.result]

theorem Settling.outbox_eq (s : Settling C db db') : db'.outbox = s.outbox :=
  congrArg Db.outbox s.result

/-- The settlement as it is stored in the end. -/
def Settling.stored (s : Settling C db db') : Settlement :=
  ⟨s.proposal, s.version.amountVnd, s.transfer, s.settledBy, s.now, some s.event⟩

theorem Settling.settlements_get (s : Settling C db db') (pk : ℕ) :
    db'.settlements.get? pk =
      if pk = db.settlements.next then some s.stored else db.settlements.get? pk := by
  rw [congrArg (fun d : Db => d.settlements) s.result]
  dsimp only
  rw [Table.get?_update, Table.get?_insert]
  split
  · rfl
  · rfl

/-! ## Ownership is kept -/

theorem Ownership.same (hown : Ownership db) (h : SameBooks db db') : Ownership db' := by
  obtain ⟨h₁, h₂, h₃, h₄, h₅⟩ := hown
  constructor
  · simpa only [h.versions_get, h.events] using h₁
  · simpa only [h.settlements_get, h.events] using h₂
  · simpa only [h.versions_get] using h₃
  · simpa only [h.settlements_get] using h₄
  · simpa only [h.versions_get, h.settlements_get, h.events] using h₅

/-- An event that was there has not the key of a new one. -/
theorem NewEvent.ne_of_eventOf (eventType : ℕ) (payload : PyValue) (link : Text)
    (rows' : OutboxTable) (event : ℕ) (i : Identity)
    (h : NewEvent C eventType payload link db.outbox rows' event i) (pk : ℕ) (j : Identity)
    (hj : eventOf db pk = some j) : pk ≠ event := by
  obtain ⟨e, he, _⟩ := Option.map_eq_some_iff.mp hj
  have hlt := Table.lt_next_of_get? _ _ _ he
  rw [h.event_eq]
  exact Nat.ne_of_lt hlt

theorem Ownership.publish (hown : Ownership db) (p : Publishing C db db') : Ownership db' := by
  obtain ⟨i, hnew⟩ := p.newEvent hown
  rw [← p.outbox_eq] at hnew
  have hevents := hnew.eventOf_eq C _ _ _ db db' _ i
  have hold : ∀ pk j, eventOf db pk = some j → eventOf db' pk = some j := fun pk j hj => by
    rw [hevents, if_neg (hnew.ne_of_eventOf _ _ _ _ _ _ pk j hj), hj]
  constructor
  · intro pk v hv
    rw [p.versions_get] at hv
    split at hv
    · cases hv
      exact ⟨i, by rw [hevents, p.version_event, if_pos rfl], hnew.eventType_eq⟩
    · obtain ⟨j, hj, htype⟩ := hown.version_event pk v hv
      exact ⟨j, hold _ j hj, htype⟩
  · intro pk s hs
    rw [p.settlements_eq] at hs
    obtain ⟨event, j, hevent, hj, htype⟩ := hown.settlement_event pk s hs
    exact ⟨event, j, hevent, hold _ j hj, htype⟩
  · intro pk v pk' v' hv hv' heq
    rw [p.versions_get] at hv hv'
    split at hv <;> split at hv'
    · next hpk hpk' => exact hpk.trans hpk'.symm
    · cases hv
      exact absurd (heq.symm.trans p.version_event) (p.event_unused pk' v' hv')
    · cases hv'
      exact absurd (heq.trans p.version_event) (p.event_unused pk v hv)
    · exact hown.version_unique pk v pk' v' hv hv' heq
  · rw [p.settlements_eq]
    exact hown.settlement_unique
  · intro event j hj
    rw [hevents] at hj
    split at hj
    · next hevent =>
      cases hj
      refine .inl ⟨hnew.eventType_eq, db.versions.next, p.version, ?_, ?_⟩
      · rw [p.versions_get, if_pos rfl]
      · rw [p.version_event, hevent]
    · rcases hown.owned event j hj with ⟨htype, pk, v, hv, howner⟩ | ⟨htype, pk, s, hs, howner⟩
      · refine .inl ⟨htype, pk, v, ?_, howner⟩
        rw [p.versions_get, if_neg (Nat.ne_of_lt (Table.lt_next_of_get? _ _ _ hv)), hv]
      · exact .inr ⟨htype, pk, s, by rw [p.settlements_eq, hs], howner⟩

theorem Ownership.settle (hown : Ownership db) (s : Settling C db db') : Ownership db' := by
  obtain ⟨i, hnew⟩ := s.newEvent hown
  rw [← s.outbox_eq] at hnew
  have hevents := hnew.eventOf_eq C _ _ _ db db' _ i
  have hold : ∀ pk j, eventOf db pk = some j → eventOf db' pk = some j := fun pk j hj => by
    rw [hevents, if_neg (hnew.ne_of_eventOf _ _ _ _ _ _ pk j hj), hj]
  constructor
  · intro pk v hv
    rw [s.versions_eq] at hv
    obtain ⟨j, hj, htype⟩ := hown.version_event pk v hv
    exact ⟨j, hold _ j hj, htype⟩
  · intro pk t ht
    rw [s.settlements_get] at ht
    split at ht
    · cases ht
      exact ⟨s.event, i, rfl, by rw [hevents, if_pos rfl], hnew.eventType_eq⟩
    · obtain ⟨event, j, hevent, hj, htype⟩ := hown.settlement_event pk t ht
      exact ⟨event, j, hevent, hold _ j hj, htype⟩
  · rw [s.versions_eq]
    exact hown.version_unique
  · intro pk t pk' t' ht ht' heq
    rw [s.settlements_get] at ht ht'
    split at ht <;> split at ht'
    · next hpk hpk' => exact hpk.trans hpk'.symm
    · cases ht
      exact absurd heq.symm (s.event_unused pk' t' ht')
    · cases ht'
      exact absurd heq (s.event_unused pk t ht)
    · exact hown.settlement_unique pk t pk' t' ht ht' heq
  · intro event j hj
    rw [hevents] at hj
    split at hj
    · next hevent =>
      cases hj
      refine .inr ⟨hnew.eventType_eq, db.settlements.next, s.stored, ?_, ?_⟩
      · rw [s.settlements_get, if_pos rfl]
      · rw [hevent]
        rfl
    · rcases hown.owned event j hj with ⟨htype, pk, v, hv, howner⟩ | ⟨htype, pk, t, ht, howner⟩
      · exact .inl ⟨htype, pk, v, by rw [s.versions_eq, hv], howner⟩
      · refine .inr ⟨htype, pk, t, ?_, howner⟩
        rw [s.settlements_get, if_neg (Nat.ne_of_lt (Table.lt_next_of_get? _ _ _ ht)), ht]

theorem Ownership.step (hown : Ownership db) (h : BookStep C db db') : Ownership db' := by
  cases h with
  | same h => exact hown.same h
  | publish p => exact hown.publish p
  | settle s => exact hown.settle s

/-! ## References -/

/-- What foreign keys name exists. -/
structure References (db : Db) : Prop where
  version_proposal : ∀ pk v, db.versions.get? pk = some v →
    (db.proposals.get? v.proposal).isSome = true
  link_version : ∀ pk d, db.proposalDocuments.get? pk = some d →
    (db.versions.get? d.proposalVersion).isSome = true
  case_exists : ∀ pk p case, db.proposals.get? pk = some p → p.case = some case →
    (db.cases.get? case).isSome = true

theorem references_empty : References Db.empty where
  version_proposal _ _ h := by cases h
  link_version _ _ h := by cases h
  case_exists _ _ _ h := by cases h

/-- The proposal a publication leaves. -/
def Publishing.rowAfter (p : Publishing C db db') : Proposal :=
  { p.row with currentVersion := some db.versions.next, status := .published,
               publicToken := p.token.or p.row.publicToken }

theorem Publishing.proposals_get (p : Publishing C db db') (pk : ℕ) :
    db'.proposals.get? pk =
      if pk = p.proposal then some p.rowAfter else db.proposals.get? pk := by
  rw [congrArg (fun d : Db => d.proposals) p.result]
  dsimp only
  rw [Table.get?_update]
  split
  · next hpk =>
    rw [hpk, p.row_get]
    rfl
  · rfl

theorem Settling.proposals_eq (s : Settling C db db') : db'.proposals = db.proposals := by
  rw [s.result]

theorem Settling.proposalDocuments_eq (s : Settling C db db') :
    db'.proposalDocuments = db.proposalDocuments := by
  rw [s.result]

theorem Publishing.cases_eq (p : Publishing C db db') : db'.cases = db.cases := by rw [p.result]

theorem Settling.cases_eq (s : Settling C db db') : db'.cases = db.cases := by rw [s.result]

theorem Publishing.documentVersions_eq (p : Publishing C db db') :
    db'.documentVersions = db.documentVersions := by
  rw [p.result]

theorem Settling.documentVersions_eq (s : Settling C db db') :
    db'.documentVersions = db.documentVersions := by
  rw [s.result]

/-- The links of one version, after links of another were added. -/
theorem get?_foldl_insert (version : ℕ) (ds : List ℕ) (t : Table ProposalDocument) (pk : ℕ)
    (d : ProposalDocument)
    (h : (ds.foldl (fun t d => t.insert ⟨version, d⟩) t).get? pk = some d) :
    t.get? pk = some d ∨ d.proposalVersion = version := by
  induction ds generalizing t with
  | nil => exact .inl h
  | cons e ds ih =>
    rcases ih (t.insert ⟨version, e⟩) h with hget | hversion
    · rw [Table.get?_insert] at hget
      split at hget
      · cases hget
        exact .inr rfl
      · exact .inl hget
    · exact .inr hversion

/-- The documents linked to a version, after links were added to `version`. -/
theorem select_foldl_insert (version : ℕ) (ds : List ℕ) (t : Table ProposalDocument) (pk : ℕ) :
    ((ds.foldl (fun t d => t.insert ⟨version, d⟩) t).select
        fun d => d.proposalVersion = pk).map (fun r => r.2.documentVersion) =
      (t.select fun d => d.proposalVersion = pk).map (fun r => r.2.documentVersion) ++
        if pk = version then ds else [] := by
  induction ds generalizing t with
  | nil => simp
  | cons e ds ih =>
    rw [List.foldl_cons, ih, Table.select_insert]
    by_cases hpk : version = pk
    · simp [hpk]
    · simp [hpk, Ne.symm hpk]

theorem Publishing.proposalDocuments_eq (p : Publishing C db db') :
    db'.proposalDocuments = (p.quotations.map Prod.fst).foldl
      (fun t d => t.insert ⟨db.versions.next, d⟩) db.proposalDocuments := by
  conv_lhs => rw [p.result]

theorem References.same (href : References db) (h : SameBooks db db') : References db' := by
  have hdocs : ∀ pk, db'.proposalDocuments.get? pk = db.proposalDocuments.get? pk :=
    Table.get?_congr _ _ h.proposalDocuments
  constructor
  · intro pk v hv
    rw [h.versions_get] at hv
    obtain ⟨p, hp⟩ := Option.isSome_iff_exists.mp (href.version_proposal pk v hv)
    obtain ⟨p', hp', _⟩ := h.proposals.kept _ p hp
    rw [hp']
    rfl
  · intro pk d hd
    rw [h.versions_get]
    exact href.link_version pk d ((hdocs pk).symm.trans hd)
  · intro pk p' case hp' hcase
    apply h.cases
    rcases h.proposals.found pk p' hp' with ⟨p, hp, hmoved⟩ | ⟨_, hfresh⟩
    · exact href.case_exists pk p case hp (hmoved.case_eq ▸ hcase)
    · exact hfresh.case_exists case hcase

theorem References.publish (href : References db) (p : Publishing C db db') : References db' := by
  constructor
  · intro pk v hv
    rw [p.proposals_get]
    rw [p.versions_get] at hv
    split
    · rfl
    · next hne =>
      split at hv
      · cases hv
        exact absurd p.version_proposal hne
      · exact href.version_proposal pk v hv
  · intro pk d hd
    rw [p.versions_get]
    split
    · rfl
    · next hne =>
      rw [p.proposalDocuments_eq] at hd
      rcases get?_foldl_insert _ _ _ _ _ hd with hold | hnew
      · exact href.link_version pk d hold
      · exact absurd hnew hne
  · intro pk q case hq hcase
    rw [p.cases_eq]
    rw [p.proposals_get] at hq
    split at hq
    · cases hq
      exact href.case_exists p.proposal p.row case p.row_get hcase
    · exact href.case_exists pk q case hq hcase

theorem References.settle (href : References db) (s : Settling C db db') : References db' := by
  constructor
  · rw [s.versions_eq, s.proposals_eq]
    exact href.version_proposal
  · rw [s.versions_eq, s.proposalDocuments_eq]
    exact href.link_version
  · rw [s.cases_eq, s.proposals_eq]
    exact href.case_exists

theorem References.step (href : References db) (h : BookStep C db db') : References db' := by
  cases h with
  | same h => exact href.same h
  | publish p => exact href.publish p
  | settle s => exact href.settle s

/-! ## Growth -/

/-- The work is done: no version may follow. -/
def Finished (s : ProposalStatus) : Prop := s = .completed ∨ s = .closed

/-- A proposal now and at any later time. -/
structure Later (p p' : Proposal) : Prop where
  case_eq : p'.case = p.case
  building_eq : p'.building = p.building
  finished : Finished p.status → p'.currentVersion = p.currentVersion ∧ Finished p'.status

theorem Later.refl (p : Proposal) : Later p p := ⟨rfl, rfl, fun h => ⟨rfl, h⟩⟩

theorem Later.trans (p q r : Proposal) (hpq : Later p q) (hqr : Later q r) : Later p r := by
  refine ⟨hqr.case_eq.trans hpq.case_eq, hqr.building_eq.trans hpq.building_eq, fun h => ?_⟩
  obtain ⟨hversion, hfinished⟩ := hpq.finished h
  obtain ⟨hversion', hfinished'⟩ := hqr.finished hfinished
  exact ⟨hversion'.trans hversion, hfinished'⟩

theorem StatusMove.finished (s t : ProposalStatus) (h : StatusMove s t) (hs : Finished s) :
    Finished t := by
  cases h with
  | stay => exact hs
  | close => exact .inr rfl
  | complete => exact .inl rfl
  | proceed => rcases hs with h | h <;> cases h
  | decline => rcases hs with h | h <;> cases h

theorem Moved.later (p p' : Proposal) (h : Moved p p') : Later p p' :=
  ⟨h.case_eq, h.building_eq, fun hs => ⟨h.currentVersion_eq, h.status.finished _ _ hs⟩⟩

/-- **The books at one time and at any later time**: what was written stays as it was. -/
structure Extends (db db' : Db) : Prop where
  versions : ∀ pk v, db.versions.get? pk = some v → db'.versions.get? pk = some v
  links : ∀ pk v, db.versions.get? pk = some v →
    (linksOf db' pk).map (fun r => r.2.documentVersion) =
      (linksOf db pk).map fun r => r.2.documentVersion
  events : ∀ pk i, eventOf db pk = some i → eventOf db' pk = some i
  documentVersions : ∀ pk v, db.documentVersions.get? pk = some v →
    db'.documentVersions.get? pk = some v
  cases : ∀ pk, (db.cases.get? pk).isSome = true → (db'.cases.get? pk).isSome = true
  settlements : ∀ pk s, db.settlements.get? pk = some s → db'.settlements.get? pk = some s
  proposals : ∀ pk p, db.proposals.get? pk = some p →
    ∃ p', db'.proposals.get? pk = some p' ∧ Later p p'
  finished : ∀ pk p, db.proposals.get? pk = some p → Finished p.status →
    versionsOf db' pk = versionsOf db pk

theorem Extends.refl (db : Db) : Extends db db where
  versions _ _ h := h
  links _ _ _ := rfl
  events _ _ h := h
  documentVersions _ _ h := h
  cases _ h := h
  settlements _ _ h := h
  proposals _ p h := ⟨p, h, Later.refl p⟩
  finished _ _ _ _ := rfl

theorem Extends.trans (db₁ db₂ db₃ : Db) (h : Extends db₁ db₂) (h' : Extends db₂ db₃) :
    Extends db₁ db₃ where
  versions pk v hv := h'.versions pk v (h.versions pk v hv)
  links pk v hv := (h'.links pk v (h.versions pk v hv)).trans (h.links pk v hv)
  events pk i hi := h'.events pk i (h.events pk i hi)
  documentVersions pk v hv := h'.documentVersions pk v (h.documentVersions pk v hv)
  cases pk hpk := h'.cases pk (h.cases pk hpk)
  settlements pk s hs := h'.settlements pk s (h.settlements pk s hs)
  proposals pk p hp := by
    obtain ⟨q, hq, hpq⟩ := h.proposals pk p hp
    obtain ⟨r, hr, hqr⟩ := h'.proposals pk q hq
    exact ⟨r, hr, Later.trans p q r hpq hqr⟩
  finished pk p hp hfinished := by
    obtain ⟨q, hq, hpq⟩ := h.proposals pk p hp
    rw [h'.finished pk q hq (hpq.finished hfinished).2, h.finished pk p hp hfinished]

theorem SameBooks.extends (h : SameBooks db db') : Extends db db' where
  versions pk v hv := (h.versions_get pk).trans hv
  links pk _ _ := by rw [linksOf, linksOf, Table.select_congr _ _ _ h.proposalDocuments]
  events pk i hi := (h.events pk).trans hi
  documentVersions := h.documentVersions
  cases := h.cases
  settlements pk s hs := (h.settlements_get pk).trans hs
  proposals pk p hp := by
    obtain ⟨p', hp', hmoved⟩ := h.proposals.kept pk p hp
    exact ⟨p', hp', Moved.later p p' hmoved⟩
  finished pk _ _ _ := Table.select_congr _ _ _ h.versions

theorem Publishing.extends (p : Publishing C db db') (hown : Ownership db) : Extends db db' := by
  obtain ⟨i, hnew⟩ := p.newEvent hown
  rw [← p.outbox_eq] at hnew
  have hnext : ∀ pk v, db.versions.get? pk = some v → pk ≠ db.versions.next := fun pk v hv =>
    Nat.ne_of_lt (Table.lt_next_of_get? _ _ _ hv)
  have hopen : ¬ Finished p.row.status := by
    rintro (hs | hs) <;> rcases p.row_open with h | h | h <;> rw [h] at hs <;> cases hs
  constructor
  · intro pk v hv
    rw [p.versions_get, if_neg (hnext pk v hv), hv]
  · intro pk v hv
    rw [linksOf, p.proposalDocuments_eq, select_foldl_insert, if_neg (hnext pk v hv),
      List.append_nil]
    rfl
  · intro pk j hj
    rw [hnew.eventOf_eq C _ _ _ db db', if_neg (hnew.ne_of_eventOf _ _ _ _ _ _ pk j hj), hj]
  · rw [p.documentVersions_eq]
    exact fun _ _ h => h
  · rw [p.cases_eq]
    exact fun _ h => h
  · rw [p.settlements_eq]
    exact fun _ _ h => h
  · intro pk q hq
    rw [p.proposals_get]
    split
    · next hpk =>
      rw [hpk, p.row_get] at hq
      cases hq
      exact ⟨p.rowAfter, rfl, rfl, rfl, fun h => absurd h hopen⟩
    · exact ⟨q, hq, Later.refl q⟩
  · intro pk q hq hfinished
    have hne : pk ≠ p.proposal := by
      rintro rfl
      rw [p.row_get] at hq
      cases hq
      exact hopen hfinished
    rw [versionsOf, p.versions_eq, Table.select_insert, p.version_proposal,
      if_neg (by simpa using hne.symm), List.append_nil]
    rfl

theorem Settling.extends (s : Settling C db db') (hown : Ownership db) : Extends db db' := by
  obtain ⟨i, hnew⟩ := s.newEvent hown
  rw [← s.outbox_eq] at hnew
  constructor
  · rw [s.versions_eq]
    exact fun _ _ h => h
  · intro pk v _
    rw [linksOf, s.proposalDocuments_eq]
    rfl
  · intro pk j hj
    rw [hnew.eventOf_eq C _ _ _ db db', if_neg (hnew.ne_of_eventOf _ _ _ _ _ _ pk j hj), hj]
  · rw [s.documentVersions_eq]
    exact fun _ _ h => h
  · rw [s.cases_eq]
    exact fun _ h => h
  · intro pk t ht
    rw [s.settlements_get, if_neg (Nat.ne_of_lt (Table.lt_next_of_get? _ _ _ ht)), ht]
  · rw [s.proposals_eq]
    exact fun _ q hq => ⟨q, hq, Later.refl q⟩
  · intro pk q _ _
    rw [versionsOf, s.versions_eq]
    rfl

/-- **Every step extends the books.** -/
theorem BookStep.extends (h : BookStep C db db') (hown : Ownership db) : Extends db db' := by
  cases h with
  | same h => exact h.extends
  | publish p => exact p.extends hown
  | settle s => exact s.extends hown

end LamTo.Analysis
