import LamTo.Analysis.Books

/-!
# The hash chain of a proposal

The versions of a proposal are numbered from one without a gap, and the evidence of each
names the hash of the one before it. The links are written by two services at different
times, from the rows of the moment; that they fit together is an invariant of every run
(`ChainInv`): the latest version is the current one, a proposal is a draft exactly while it
has none, and a settlement stands on the version its proposal was finished with.

SOURCE: src/lamto/finance/proposals.py:298-426, src/lamto/finance/settlements.py:32-65
-/

set_option autoImplicit false

namespace LamTo.Analysis

open LamTo.Library LamTo.Model

variable {C : EvidenceConfig} {db db' : Db}

/-! ## The invariant -/

/-- The hash a version's evidence names as its predecessor. -/
def previousOf (db : Db) (v : ℕ × ProposalVersion) : Option Text :=
  (eventOf db v.2.outboxEvent).map fun i => i.previousHash

/-- The hash that names a version's evidence. -/
def anchorOf (db : Db) (v : ℕ × ProposalVersion) : Option Text :=
  (eventOf db v.2.outboxEvent).map fun i => '0' :: 'x' :: i.payloadHash

/-- The versions of one proposal. -/
structure Chained (db : Db) (pk : ℕ) (p : Proposal) : Prop where
  numbered : (versionsOf db pk).map (fun v => v.2.number) =
    List.range' 1 (versionsOf db pk).length
  linked : Linked (previousOf db) (anchorOf db) (some zeroHash) (versionsOf db pk)
  current : p.currentVersion = (versionsOf db pk).getLast?.map Prod.fst
  draft : p.status = .draft ↔ versionsOf db pk = []

/-- One settlement and the version it stands on. -/
def StandsOn (db : Db) (s : Settlement) : Prop :=
  ∃ p current v event i, db.proposals.get? s.proposal = some p ∧ Finished p.status ∧
    p.currentVersion = some current ∧ db.versions.get? current = some v ∧
    s.amountVnd = v.amountVnd ∧ s.outboxEvent = some event ∧ eventOf db event = some i ∧
    anchorOf db (current, v) = some i.previousHash ∧
    lookup "proposal_version" i.payload = some (.int v.number)

structure ChainInv (db : Db) : Prop where
  ownership : Ownership db
  references : References db
  chained : ∀ pk p, db.proposals.get? pk = some p → Chained db pk p
  settled : ∀ pk s, db.settlements.get? pk = some s → StandsOn db s
  once : ∀ pk s pk' s', db.settlements.get? pk = some s → db.settlements.get? pk' = some s' →
    s.proposal = s'.proposal → pk = pk'

theorem chainInv_empty : ChainInv Db.empty where
  ownership := ownership_empty
  references := references_empty
  chained _ _ h := by cases h
  settled _ _ h := by cases h
  once _ _ _ _ h := by cases h

/-! ## The latest version -/

/-- The step of the search for the largest number. -/
def laterOf (best : Option (ℕ × ProposalVersion)) (r : ℕ × ProposalVersion) :
    Option (ℕ × ProposalVersion) :=
  match best with
  | none => some r
  | some b => if b.2.number < r.2.number then some r else some b

/-- Numbered in order, the last row has the largest number. -/
theorem foldl_laterOf (vs : List (ℕ × ProposalVersion))
    (h : vs.map (fun v => v.2.number) = List.range' 1 vs.length) :
    vs.foldl laterOf none = vs.getLast? ∧
      ∀ v, vs.getLast? = some v → v.2.number = vs.length := by
  induction vs using List.reverseRecOn with
  | nil => exact ⟨rfl, fun _ hv => by cases hv⟩
  | append_singleton vs v ih =>
    rw [List.map_append, List.length_append, List.length_singleton, List.range'_1_concat] at h
    obtain ⟨hinit, hlast⟩ := List.append_inj' h rfl
    obtain ⟨hfold, hnumber⟩ := ih hinit
    have hv : v.2.number = 1 + vs.length := by simpa using hlast
    constructor
    · rw [List.foldl_append, hfold, List.getLast?_concat]
      cases hlast? : vs.getLast? with
      | none => rfl
      | some b =>
        have hb := hnumber b hlast?
        simp only [List.foldl_cons, List.foldl_nil, laterOf]
        rw [if_pos (by omega)]
    · intro w hw
      rw [List.getLast?_concat] at hw
      cases hw
      rw [List.length_append, List.length_singleton, hv, Nat.add_comm]

theorem latestVersion_eq (pk : ℕ) (p : Proposal) (h : Chained db pk p) :
    latestVersion db pk = (versionsOf db pk).getLast? :=
  (foldl_laterOf _ h.numbered).1

theorem nextNumber_eq (pk : ℕ) (p : Proposal) (h : Chained db pk p) :
    nextNumber db pk = (versionsOf db pk).length + 1 := by
  rw [nextNumber, latestVersion_eq pk p h]
  cases hlast : (versionsOf db pk).getLast? with
  | none => rw [List.getLast?_eq_none_iff.mp hlast]; rfl
  | some v =>
    rw [Option.map_some, Option.getD_some, (foldl_laterOf _ h.numbered).2 v hlast]

/-! ## Reading a payload -/

/-- An object with the meaning of another has its members under their keys. -/
theorem exists_lookup_of_denote (ms : List (Text × Json)) (k : Json) (key : String) (v : Json)
    (hkeys : (ms.map Prod.fst).Nodup) (hplain : Json.Plain k)
    (hdenote : Json.denote k = Json.denote (.obj ms)) (hmem : (key.toList, v) ∈ ms) :
    ∃ w, lookup key k = some w ∧ Json.Plain w ∧ Json.denote w = Json.denote v := by
  cases k with
  | obj qs =>
    simp only [Json.denote, Json.Tree.obj.injEq] at hdenote
    obtain ⟨w, hw, hval⟩ := Json.exists_mem_of_denoteMembers_eq ms qs hkeys hplain.1 hdenote.symm
      _ _ hmem
    refine ⟨w, ?_, (Json.plainMembers_iff qs).mp hplain.2 _ hw, hval⟩
    cases hfind : qs.find? fun m => m.1 = key.toList with
    | none => exact absurd (List.find?_eq_none.mp hfind _ hw) (by simp)
    | some m =>
      have hm : m.1 = key.toList := by simpa using List.find?_some hfind
      have heq := Json.eq_of_key_eq qs hplain.1 m _ (List.mem_of_find?_eq_some hfind) hw hm
      rw [lookup, hfind, heq]
      rfl
  | _ => simp [Json.denote] at hdenote

theorem int_of_denote (w : Json) (n : ℤ) (h : Json.denote w = Json.denote (.int n)) :
    w = .int n := by
  cases w <;> simp [Json.denote] at h
  rw [h]

theorem str_of_denote (w : Json) (t : Text) (h : Json.denote w = Json.denote (.str t)) :
    w = .str t := by
  cases w <;> simp [Json.denote] at h
  rw [h]

/-- A number of the payload is read back from the column. -/
theorem lookup_of_normalized (U : Unicode) (ms : List (Text × Json)) (key : String) (n : ℤ)
    (hkey : U.nfc key.toList = key.toList) (hmem : (key.toList, Json.int n) ∈ ms) (j payload : Json)
    (hj : Model.normalize U (.ofJson (.obj ms)) = .ok j) (hplain : Json.Plain payload)
    (hdenote : Json.denote payload = Json.denote j) : lookup key payload = some (.int n) := by
  have hnormal := normalize_spec U _ j hj
  simp only [PyValue.ofJson, Model.normalize, bind_eq_ok, pure_eq_ok] at hj
  obtain ⟨ns, hns, rfl⟩ := hj
  have hmem' : (PyKey.str key.toList, PyValue.int n) ∈ PyValue.ofMembers ms := by
    rw [ofMembers_eq_map]
    exact List.mem_map.mpr ⟨_, hmem, rfl⟩
  obtain ⟨w, hw, hwmem⟩ := (mem_of_normalizeMembers U _ _ _ hns).2 _ _ hmem'
  cases hw
  rw [hkey] at hwmem
  obtain ⟨v, hlookup, _, hval⟩ := exists_lookup_of_denote ns payload key _ hnormal.plain.1 hplain
    hdenote hwmem
  rw [hlookup, int_of_denote v n hval]

/-! ## One step -/

/-- The evidence of the versions written so far stays what it is. -/
theorem Extends.anchors (hext : Extends db db') (hown : Ownership db) (pk : ℕ)
    (v : ℕ × ProposalVersion) (hv : v ∈ versionsOf db pk) :
    previousOf db' v = previousOf db v ∧ anchorOf db' v = anchorOf db v := by
  obtain ⟨hget, _⟩ := (Table.mem_select _ _ v.1 v.2).mp hv
  obtain ⟨i, hi, _⟩ := hown.version_event v.1 v.2 hget
  rw [previousOf, previousOf, anchorOf, anchorOf, hi, hext.events _ i hi]
  exact ⟨rfl, rfl⟩

/-- The chain of a proposal whose versions and events are as before. -/
theorem Chained.mono (pk : ℕ) (p p' : Proposal) (h : Chained db pk p) (hown : Ownership db)
    (hext : Extends db db') (hversions : versionsOf db' pk = versionsOf db pk)
    (hcurrent : p'.currentVersion = p.currentVersion)
    (hdraft : p'.status = .draft ↔ p.status = .draft) : Chained db' pk p' := by
  refine ⟨?_, ?_, ?_, ?_⟩
  · rw [hversions]
    exact h.numbered
  · rw [hversions]
    exact linked_congr _ _ _ _ _ _ (hext.anchors hown pk) h.linked
  · rw [hversions, hcurrent]
    exact h.current
  · rw [hversions, hdraft]
    exact h.draft

theorem StatusMove.draft_iff (s t : ProposalStatus) (h : StatusMove s t) :
    t = .draft ↔ s = .draft := by
  cases h <;> simp

theorem StandsOn.mono (s : Settlement) (h : StandsOn db s) (hext : Extends db db') :
    StandsOn db' s := by
  obtain ⟨p, current, v, event, i, hp, hfinished, hcurrent, hv, hamount, hevent, hi, hanchor,
    hlookup⟩ := h
  obtain ⟨p', hp', hlater⟩ := hext.proposals _ p hp
  obtain ⟨hversion, hfinished'⟩ := hlater.finished hfinished
  refine ⟨p', current, v, event, i, hp', hfinished', hversion.trans hcurrent,
    hext.versions _ v hv, hamount, hevent, hext.events _ i hi, ?_, hlookup⟩
  obtain ⟨j, hj, hjhash⟩ := Option.map_eq_some_iff.mp hanchor
  rw [anchorOf, hext.events _ j hj, Option.map_some, hjhash]

theorem ChainInv.same (hinv : ChainInv db) (h : SameBooks db db') : ChainInv db' where
  ownership := hinv.ownership.same h
  references := hinv.references.same h
  chained pk p' hp' := by
    have hversions : versionsOf db' pk = versionsOf db pk := Table.select_congr _ _ _ h.versions
    rcases h.proposals.found pk p' hp' with ⟨p, hp, hmoved⟩ | ⟨hnone, hfresh⟩
    · exact (hinv.chained pk p hp).mono pk p p' hinv.ownership h.extends hversions
        hmoved.currentVersion_eq (hmoved.status.draft_iff _ _)
    · -- A proposal that was just created has no version: a version names an existing one.
      have hempty : versionsOf db' pk = [] := by
        rw [hversions, List.eq_nil_iff_forall_not_mem]
        rintro ⟨key, v⟩ hv
        obtain ⟨hget, hproposal⟩ := (Table.mem_select _ _ key v).mp hv
        have hexists := hinv.references.version_proposal key v hget
        rw [of_decide_eq_true hproposal, hnone] at hexists
        cases hexists
      refine ⟨by rw [hempty]; rfl, by rw [hempty]; trivial, ?_, ?_⟩
      · rw [hempty, hfresh.currentVersion_eq]
        rfl
      · rw [hempty]
        simp [hfresh.status_eq]
  settled pk s hs := (hinv.settled pk s ((h.settlements_get pk).symm.trans hs)).mono s h.extends
  once := by simpa only [h.settlements_get] using hinv.once

/-- The link a version is published with is lower-case already. -/
theorem lower_anchor (i : Identity) :
    lower ('0' :: 'x' :: i.payloadHash) = '0' :: 'x' :: i.payloadHash :=
  lower_bytes32 _ ((isBytes32Text_iff _).mpr ⟨i.payloadHash, rfl, i.payloadHash_sha256⟩)

theorem anchoredHash_eq_ok (v : ProposalVersion) (link : Text)
    (h : anchoredHash db v = .ok link) :
    ∃ i, eventOf db v.outboxEvent = some i ∧ link = '0' :: 'x' :: i.payloadHash := by
  simp only [anchoredHash, bind_eq_ok, getRow_eq_ok, pure_eq_ok] at h
  obtain ⟨e, he, rfl⟩ := h
  exact ⟨e.toIdentity, by rw [eventOf, he]; rfl, rfl⟩

/-- The link of a publication is the anchor of the last version, or zero. -/
theorem Publishing.link_eq (p : Publishing C db db') (h : Chained db p.proposal p.row) :
    some (lower p.link) =
      ((versionsOf db p.proposal).getLast?.map (anchorOf db)).getD (some zeroHash) := by
  have hlinked := p.linked
  rw [latestVersion_eq _ _ h] at hlinked
  cases hlast : (versionsOf db p.proposal).getLast? with
  | none =>
    rw [hlast] at hlinked
    have hlink : zeroHash = p.link := by simpa [previousHash, pure_eq_ok] using hlinked
    rw [← hlink]
    rfl
  | some v =>
    rw [hlast] at hlinked
    obtain ⟨i, hi, hlink⟩ := anchoredHash_eq_ok v.2 p.link hlinked
    rw [hlink, lower_anchor, Option.map_some, Option.getD_some, anchorOf, hi]
    rfl

theorem Publishing.versionsOf_self (p : Publishing C db db') :
    versionsOf db' p.proposal = versionsOf db p.proposal ++ [(db.versions.next, p.version)] := by
  rw [versionsOf, p.versions_eq, Table.select_insert, if_pos (by simpa using p.version_proposal)]
  rfl

theorem Publishing.versionsOf_ne (p : Publishing C db db') (pk : ℕ) (h : pk ≠ p.proposal) :
    versionsOf db' pk = versionsOf db pk := by
  rw [versionsOf, p.versions_eq, Table.select_insert, p.version_proposal,
    if_neg (by simpa using h.symm), List.append_nil]
  rfl

/-- The published version continues the chain of its proposal. -/
theorem Publishing.chained (p : Publishing C db db') (hown : Ownership db)
    (h : Chained db p.proposal p.row) : Chained db' p.proposal p.rowAfter := by
  obtain ⟨i, hnew⟩ := p.newEvent hown
  rw [← p.outbox_eq] at hnew
  have hext := p.extends hown
  refine ⟨?_, ?_, ?_, ?_⟩
  · rw [p.versionsOf_self, List.map_append, h.numbered, List.length_append, List.length_singleton,
      List.range'_1_concat, List.map_singleton, p.version_number, nextNumber_eq _ _ h,
      Nat.add_comm 1]
  · rw [p.versionsOf_self, linked_concat]
    constructor
    · exact linked_congr _ _ _ _ _ _ (hext.anchors hown p.proposal) h.linked
    · rw [previousOf, p.version_event, hnew.eventOf_eq C _ _ _ db db', if_pos rfl, Option.map_some,
        hnew.previousHash_eq, p.link_eq h]
      congr 1
      cases hlast : (versionsOf db p.proposal).getLast? with
      | none => rfl
      | some v =>
        rw [Option.map_some, Option.map_some,
          (hext.anchors hown p.proposal v (List.mem_of_getLast? hlast)).2]
  · rw [p.versionsOf_self, List.getLast?_concat]
    rfl
  · rw [p.versionsOf_self]
    simp [Publishing.rowAfter]

theorem ChainInv.publish (hinv : ChainInv db) (p : Publishing C db db') : ChainInv db' where
  ownership := hinv.ownership.publish p
  references := hinv.references.publish p
  chained pk q hq := by
    rw [p.proposals_get] at hq
    split at hq
    · next hpk =>
      cases hq
      rw [hpk]
      exact p.chained hinv.ownership (hinv.chained _ _ p.row_get)
    · next hpk =>
      exact (hinv.chained pk q hq).mono pk q q hinv.ownership (p.extends hinv.ownership)
        (p.versionsOf_ne pk hpk) rfl Iff.rfl
  settled pk s hs := by
    rw [p.settlements_eq] at hs
    exact (hinv.settled pk s hs).mono s (p.extends hinv.ownership)
  once := by
    rw [p.settlements_eq]
    exact hinv.once

/-- The members of a settlement's payload. -/
theorem buildSettlementEvidencePayload_eq_ok (settlement : ℕ) (row : Settlement) (p : Proposal)
    (current : ℕ) (v : ProposalVersion) (payload : Json)
    (hp : db.proposals.get? row.proposal = some p) (hcurrent : p.currentVersion = some current)
    (hv : db.versions.get? current = some v)
    (h : buildSettlementEvidencePayload db settlement row = .ok payload) :
    ∃ ms, payload = .obj ms ∧ ("proposal_version".toList, Json.int v.number) ∈ ms := by
  simp only [buildSettlementEvidencePayload, bind_eq_ok, getRow_eq_ok, orRaise_eq_ok,
    pure_eq_ok] at h
  obtain ⟨p', hp', current', hcurrent', v', hv', _, _, _, _, rfl⟩ := h
  cases hp.symm.trans hp'
  cases hcurrent.symm.trans hcurrent'
  cases hv.symm.trans hv'
  exact ⟨_, rfl, by simp⟩

/-- The settlement a step records stands on the current version. -/
theorem Settling.standsOn (s : Settling C db db') (hown : Ownership db) : StandsOn db' s.stored := by
  obtain ⟨i, hnew⟩ := s.newEvent hown
  rw [← s.outbox_eq] at hnew
  have hext := s.extends hown
  obtain ⟨j, hj, hlink⟩ := anchoredHash_eq_ok s.version s.link s.linked
  obtain ⟨k, hk, hdenote⟩ := hnew.normalized
  obtain ⟨ms, hpayload, hmem⟩ := buildSettlementEvidencePayload_eq_ok _ _ s.row s.current s.version
    s.payload s.row_get s.row_current s.version_get s.built
  rw [hpayload] at hk
  refine ⟨s.row, s.current, s.version, s.event, i, ?_, .inl s.row_completed, s.row_current, ?_, rfl,
    rfl, ?_, ?_, ?_⟩
  · rw [s.proposals_eq]
    exact s.row_get
  · rw [s.versions_eq]
    exact s.version_get
  · rw [hnew.eventOf_eq C _ _ _ db db', if_pos rfl]
  · rw [anchorOf, hext.events _ j hj, Option.map_some, hnew.previousHash_eq, hlink, lower_anchor]
  · refine lookup_of_normalized C.unicode ms _ _ (C.unicode.nfc_ascii _ ?_) hmem k _ hk hnew.plain
      hdenote
    apply ascii_of_all
    rfl

theorem ChainInv.settle (hinv : ChainInv db) (s : Settling C db db') : ChainInv db' where
  ownership := hinv.ownership.settle s
  references := hinv.references.settle s
  chained pk q hq := by
    rw [s.proposals_eq] at hq
    refine (hinv.chained pk q hq).mono pk q q hinv.ownership (s.extends hinv.ownership) ?_ rfl Iff.rfl
    rw [versionsOf, s.versions_eq]
    rfl
  settled pk t ht := by
    rw [s.settlements_get] at ht
    split at ht
    · cases ht
      exact s.standsOn hinv.ownership
    · exact (hinv.settled pk t ht).mono t (s.extends hinv.ownership)
  once pk t pk' t' ht ht' heq := by
    rw [s.settlements_get] at ht ht'
    split at ht <;> split at ht'
    · next hpk hpk' => exact hpk.trans hpk'.symm
    · cases ht
      exact absurd heq.symm (s.unsettled pk' t' ht')
    · cases ht'
      exact absurd heq (s.unsettled pk t ht)
    · exact hinv.once pk t pk' t' ht ht' heq

/-- **One step keeps the chains.** -/
theorem ChainInv.step (hinv : ChainInv db) (h : BookStep C db db') : ChainInv db' := by
  cases h with
  | same h => exact hinv.same h
  | publish p => exact hinv.publish p
  | settle s => exact hinv.settle s

/-! ## Every run -/

/-- **Every reachable state has chained proposals.** -/
theorem ChainInv.reachable (h : db.Reachable C) : ChainInv db := by
  refine h.preserves ChainInv ?_ chainInv_empty
  exact fun db a db' hinv _ hstep => hinv.step (bookStep_of_step C db db' a hstep)

/-- **The books of a run extend those it started with.** -/
theorem extends_of_reaches (hinv : ChainInv db) (h : Reaches (Db.step C) Always db db') :
    Extends db db' := by
  refine h.monotone ChainInv Extends Extends.refl Extends.trans ?_ ?_ hinv
  · exact fun u a v hu _ hstep => hu.step (bookStep_of_step C u v a hstep)
  · exact fun u a v hu _ hstep => (bookStep_of_step C u v a hstep).extends hu.ownership

/-- **The hash chain of a proposal.** In every reachable state the versions of a proposal are
numbered from one without a gap; the evidence of the first names the zero hash and that of
every other the hash of the one before it; the current version is the last, and there is
none exactly while the proposal is a draft. A proposal has at most one settlement; it names
the last version in its evidence and in its link, has that version's amount, and no further
version is ever published. SOURCE: proposals.py:314-412, settlements.py:32-65 -/
theorem proposal_hash_chain (C : EvidenceConfig) (db : Db) (hreach : db.Reachable C) (pk : ℕ)
    (p : Proposal) (hp : db.proposals.get? pk = some p) :
    (versionsOf db pk).map (fun v => v.2.number) = List.range' 1 (versionsOf db pk).length ∧
    (∀ v, (versionsOf db pk).head? = some v → previousOf db v = some zeroHash) ∧
    (∀ k v w, (versionsOf db pk)[k]? = some v → (versionsOf db pk)[k + 1]? = some w →
      ∃ i, eventOf db v.2.outboxEvent = some i ∧
        previousOf db w = some ('0' :: 'x' :: i.payloadHash)) ∧
    p.currentVersion = (versionsOf db pk).getLast?.map Prod.fst ∧
    (p.currentVersion = none ↔ versionsOf db pk = []) ∧
    (versionsOf db pk = [] ↔ p.status = .draft) ∧
    (db.settlements.select fun s => s.proposal = pk).length ≤ 1 ∧
    (∀ key s, db.settlements.get? key = some s → s.proposal = pk →
      (∃ v i j event, (versionsOf db pk).getLast? = some v ∧
        eventOf db v.2.outboxEvent = some i ∧ s.outboxEvent = some event ∧
        eventOf db event = some j ∧ j.previousHash = '0' :: 'x' :: i.payloadHash ∧
        lookup "proposal_version" j.payload = some (.int v.2.number) ∧
        s.amountVnd = v.2.amountVnd) ∧
      ∀ db', Reaches (Db.step C) Always db db' → versionsOf db' pk = versionsOf db pk) := by
  have hinv := ChainInv.reachable hreach
  have hchain := hinv.chained pk p hp
  refine ⟨hchain.numbered, ?_, ?_, hchain.current, ?_, hchain.draft.symm, ?_, ?_⟩
  · intro v hv
    have hlinked := hchain.linked
    cases hvs : versionsOf db pk with
    | nil => rw [hvs] at hv; cases hv
    | cons w ws =>
      rw [hvs] at hv hlinked
      cases hv
      exact hlinked.1
  · intro k v w hv hw
    obtain ⟨hget, _⟩ := (Table.mem_select _ _ v.1 v.2).mp (List.mem_of_getElem? hv)
    obtain ⟨i, hi, _⟩ := hinv.ownership.version_event v.1 v.2 hget
    refine ⟨i, hi, ?_⟩
    rw [Linked.neighbours _ _ _ _ hchain.linked k v w hv hw, anchorOf, hi]
    rfl
  · rw [hchain.current, Option.map_eq_none_iff, List.getLast?_eq_none_iff]
  · refine Table.select_length_le_one _ _ fun key s key' s' hs hs' heq heq' => ?_
    exact hinv.once key s key' s' hs hs'
      ((of_decide_eq_true heq).trans (of_decide_eq_true heq').symm)
  · rintro key s hs rfl
    obtain ⟨q, current, v, event, j, hq, hfinished, hcurrent, hv, hamount, hevent, hj, hanchor,
      hlookup⟩ := hinv.settled key s hs
    cases hp.symm.trans hq
    obtain ⟨i, hi, hlink⟩ := Option.map_eq_some_iff.mp hanchor
    have hlast : (versionsOf db s.proposal).getLast? = some (current, v) := by
      have hmap := hchain.current.symm.trans hcurrent
      obtain ⟨w, hw, hkey⟩ := Option.map_eq_some_iff.mp hmap
      obtain ⟨hget, _⟩ := (Table.mem_select _ _ w.1 w.2).mp (List.mem_of_getLast? hw)
      rw [hkey, hv] at hget
      cases hget
      rw [hw, ← hkey]
    refine ⟨⟨(current, v), i, j, event, hlast, hi, hevent, hj, hlink.symm, hlookup, hamount⟩, ?_⟩
    exact fun db' hrun => (extends_of_reaches hinv hrun).finished _ p hp hfinished

/-! ## A proposal from its draft to its settlement -/

/-- A publication of `amount` under an event id of one digit. -/
def samplePublication (amount : ℤ) (digit : Char) : Publication where
  amountVnd := .int amount
  contractorName := .str " An Phu ".toList
  purpose := .str "Leak".toList
  proposedAction := .str "Fix".toList
  expectedStart := .text "2026-02-01".toList
  expectedEnd := .text "20260207".toList
  expectedSchedule := []
  quotationVersions := [some 1]
  eventId := '0' :: 'x' :: List.replicate 64 digit
  pricePredictionId := none
  publicToken := ['t', digit]

/-- The stored hash of a document of one byte. -/
def byteHash (b : UInt8) : Text := sampleConfig.hashing.sha256hex ⟨#[b]⟩

/-- A proposal is published twice, done and settled; the worker has confirmed its first event
and marked the second as a mismatch. -/
def sampleRun : List Command :=
  [.createBuilding, .createMembership 7 1, .createDocument ⟨1, .quotation⟩,
    .createDocument ⟨1, .paymentProof⟩, .createDocumentVersion ⟨1, byteHash 1, true⟩,
    .createDocumentVersion ⟨2, byteHash 2, true⟩, .createStandaloneProposal 500 1 7,
    .publishProposalVersion 1000 1 7 (samplePublication 500 '1'),
    .publishProposalVersion 2000 1 7 (samplePublication 600 '2'),
    .decideProposal 3000 1 7 (.bool true) [],
    .completeProposalWork 4000 1 7 "Old pipe".toList "Replaced".toList, .getOrCreateFund 1,
    .recordFundSource 5000 1 .inflow (.int 10000) (some 2) 7 .none true,
    .verifyFundSource 6000 1 7,
    .recordSettlement 7000 1 7 (some 2) ('0' :: 'x' :: List.replicate 64 '3'),
    .deliver 1 { Delivery.fresh with status := .confirmed },
    .deliver 2 { Delivery.fresh with status := .mismatch }]

/-- What the state after the run holds. -/
structure SampleFacts (db : Db) : Prop where
  proposal : (db.proposals.get? 1).isSome = true
  versions : (versionsOf db 1).map (fun v => v.2.number) = [1, 2]
  settlement : (db.settlements.get? 1).map (fun s => (s.proposal, s.settledBy)) = some (1, 1)
  membership : (db.memberships.get? 1).any (fun m => m.active) = true
  building : (db.buildings.get? 1).isSome = true
  balance : (fundBalance db 1 true).toOption = some 9400
  entry : (entryDocuments db 1).toOption.map (fun r => (r.1.proposal, r.1.settlement)) = some (1, 1)
  documents : (entryDocuments db 1).toOption.map (fun r => r.2.map fun c =>
    (c.documentVersion, c.row.sha256, pyEq (.str c.row.sha256) c.expected)) =
      some [(1, byteHash 1, true), (2, byteHash 2, true)]
  events : (relatedOutboxEvents db 1).toOption.map (fun es =>
    es.map fun e => (e.2.status, e.2.signerAddress)) =
      some [(.confirmed, '0' :: 'x' :: (List.replicate 39 '0' ++ ['5'])),
        (.mismatch, '0' :: 'x' :: (List.replicate 39 '0' ++ ['5'])),
        (.pending, '0' :: 'x' :: (List.replicate 39 '0' ++ ['5']))]

instance (db : Db) : Decidable (SampleFacts db) :=
  decidable_of_iff (_ ∧ _ ∧ _ ∧ _ ∧ _ ∧ _ ∧ _ ∧ _ ∧ _)
    ⟨fun ⟨h₁, h₂, h₃, h₄, h₅, h₆, h₇, h₈, h₉⟩ => ⟨h₁, h₂, h₃, h₄, h₅, h₆, h₇, h₈, h₉⟩,
      fun ⟨h₁, h₂, h₃, h₄, h₅, h₆, h₇, h₈, h₉⟩ => ⟨h₁, h₂, h₃, h₄, h₅, h₆, h₇, h₈, h₉⟩⟩

theorem sample_reachable : ∃ db : Db, db.Reachable sampleConfig ∧ SampleFacts db :=
  exists_of_run (Db.step sampleConfig) Db.empty SampleFacts sampleRun (by decide +kernel)

/-- The chain of the sample proposal: two versions, the second current. -/
theorem proposal_hash_chain_sample : ∃ db : Db, db.Reachable sampleConfig ∧ ∃ p,
    db.proposals.get? 1 = some p ∧ (versionsOf db 1).map (fun v => v.2.number) = [1, 2] ∧
    p.currentVersion = (versionsOf db 1).getLast?.map Prod.fst := by
  obtain ⟨db, hreach, hfacts⟩ := sample_reachable
  obtain ⟨p, hp⟩ := Option.isSome_iff_exists.mp hfacts.proposal
  have hchain := proposal_hash_chain sampleConfig db hreach 1 p hp
  exact ⟨db, hreach, p, hp, hfacts.versions, hchain.2.2.2.1⟩

end LamTo.Analysis
