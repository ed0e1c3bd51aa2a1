import LamTo.Analysis.ProposalChain

/-!
# Published rows re-hash to their anchors

The payload of a version is built from the arguments of its publication and checked, later,
against one rebuilt from the rows; that of a settlement reads the current version of its
proposal at both times. The check succeeds in every reachable state because nothing it reads
is ever rewritten (`Extends`), and because the fields about the case, which may be triaged
again, are taken over from the stored payload.

SOURCE: src/lamto/finance/integrity.py:39-105
-/

set_option autoImplicit false

namespace LamTo.Analysis

open LamTo.Library LamTo.Model

variable {C : EvidenceConfig} {db db' : Db}

/-! ## Payloads of numbers and hashes -/

/-- A member that holds a number or an ASCII text under an ASCII key. -/
def Bare (m : Text × Json) : Prop :=
  Ascii m.1 ∧ ((∃ n, m.2 = .int n) ∨ ∃ t, m.2 = .str t ∧ Ascii t)

/-- An object of bare members is in normal form. -/
theorem normal_of_bare (U : Unicode) (ms : List (Text × Json)) (hkeys : (ms.map Prod.fst).Nodup)
    (h : ∀ m ∈ ms, Bare m) : Normal U (.obj ms) := by
  refine ⟨⟨hkeys, (Json.plainMembers_iff ms).mpr fun m hm => ?_⟩,
    (nfcClosedMembers_iff U ms).mpr fun m hm => ?_⟩
  · rcases (h m hm).2 with ⟨n, hn⟩ | ⟨t, ht, _⟩
    · rw [hn]; trivial
    · rw [ht]; trivial
  · refine ⟨U.nfc_ascii _ (h m hm).1, ?_⟩
    rcases (h m hm).2 with ⟨n, hn⟩ | ⟨t, ht, hascii⟩
    · rw [hn]; trivial
    · rw [ht]
      exact U.nfc_ascii t hascii

theorem Bare.plain (m : Text × Json) (h : Bare m) : Json.Plain m.2 := by
  rcases h.2 with ⟨n, hn⟩ | ⟨t, ht, _⟩
  · rw [hn]; trivial
  · rw [ht]; trivial

theorem ascii_of_lowerHex (c : Char) (h : isLowerHex c = true) : c.toNat < 128 := by
  obtain ⟨d, hd, rfl⟩ := exists_digitChar c h
  revert d
  decide

theorem jsonHash_eq_ok (j : Json) (h : Text) :
    jsonHash C j = .ok h ↔ payloadHash C.unicode C.hashing (.ofJson j) = .ok h :=
  liftCanonical_eq_ok _ _

/-- A digest is ASCII. -/
theorem ascii_jsonHash (j : Json) (h : Text) (hj : jsonHash C j = .ok h) : Ascii h := by
  obtain ⟨b, _, rfl⟩ := (payloadHash_eq_ok _ _ _ _).mp ((jsonHash_eq_ok j h).mp hj)
  exact fun c hc => ascii_of_lowerHex c (C.hashing.sha256hex_digit b c hc)

/-- An object in normal form has a digest. -/
theorem exists_jsonHash (ms : List (Text × Json)) (hnormal : Normal C.unicode (.obj ms)) :
    ∃ h, jsonHash C (.obj ms) = .ok h := by
  refine ⟨_, (jsonHash_eq_ok _ _).mpr ((payloadHash_eq_ok _ _ _ _).mpr
    ⟨_, canonicalBytes_of_normal C.unicode (.obj ms) hnormal trivial, rfl⟩)⟩

/-! ## The parts of a version's payload -/

theorem ascii_category (c : CaseCategory) : Ascii c.code := by
  apply ascii_of_all
  cases c <;> rfl

theorem ascii_queue (q : ManagementQueue) : Ascii q.code := by
  apply ascii_of_all
  cases q <;> rfl

theorem bare_int (key : Text) (n : ℤ) (h : key.all (fun c => c.toNat < 128) = true) :
    Bare (key, .int n) := ⟨ascii_of_all key h, .inl ⟨n, rfl⟩⟩

theorem bare_str (key t : Text) (h : key.all (fun c => c.toNat < 128) = true) (ht : Ascii t) :
    Bare (key, .str t) := ⟨ascii_of_all key h, .inr ⟨t, rfl, ht⟩⟩

theorem normal_caseSnapshot (U : Unicode) (pk : ℕ) (c : MaintenanceCase) :
    Normal U (caseSnapshot pk c) := by
  refine normal_of_bare U _ (by simp only [List.map]; decide) fun m hm => ?_
  simp only [List.mem_cons, List.not_mem_nil, or_false] at hm
  rcases hm with rfl | rfl | rfl | rfl
  · exact bare_int _ _ (by decide)
  · exact bare_str _ _ (by decide) (ascii_category _)
  · exact bare_str _ _ (by decide) (ascii_queue _)
  · exact bare_int _ _ (by decide)

/-- The fields about the spend are bare and none of them is about the case. -/
theorem spendFields_spec (proposal : ℕ) (row : Proposal) (amountVnd number : ℕ)
    (snapshotHash quotationHash : Text) (hs : Ascii snapshotHash) (hq : Ascii quotationHash) :
    ∀ m ∈ spendFields proposal row amountVnd number snapshotHash quotationHash,
      Bare m ∧ casePayloadFields.contains m.1 = false := by
  intro m hm
  simp only [spendFields, List.mem_cons, List.not_mem_nil, or_false] at hm
  rcases hm with rfl | rfl | rfl | rfl | rfl | rfl | rfl
  · exact ⟨bare_int _ _ (by decide), rfl⟩
  · exact ⟨bare_int _ _ (by decide), rfl⟩
  · exact ⟨bare_int _ _ (by decide), rfl⟩
  · exact ⟨bare_int _ _ (by decide), rfl⟩
  · exact ⟨bare_int _ _ (by decide), rfl⟩
  · exact ⟨bare_str _ _ (by decide) hs, rfl⟩
  · exact ⟨bare_str _ _ (by decide) hq, rfl⟩

/-- The fields about the case are bare, distinct, and all about the case. -/
theorem caseFields_eq_ok (row : Proposal) (ms : List (Text × Json))
    (h : caseFields C db row = .ok ms) :
    (ms.map Prod.fst).Nodup ∧ ∀ m ∈ ms, Bare m ∧ casePayloadFields.contains m.1 = true := by
  unfold caseFields at h
  split at h
  · cases h
    exact ⟨List.nodup_nil, fun _ hm => absurd hm List.not_mem_nil⟩
  · simp only [bind_eq_ok, pure_eq_ok] at h
    obtain ⟨c, _, hash, hhash, rfl⟩ := h
    refine ⟨by simp only [List.map]; decide, fun m hm => ?_⟩
    simp only [List.mem_cons, List.not_mem_nil, or_false] at hm
    rcases hm with rfl | rfl
    · exact ⟨bare_int _ _ (by decide), rfl⟩
    · exact ⟨bare_str _ _ (by decide) (ascii_jsonHash _ _ hhash), rfl⟩

/-- The fields about the case can always be computed. -/
theorem exists_caseFields (row : Proposal)
    (h : ∀ case, row.case = some case → (db.cases.get? case).isSome = true) :
    ∃ ms, caseFields C db row = .ok ms := by
  unfold caseFields
  split
  · exact ⟨[], rfl⟩
  · next case hcase =>
    obtain ⟨c, hc⟩ := Option.isSome_iff_exists.mp (h case hcase)
    obtain ⟨hash, hhash⟩ := exists_jsonHash _ (normal_caseSnapshot C.unicode case c)
    refine ⟨[("case_id".toList, .int case), ("case_snapshot_hash".toList, .str hash)], ?_⟩
    simp only [bind_eq_ok, getRow_eq_ok, pure_eq_ok]
    exact ⟨c, hc, hash, hhash, rfl⟩

/-! ## The spend of a stored version -/

/-- The fields about the spend, computed from the stored rows. -/
def storedSpend (C : EvidenceConfig) (db : Db) (pk : ℕ) (v : ProposalVersion) :
    Except ServiceError (List (Text × Json)) := do
  let quotations ← quotationsOf db pk
  let p ← getRow "Proposal" db.proposals v.proposal
  let snapshotHash ← jsonHash C (snapshot v.proposal p v.terms quotations v.number)
  let quotationHash ← jsonHash C (.arr (quotations.map fun q => .str q.2.sha256))
  return spendFields v.proposal p v.amountVnd v.number snapshotHash quotationHash

theorem storedSpend_spec (pk : ℕ) (v : ProposalVersion) (spend : List (Text × Json))
    (h : storedSpend C db pk v = .ok spend) :
    (spend.map Prod.fst).Nodup ∧
      ∀ m ∈ spend, Bare m ∧ casePayloadFields.contains m.1 = false := by
  simp only [storedSpend, bind_eq_ok, pure_eq_ok] at h
  obtain ⟨_, _, _, _, _, hs, _, hq, rfl⟩ := h
  exact ⟨by simp only [spendFields, List.map]; decide,
    spendFields_spec _ _ _ _ _ _ (ascii_jsonHash _ _ hs) (ascii_jsonHash _ _ hq)⟩

/-- The documents of some links. -/
def readLinks (db : Db) (documents : List ℕ) :
    Except ServiceError (List (ℕ × DocumentVersion)) :=
  documents.mapM fun d => (getRow "DocumentVersion" db.documentVersions d).map (d, ·)

theorem quotationsOf_eq (pk : ℕ) :
    quotationsOf db pk = readLinks db ((linksOf db pk).map fun r => r.2.documentVersion) := by
  rw [readLinks, List.mapM_map]
  rfl

theorem readLinks_eq_ok (documents : List ℕ) (quotations : List (ℕ × DocumentVersion)) :
    readLinks db documents = .ok quotations ↔ documents = quotations.map Prod.fst ∧
      ∀ q ∈ quotations, db.documentVersions.get? q.1 = some q.2 := by
  induction documents generalizing quotations with
  | nil =>
    rw [readLinks, List.mapM_nil, pure_eq_ok]
    constructor
    · rintro rfl
      exact ⟨rfl, fun _ hq => absurd hq List.not_mem_nil⟩
    · rintro ⟨h, _⟩
      exact (List.map_eq_nil_iff.mp h.symm).symm
  | cons d documents ih =>
    rw [readLinks, List.mapM_cons]
    simp only [bind_eq_ok, pure_eq_ok]
    constructor
    · rintro ⟨q, hq, qs, hqs, rfl⟩
      obtain ⟨hdocs, hget⟩ := (ih qs).mp hqs
      obtain ⟨v, hv, rfl⟩ := (map_eq_ok _ _ _).mp hq
      rw [getRow_eq_ok] at hv
      refine ⟨by rw [hdocs]; rfl, ?_⟩
      exact List.forall_mem_cons.mpr ⟨hv, hget⟩
    · rintro ⟨hdocs, hget⟩
      cases quotations with
      | nil => cases hdocs
      | cons q qs =>
        obtain ⟨rfl, hrest⟩ := List.cons.inj hdocs
        obtain ⟨hq, hqs⟩ := List.forall_mem_cons.mp hget
        refine ⟨q, (map_eq_ok _ _ _).mpr ⟨q.2, (getRow_eq_ok _ _ _ _).mpr hq, rfl⟩, qs, ?_, rfl⟩
        exact (ih qs).mpr ⟨hrest, hqs⟩

/-- The spend of a stored version is the same at any later time. -/
theorem Extends.storedSpend_eq (hext : Extends db db') (pk : ℕ) (v : ProposalVersion)
    (spend : List (Text × Json)) (hv : db.versions.get? pk = some v)
    (h : storedSpend C db pk v = .ok spend) : storedSpend C db' pk v = .ok spend := by
  simp only [storedSpend, bind_eq_ok, getRow_eq_ok, pure_eq_ok] at h ⊢
  obtain ⟨quotations, hquotations, p, hp, snapshotHash, hs, quotationHash, hq, rfl⟩ := h
  obtain ⟨p', hp', hlater⟩ := hext.proposals _ p hp
  rw [quotationsOf_eq, readLinks_eq_ok] at hquotations
  obtain ⟨hlinks, hget⟩ := hquotations
  refine ⟨quotations, ?_, p', hp', snapshotHash, ?_, quotationHash, hq, ?_⟩
  · rw [quotationsOf_eq, hext.links pk v hv, readLinks_eq_ok]
    exact ⟨hlinks, fun q hmem => hext.documentVersions _ _ (hget q hmem)⟩
  · rw [snapshot, hlater.case_eq, hlater.building_eq]
    exact hs
  · rw [spendFields, hlater.building_eq]
    rfl

/-! ## The invariant -/

/-- The evidence of a version holds the spend of its rows and, besides, fields about the
case. -/
def VersionAnchored (C : EvidenceConfig) (db : Db) (pk : ℕ) (v : ProposalVersion) : Prop :=
  ∃ i spend rest, eventOf db v.outboxEvent = some i ∧ storedSpend C db pk v = .ok spend ∧
    (∀ m ∈ rest, casePayloadFields.contains m.1 = true) ∧ Normal C.unicode i.payload ∧
    Json.denote i.payload = Json.denote (.obj (spend ++ rest)) ∧ Rehashes C i

/-- The evidence of a settlement is what its rows give. -/
def SettlementAnchored (C : EvidenceConfig) (db : Db) (pk : ℕ) (s : Settlement) : Prop :=
  ∃ event i payload, s.outboxEvent = some event ∧ eventOf db event = some i ∧
    buildSettlementEvidencePayload db pk s = .ok payload ∧
    payloadHash C.unicode C.hashing (.ofJson payload) = .ok i.payloadHash ∧ Rehashes C i

structure EvidenceInv (C : EvidenceConfig) (db : Db) : Prop where
  chain : ChainInv db
  version : ∀ pk v, db.versions.get? pk = some v → VersionAnchored C db pk v
  settlement : ∀ pk s, db.settlements.get? pk = some s → SettlementAnchored C db pk s

theorem evidenceInv_empty (C : EvidenceConfig) : EvidenceInv C Db.empty where
  chain := chainInv_empty
  version _ _ h := by cases h
  settlement _ _ h := by cases h

theorem VersionAnchored.mono (pk : ℕ) (v : ProposalVersion) (h : VersionAnchored C db pk v)
    (hext : Extends db db') (hv : db.versions.get? pk = some v) : VersionAnchored C db' pk v := by
  obtain ⟨i, spend, rest, hi, hspend, hrest⟩ := h
  exact ⟨i, spend, rest, hext.events _ i hi, hext.storedSpend_eq pk v spend hv hspend, hrest⟩

/-- The payload of a settlement is the same at any later time: its proposal is finished, so
the current version stays. -/
theorem SettlementAnchored.mono (pk : ℕ) (s : Settlement) (h : SettlementAnchored C db pk s)
    (hext : Extends db db') (hstands : StandsOn db s) : SettlementAnchored C db' pk s := by
  obtain ⟨event, i, payload, hevent, hi, hbuilt, hrest⟩ := h
  refine ⟨event, i, payload, hevent, hext.events _ i hi, ?_, hrest⟩
  obtain ⟨p, current, v, _, _, hp, hfinished, hcurrent, hv, _⟩ := hstands
  obtain ⟨p', hp', hlater⟩ := hext.proposals _ p hp
  simp only [buildSettlementEvidencePayload, bind_eq_ok, getRow_eq_ok, orRaise_eq_ok,
    pure_eq_ok] at hbuilt ⊢
  obtain ⟨q, hq, current', hcurrent', v', hv', transfer, htransfer, rest⟩ := hbuilt
  cases hp.symm.trans hq
  exact ⟨p', hp', current', (hlater.finished hfinished).1.trans hcurrent', v',
    hext.versions _ v' hv', transfer, hext.documentVersions _ _ htransfer, rest⟩

/-! ## One step -/

/-- The links of the version a publication writes. -/
theorem Publishing.quotationsOf_eq (p : Publishing C db db') (href : References db) :
    quotationsOf db' db.versions.next = .ok p.quotations := by
  have hnone : linksOf db db.versions.next = [] := by
    rw [List.eq_nil_iff_forall_not_mem]
    rintro ⟨key, d⟩ hd
    obtain ⟨hget, hversion⟩ := (Table.mem_select _ _ key d).mp hd
    have hexists := href.link_version key d hget
    rw [of_decide_eq_true hversion, Table.get?_next] at hexists
    cases hexists
  rw [Analysis.quotationsOf_eq, linksOf, p.proposalDocuments_eq, select_foldl_insert, if_pos rfl,
    readLinks_eq_ok, p.documentVersions_eq]
  refine ⟨?_, p.quotations_get⟩
  rw [show db.proposalDocuments.select (fun d => d.proposalVersion = db.versions.next) = []
    from hnone]
  rfl

theorem Publishing.storedSpend_eq (p : Publishing C db db') (href : References db) :
    ∃ spend rest, storedSpend C db' db.versions.next p.version = .ok spend ∧
      caseFields C db p.row = .ok rest ∧ p.members = spend ++ rest := by
  have hsubmitted := p.submitted
  simp only [submissionSnapshot, bind_eq_ok, pure_eq_ok, Prod.mk.injEq] at hsubmitted
  obtain ⟨snapshotHash, hs, quotationHash, hq, rest, hrest, _, hmembers⟩ := hsubmitted
  refine ⟨_, rest, ?_, hrest, hmembers.symm⟩
  simp only [storedSpend, bind_eq_ok, getRow_eq_ok, pure_eq_ok]
  have hamount : p.version.amountVnd = p.terms.amountVnd := congrArg Terms.amountVnd p.version_terms
  refine ⟨p.quotations, p.quotationsOf_eq href, p.rowAfter, ?_, snapshotHash, ?_, quotationHash, hq,
    ?_⟩
  · rw [p.proposals_get, if_pos p.version_proposal]
  · rw [p.version_terms, p.version_proposal, p.version_number]
    exact hs
  · rw [hamount, p.version_proposal, p.version_number]
    rfl

theorem Publishing.anchored (p : Publishing C db db') (hown : Ownership db)
    (href : References db) : VersionAnchored C db' db.versions.next p.version := by
  obtain ⟨i, hnew⟩ := p.newEvent hown
  rw [← p.outbox_eq] at hnew
  obtain ⟨spend, rest, hspend, hrest, hmembers⟩ := p.storedSpend_eq href
  obtain ⟨hspendkeys, hspendbare⟩ := storedSpend_spec _ _ spend hspend
  obtain ⟨hrestkeys, hrestbare⟩ := caseFields_eq_ok _ rest hrest
  have hnormal : Normal C.unicode (.obj (spend ++ rest)) := by
    refine normal_of_bare _ _ ?_ ?_
    · rw [List.map_append, List.nodup_append]
      refine ⟨hspendkeys, hrestkeys, ?_⟩
      intro k hk k' hk' heq
      obtain ⟨m, hm, rfl⟩ := List.mem_map.mp hk
      obtain ⟨m', hm', rfl⟩ := List.mem_map.mp hk'
      have hcase := (hrestbare m' hm').2
      rw [← heq, (hspendbare m hm).2] at hcase
      cases hcase
    · intro m hm
      rcases List.mem_append.mp hm with hm | hm
      · exact (hspendbare m hm).1
      · exact (hrestbare m hm).1
  have hdenote : Json.denote i.payload = Json.denote (.obj (spend ++ rest)) := by
    obtain ⟨j, hj, hdenote⟩ := hnew.normalized
    rw [hmembers, normalize_ofJson _ _ hnormal] at hj
    cases hj
    exact hdenote
  refine ⟨i, spend, rest, ?_, hspend, fun m hm => (hrestbare m hm).2, ?_, hdenote, hnew.rehashes⟩
  · rw [p.version_event, hnew.eventOf_eq C _ _ _ db db', if_pos rfl]
  · exact hnormal.of_denote_eq _ _ _ hnew.plain hdenote

theorem Settling.anchored (s : Settling C db db') (hown : Ownership db) :
    SettlementAnchored C db' db.settlements.next s.stored := by
  obtain ⟨i, hnew⟩ := s.newEvent hown
  rw [← s.outbox_eq] at hnew
  refine ⟨s.event, i, s.payload, rfl, ?_, ?_, hnew.digest, hnew.rehashes⟩
  · rw [hnew.eventOf_eq C _ _ _ db db', if_pos rfl]
  · have hbuilt := s.built
    rw [buildSettlementEvidencePayload] at hbuilt ⊢
    rw [s.proposals_eq, s.versions_eq, s.documentVersions_eq]
    exact hbuilt

/-- **One step keeps the evidence of the published rows.** -/
theorem EvidenceInv.step (hinv : EvidenceInv C db) (h : BookStep C db db') :
    EvidenceInv C db' := by
  have hext := h.extends hinv.chain.ownership
  refine ⟨hinv.chain.step h, ?_, ?_⟩
  · have hold : ∀ pk v, db.versions.get? pk = some v → VersionAnchored C db' pk v :=
      fun pk v hv => (hinv.version pk v hv).mono pk v hext hv
    intro pk v hv
    cases h with
    | same h => exact hold pk v ((h.versions_get pk).symm.trans hv)
    | publish p =>
      rw [p.versions_get] at hv
      split at hv
      · next hpk =>
        cases hv
        rw [hpk]
        exact p.anchored hinv.chain.ownership hinv.chain.references
      · exact hold pk v hv
    | settle s =>
      rw [s.versions_eq] at hv
      exact hold pk v hv
  · have hold : ∀ pk s, db.settlements.get? pk = some s → SettlementAnchored C db' pk s :=
      fun pk s hs => (hinv.settlement pk s hs).mono pk s hext (hinv.chain.settled pk s hs)
    intro pk t ht
    cases h with
    | same h => exact hold pk t ((h.settlements_get pk).symm.trans ht)
    | publish p =>
      rw [p.settlements_eq] at ht
      exact hold pk t ht
    | settle s =>
      rw [s.settlements_get] at ht
      split at ht
      · next hpk =>
        cases ht
        rw [hpk]
        exact s.anchored hinv.chain.ownership
      · exact hold pk t ht

/-- **In every reachable state the rows carry their evidence.** -/
theorem EvidenceInv.reachable (h : db.Reachable C) : EvidenceInv C db := by
  refine h.preserves (EvidenceInv C) ?_ (evidenceInv_empty C)
  exact fun db a db' hinv _ hstep => hinv.step (bookStep_of_step C db db' a hstep)

/-! ## The check -/

/-- A plain value with the meaning of the stored payload has its hash. -/
theorem payloadHash_of_denote_eq (i : Identity) (k : Json) (hnormal : Normal C.unicode i.payload)
    (hrehash : Rehashes C i) (hk : Json.Plain k) (h : Json.denote k = Json.denote i.payload) :
    payloadHash C.unicode C.hashing (.ofJson k) = .ok i.payloadHash := by
  obtain ⟨bytes, hbytes, hhash⟩ := (payloadHash_eq_ok _ _ _ _).mp hrehash
  exact (payloadHash_eq_ok _ _ _ _).mpr ⟨bytes, canonicalBytes_of_denote_eq C.unicode _ bytes _ k
    hbytes (normalize_ofJson _ _ hnormal) hk h, hhash⟩

/-- The rebuilt payload: the spend of the rows, the rest from the stored payload. -/
theorem proposalVersionPayload_eq (href : References db) (pk : ℕ) (v : ProposalVersion)
    (spend stored : List (Text × Json)) (hspend : storedSpend C db pk v = .ok spend)
    (hstored : (stored.map Prod.fst).Nodup) :
    ((spend ++ stored.filter fun m => casePayloadFields.contains m.1).map Prod.fst).Nodup ∧
    proposalVersionPayload C db pk v stored =
      .ok (.obj (spend ++ stored.filter fun m => casePayloadFields.contains m.1)) := by
  obtain ⟨hspendkeys, hspendfields⟩ := storedSpend_spec pk v spend hspend
  have hnodup : ((spend ++ stored.filter fun m => casePayloadFields.contains m.1).map
      Prod.fst).Nodup := by
    rw [List.map_append, List.nodup_append]
    refine ⟨hspendkeys, hstored.sublist (List.filter_sublist.map _), ?_⟩
    intro k hk k' hk' heq
    obtain ⟨m, hm, rfl⟩ := List.mem_map.mp hk
    obtain ⟨m', hm', rfl⟩ := List.mem_map.mp hk'
    have hcase := (List.mem_filter.mp hm').2
    rw [← heq, (hspendfields m hm).2] at hcase
    cases hcase
  refine ⟨hnodup, ?_⟩
  simp only [storedSpend, bind_eq_ok, getRow_eq_ok, pure_eq_ok] at hspend
  obtain ⟨quotations, hquotations, p, hp, snapshotHash, hs, quotationHash, hq, hfields⟩ := hspend
  obtain ⟨rest, hrest⟩ := exists_caseFields (C := C) p fun case => href.case_exists _ p case hp
  have hfilter : (spend ++ rest).filter (fun m => !casePayloadFields.contains m.1) = spend := by
    rw [List.filter_append, List.filter_eq_self.mpr, List.filter_eq_nil_iff.mpr, List.append_nil]
    · exact fun m hm => by rw [((caseFields_eq_ok p rest hrest).2 m hm).2]; decide
    · exact fun m hm => by rw [(hspendfields m hm).2]; rfl
  simp only [proposalVersionPayload, submissionSnapshot, bind_eq_ok, getRow_eq_ok, pure_eq_ok]
  refine ⟨quotations, hquotations, p, hp,
    (snapshot v.proposal p v.terms quotations v.number, spend ++ rest),
    ⟨snapshotHash, hs, quotationHash, hq, rest, hrest, ?_⟩, ?_⟩
  · rw [← hfields]
    rfl
  · rw [hfilter, updateMembers, Json.foldl_assign_of_nodup _ _ hnodup]

/-- An event whose rows give its hash again is verified. -/
theorem checkLocalEvidence_of_published (event : ℕ) (i : Identity) (payload : Json)
    (hpublished : publishedPayload C db event i = .ok (some payload))
    (hpayload : payloadHash C.unicode C.hashing (.ofJson payload) = .ok i.payloadHash)
    (hrehash : Rehashes C i) :
    ∃ check, checkLocalEvidence C db event i = .ok check ∧ check.verified = true ∧
      check.storedPayloadRehash = some i.payloadHash ∧
      check.publishedRowsRehash = some i.payloadHash := by
  have hstored : lower (removePrefix i.payloadHash) = i.payloadHash := by
    rw [removePrefix, if_neg (take_two_ne_of_hash64 _ i.payloadHash_sha256),
      lower_hash64 _ i.payloadHash_sha256]
  have hrows : rowsRehash C (some payload) = .ok (some i.payloadHash) := by
    simp only [rowsRehash, bind_eq_ok, pure_eq_ok]
    exact ⟨_, (jsonHash_eq_ok _ _).mpr hpayload, rfl⟩
  refine ⟨⟨i.eventId, i.payloadHash, some i.payloadHash, none, some i.payloadHash, true⟩, ?_, rfl,
    rfl, rfl⟩
  rw [checkLocalEvidence, hpublished, hstored, hrehash]
  dsimp only
  rw [ok_bind, hrows, ok_bind, pure_eq_ok]
  simp

/-- The check of an event finds no alteration: the stored payload and the payload of the
published rows both hash to the stored hash. -/
def Unaltered (C : EvidenceConfig) (db : Db) (event : ℕ) : Prop :=
  ∃ e check, db.outbox.get? event = some e ∧
    checkLocalEvidence C db event e.toIdentity = .ok check ∧ check.verified = true ∧
    check.storedPayloadRehash = some e.payloadHash ∧ check.publishedRowsRehash = some e.payloadHash

theorem unaltered_of_published (event : ℕ) (i : Identity) (payload : Json)
    (hi : eventOf db event = some i)
    (hpublished : publishedPayload C db event i = .ok (some payload))
    (hpayload : payloadHash C.unicode C.hashing (.ofJson payload) = .ok i.payloadHash)
    (hrehash : Rehashes C i) : Unaltered C db event := by
  obtain ⟨check, hcheck⟩ := checkLocalEvidence_of_published event i payload hpublished hpayload
    hrehash
  obtain ⟨e, he, rfl⟩ := Option.map_eq_some_iff.mp hi
  exact ⟨e, check, he, hcheck⟩

theorem EvidenceInv.version_unaltered (hinv : EvidenceInv C db) (pk : ℕ) (v : ProposalVersion)
    (hv : db.versions.get? pk = some v) : Unaltered C db v.outboxEvent := by
  obtain ⟨i, spend, rest, hi, hspend, hrest, hnormal, hdenote, hrehash⟩ := hinv.version pk v hv
  cases hpayload : i.payload with
  | obj ms =>
    rw [hpayload] at hdenote hnormal
    obtain ⟨hkeys, hrebuilt⟩ := proposalVersionPayload_eq hinv.chain.references pk v spend ms hspend
      hnormal.plain.1
    have hspendbare := (storedSpend_spec pk v spend hspend).2
    have hfirst : db.versions.first? (fun w => w.outboxEvent = v.outboxEvent) = some (pk, v) := by
      refine Table.first?_eq_of_unique _ _ _ _ hv (by simp) fun pk' v' hv' heq => ?_
      exact hinv.chain.ownership.version_unique pk' v' pk v hv' hv (of_decide_eq_true heq)
    refine unaltered_of_published v.outboxEvent i
      (.obj (spend ++ ms.filter fun m => casePayloadFields.contains m.1)) hi ?_ ?_ hrehash
    · rw [publishedPayload, hfirst, hpayload]
      simp only [bind_eq_ok, pure_eq_ok]
      exact ⟨_, hrebuilt, rfl⟩
    · refine payloadHash_of_denote_eq i _ (hpayload ▸ hnormal) hrehash ⟨hkeys, ?_⟩ ?_
      · rw [Json.plainMembers_iff]
        intro m hm
        rcases List.mem_append.mp hm with hm | hm
        · exact (hspendbare m hm).1.plain
        · exact (Json.plainMembers_iff ms).mp hnormal.plain.2 m (List.mem_filter.mp hm).1
      · rw [hpayload, hdenote]
        refine congrArg Json.Tree.obj (Json.denoteMembers_overlay casePayloadFields.contains spend
          rest ms (fun m hm => (hspendbare m hm).2) hrest ?_)
        simpa only [Json.denote, Json.Tree.obj.injEq] using hdenote
  | _ =>
    rw [hpayload] at hdenote
    simp [Json.denote] at hdenote

theorem EvidenceInv.settlement_unaltered (hinv : EvidenceInv C db) (pk : ℕ) (s : Settlement)
    (event : ℕ) (hs : db.settlements.get? pk = some s) (hevent : s.outboxEvent = some event) :
    Unaltered C db event := by
  obtain ⟨event', i, payload, hevent', hi, hbuilt, hpayload, hrehash⟩ := hinv.settlement pk s hs
  cases hevent.symm.trans hevent'
  have hown := hinv.chain.ownership
  -- The event is of the settlements' type, so no version has it.
  have hnone : db.versions.first? (fun v => v.outboxEvent = event) = none := by
    rw [Table.first?_eq_none]
    intro pk' v hv
    obtain ⟨j, hj, htype⟩ := hown.version_event pk' v hv
    obtain ⟨event', k, hevent', hk, htype'⟩ := hown.settlement_event pk s hs
    cases hevent.symm.trans hevent'
    refine decide_eq_false fun heq => ?_
    rw [heq, hk] at hj
    cases hj
    exact absurd (htype.symm.trans htype') (by decide)
  have hfirst : db.settlements.first? (fun t => t.outboxEvent = some event) = some (pk, s) := by
    refine Table.first?_eq_of_unique _ _ _ _ hs (by simpa using hevent) fun pk' t ht heq => ?_
    exact hown.settlement_unique pk' t pk s ht hs ((of_decide_eq_true heq).trans hevent.symm)
  refine unaltered_of_published event i payload hi ?_ hpayload hrehash
  rw [publishedPayload, hnone, hfirst]
  simp only [bind_eq_ok, pure_eq_ok]
  exact ⟨payload, hbuilt, rfl⟩

/-- Every event has an owner, so none is ever found altered. -/
theorem EvidenceInv.event_unaltered (hinv : EvidenceInv C db) (event : ℕ) (i : Identity)
    (hi : eventOf db event = some i) : Unaltered C db event := by
  rcases hinv.chain.ownership.owned event i hi with ⟨_, pk, v, hv, rfl⟩ | ⟨_, pk, s, hs, howner⟩
  · exact hinv.version_unaltered pk v hv
  · exact hinv.settlement_unaltered pk s event hs howner

/-- **No false tamper alarm.** In every reachable state the check of the evidence of every
version and of every settlement succeeds: the stored payload hashes to the stored hash, and so
does the payload rebuilt from the published rows. SOURCE: integrity.py:39-105 -/
theorem no_false_tamper_alarm (C : EvidenceConfig) (db : Db) (hreach : db.Reachable C) :
    (∀ pk v, db.versions.get? pk = some v → Unaltered C db v.outboxEvent) ∧
    (∀ pk s event, db.settlements.get? pk = some s → s.outboxEvent = some event →
      Unaltered C db event) := by
  have hinv := EvidenceInv.reachable hreach
  exact ⟨hinv.version_unaltered, hinv.settlement_unaltered⟩

/-- The second version of the sample proposal and its settlement raise no alarm. -/
theorem no_false_tamper_alarm_sample : ∃ db : Db, db.Reachable sampleConfig ∧
    (∃ pk v, db.versions.get? pk = some v ∧ v.number = 2 ∧
      Unaltered sampleConfig db v.outboxEvent) ∧
    (∃ s event, db.settlements.get? 1 = some s ∧ s.outboxEvent = some event ∧
      Unaltered sampleConfig db event) := by
  obtain ⟨db, hreach, hfacts⟩ := sample_reachable
  obtain ⟨hversions, hsettlements⟩ := no_false_tamper_alarm sampleConfig db hreach
  have htwo : 2 ∈ (versionsOf db 1).map fun v => v.2.number := by
    rw [hfacts.versions]
    decide
  obtain ⟨v, hv, hnumber⟩ := List.mem_map.mp htwo
  obtain ⟨hget, _⟩ := (Table.mem_select _ _ v.1 v.2).mp hv
  obtain ⟨s, hs, _⟩ := Option.map_eq_some_iff.mp hfacts.settlement
  obtain ⟨event, _, hevent, _⟩ :=
    (EvidenceInv.reachable hreach).chain.ownership.settlement_event 1 s hs
  exact ⟨db, hreach, ⟨v.1, v.2, hget, hnumber, hversions v.1 v.2 hget⟩,
    s, event, hs, hevent, hsettlements 1 s event hs hevent⟩

end LamTo.Analysis
