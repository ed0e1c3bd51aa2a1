import LamTo.Analysis.MismatchRecorded
import LamTo.Library.Sweep
import LamTo.Model.IntegrityBatch

/-!
# Progress of the integrity sweep

The batch takes the first entries without an observation. An observed entry is never taken again,
although the comment in the batch says that older ones come after the new, and an entry whose check
raises stays without an observation and is taken first again. So a run is one sweep (`unobserved_batch`)
of the list of unobserved entries, in which the entries that raise stay.

* **One run** attempts as many entries as it should exactly when no entry is observed or enough are
  not (`pending_inTurn_iff`).
* **Runs** reach every entry in time exactly when the entries that verify can be cut into that many
  groups, each of which fits into one run with the entries that raise before it (`runs_cover_iff`).

SOURCE: src/lamto/config/worker.py:70-94, src/lamto/finance/integrity.py:210-334
-/

set_option autoImplicit false

namespace LamTo.Analysis

open LamTo.Library LamTo.Model

variable {C : EvidenceConfig} {db db' : Db} {storage : Storage} {chain : ChainAccess}

/-! ## One check -/

/-- The check of the entry raises. -/
def raises (C : EvidenceConfig) (db : Db) (storage : Storage) (chain : ChainAccess) (entry : ℕ) :
    Bool :=
  match verifyPublishedEntry C db 0 entry storage chain with
  | .ok _ => false
  | .error _ => true

/-- What a check that returns has written: an observation of the entry, and the audit trail. -/
theorem verifyDocuments_eq_ok (now entry pk : ℕ) (row : PublishedLedgerEntry)
    (checks : List DocumentCheck)
    (h : verifyDocuments C db now entry storage chain row checks = .ok (pk, db')) :
    ∃ o audit, pk = db.observations.next ∧ o.publishedEntry = entry ∧
      db' = { db with observations := db.observations.insert o, audit } := by
  simp only [verifyDocuments, bind_eq_ok] at h
  obtain ⟨_, _, ⟨_, _⟩, _, h⟩ := h
  split at h
  · simp only [bind_eq_ok, pure_eq_ok, Prod.mk.injEq] at h
    obtain ⟨_, _, _, _, db₁, haudit, rfl, rfl⟩ := h
    obtain ⟨audit, rfl⟩ := recordAudit_eq_ok _ _ _ _ _ _ _ _ _ haudit
    exact ⟨_, audit, rfl, rfl, rfl⟩
  · simp only [pure_eq_ok, Prod.mk.injEq] at h
    obtain ⟨rfl, rfl⟩ := h
    exact ⟨_, db.audit, rfl, rfl, rfl⟩

theorem verifyPublishedEntry_eq_ok (now entry pk : ℕ)
    (h : verifyPublishedEntry C db now entry storage chain = .ok (pk, db')) :
    ∃ o audit, o.publishedEntry = entry ∧
      db' = { db with observations := db.observations.insert o, audit } := by
  rw [verifyPublishedEntry, bind_eq_ok] at h
  obtain ⟨⟨row, checks⟩, _, hverify⟩ := h
  obtain ⟨o, audit, _, hentry, hdb⟩ := verifyDocuments_eq_ok now entry pk row checks hverify
  exact ⟨o, audit, hentry, hdb⟩

/-- When a check returns, in terms of what it reads. -/
theorem verify_returns_iff (now entry : ℕ) :
    (∃ r, verifyPublishedEntry C db now entry storage chain = .ok r) ↔
      ∃ row checks result, entryDocuments db entry = .ok (row, checks) ∧
        Decides C db storage chain row checks result ∧
        (result = .mismatch → PublisherActive db row) := by
  constructor
  · rintro ⟨⟨pk, db'⟩, h⟩
    rw [verifyPublishedEntry, bind_eq_ok] at h
    obtain ⟨⟨row, checks⟩, hdocuments, hverify⟩ := h
    obtain ⟨o, audit, rfl, _, rfl⟩ := verifyDocuments_eq_ok now entry pk row checks hverify
    have hobserves : Observes (verifyDocuments C db now entry storage chain row checks) o.result :=
      ⟨_, _, o, hverify, Table.get?_insert_self _ _, rfl⟩
    exact ⟨row, checks, o.result, hdocuments, (observes_iff now entry row checks _).mp hobserves⟩
  · rintro ⟨row, checks, result, hdocuments, hdecides⟩
    obtain ⟨pk, db', _, hverify, _⟩ := (observes_iff now entry row checks result).mpr hdecides
    exact ⟨(pk, db'), by rw [verifyPublishedEntry_eq now entry row checks hdocuments, hverify]⟩

/-- A check reads neither the observations nor the audit trail nor the clock to decide whether it
returns. -/
theorem verify_returns_eq (observations : Table VerificationObservation)
    (audit : Table AuditEvent) (now entry : ℕ) :
    (∃ r, verifyPublishedEntry C { db with observations, audit } now entry storage chain = .ok r) ↔
      raises C db storage chain entry = false := by
  have hreads : (∃ r, verifyPublishedEntry C { db with observations, audit } now entry storage
      chain = .ok r) ↔ ∃ r, verifyPublishedEntry C db 0 entry storage chain = .ok r :=
    (verify_returns_iff now entry).trans (Iff.symm (verify_returns_iff 0 entry))
  rw [hreads, raises]
  split
  · next r h => exact ⟨fun _ => rfl, fun _ => ⟨r, h⟩⟩
  · next e h =>
    rw [h]
    exact ⟨fun ⟨_, hr⟩ => (by cases hr), fun hr => (by cases hr)⟩

theorem verify_returns (now entry : ℕ) :
    (∃ r, verifyPublishedEntry C db now entry storage chain = .ok r) ↔
      raises C db storage chain entry = false :=
  verify_returns_eq db.observations db.audit now entry

theorem raises_eq (observations : Table VerificationObservation) (audit : Table AuditEvent)
    (entry : ℕ) :
    raises C { db with observations, audit } storage chain entry =
      raises C db storage chain entry := by
  have hiff : raises C { db with observations, audit } storage chain entry = false ↔
      raises C db storage chain entry = false :=
    (verify_returns 0 entry).symm.trans (verify_returns_eq observations audit 0 entry)
  rw [Bool.eq_iff_iff, ← not_iff_not, Bool.not_eq_true, Bool.not_eq_true]
  exact hiff

/-! ## One run -/

theorem observed_insert (o : VerificationObservation) (audit : Table AuditEvent) (pk : ℕ) :
    observed { db with observations := db.observations.insert o, audit } pk =
      (observed db pk || decide (o.publishedEntry = pk)) := by
  simp only [observed, Table.any, Table.insert, List.any_append, List.any_cons, List.any_nil,
    Bool.or_false]

/-- A run writes observations of the entries whose checks return. -/
theorem verifyEntries_spec (C : EvidenceConfig) (storage : Storage) (chain : ChainAccess)
    (now : ℕ → ℕ) (entries : List ℕ) (db : Db) :
    ∃ observations audit,
      (verifyEntries C now storage chain entries db).1 = { db with observations, audit } ∧
      ∀ pk, observed (verifyEntries C now storage chain entries db).1 pk =
        (observed db pk || decide (pk ∈ entries) && !raises C db storage chain pk) := by
  induction entries generalizing db with
  | nil => exact ⟨db.observations, db.audit, rfl, fun pk => by simp [verifyEntries]⟩
  | cons entry entries ih =>
    rw [verifyEntries]
    cases hverify : verifyPublishedEntry C db (now entry) entry storage chain with
    | error e =>
      obtain ⟨observations, audit, hdb, hobserved⟩ := ih db
      refine ⟨observations, audit, hdb, fun pk => ?_⟩
      have hraises : raises C db storage chain entry = true := by
        rw [← Bool.not_eq_false, ← verify_returns (now entry)]
        rintro ⟨r, hr⟩
        cases hverify.symm.trans hr
      rw [hobserved pk]
      by_cases hpk : pk = entry
      · rw [hpk, hraises]
        simp
      · simp [hpk]
    | ok r =>
      obtain ⟨observation, mid⟩ := r
      obtain ⟨o, trail, hentry, rfl⟩ := verifyPublishedEntry_eq_ok _ _ _ hverify
      obtain ⟨observations, audit, hdb, hobserved⟩ :=
        ih { db with observations := db.observations.insert o, audit := trail }
      refine ⟨observations, audit, hdb, fun pk => ?_⟩
      have hraises : raises C db storage chain entry = false :=
        (verify_returns (now entry) entry).mp ⟨_, hverify⟩
      rw [hobserved pk, raises_eq, observed_insert, hentry]
      by_cases hpk : pk = entry
      · rw [hpk, hraises]
        simp
      · simp [hpk, Ne.symm hpk]

theorem entriesInOrder_nodup (db : Db) : ((entriesInOrder db).map Prod.fst).Nodup := by
  have hperm : ((entriesInOrder db).map Prod.fst).Perm (db.ledger.rows.map Prod.fst) :=
    (List.perm_insertionSort _ _).map _
  exact hperm.nodup_iff.mpr db.ledger.keys_nodup

theorem unobserved_nodup (db : Db) : (unobservedEntries db).Nodup :=
  (entriesInOrder_nodup db).filter _

theorem mem_unobserved (pk : ℕ) :
    pk ∈ unobservedEntries db ↔
      (∃ row, db.ledger.get? pk = some row) ∧ observed db pk = false := by
  rw [unobservedEntries, List.mem_filter, Bool.not_eq_true', List.mem_map]
  refine and_congr_left fun _ => ⟨?_, ?_⟩
  · rintro ⟨⟨key, row⟩, hmem, rfl⟩
    exact ⟨row, (Table.get?_eq_some _ _ _).mpr ((List.mem_insertionSort _).mp hmem)⟩
  · rintro ⟨row, hrow⟩
    exact ⟨(pk, row), (List.mem_insertionSort _).mpr ((Table.get?_eq_some _ _ _).mp hrow), rfl⟩

/-- **A run is a sweep of the unobserved entries**, in which those that raise stay. -/
theorem unobserved_batch (limit : ℕ) (now : ℕ → ℕ) :
    unobservedEntries (processIntegrityBatch C db limit now storage chain).1 =
      sweep limit (raises C db storage chain) (unobservedEntries db) := by
  obtain ⟨observations, audit, hdb, hobserved⟩ :=
    verifyEntries_spec C storage chain now (pendingEntries db limit) db
  rw [sweep_eq_filter limit _ _ (unobserved_nodup db)]
  show unobservedEntries (verifyEntries C now storage chain (pendingEntries db limit) db).1 = _
  have horder : entriesInOrder (verifyEntries C now storage chain (pendingEntries db limit) db).1 =
      entriesInOrder db := by rw [hdb]; rfl
  rw [unobservedEntries, horder, unobservedEntries, List.filter_filter]
  refine List.filter_congr fun pk _ => ?_
  rw [hobserved pk, Bool.not_or, Bool.and_comm]
  rfl

/-- The entries stay, and whether their checks raise. -/
theorem batch_keeps (C : EvidenceConfig) (db : Db) (limit : ℕ) (now : ℕ → ℕ) (storage : Storage)
    (chain : ChainAccess) :
    (processIntegrityBatch C db limit now storage chain).1.ledger = db.ledger ∧
      raises C (processIntegrityBatch C db limit now storage chain).1 storage chain =
        raises C db storage chain := by
  obtain ⟨observations, audit, hdb, _⟩ :=
    verifyEntries_spec C storage chain now (pendingEntries db limit) db
  have hbatch : (processIntegrityBatch C db limit now storage chain).1 =
      { db with observations, audit } := hdb
  rw [hbatch]
  exact ⟨rfl, funext (raises_eq observations audit)⟩

/-- **Runs are sweeps.** -/
theorem unobserved_runs (C : EvidenceConfig) (db : Db) (limit : ℕ) (storage : Storage)
    (chain : ChainAccess) (clocks : List (ℕ → ℕ)) :
    (integrityRuns C limit storage chain clocks db).ledger = db.ledger ∧
      unobservedEntries (integrityRuns C limit storage chain clocks db) =
        (sweep limit (raises C db storage chain))^[clocks.length] (unobservedEntries db) := by
  induction clocks generalizing db with
  | nil => exact ⟨rfl, rfl⟩
  | cons now clocks ih =>
    obtain ⟨hledger, hraises⟩ := batch_keeps C db limit now storage chain
    obtain ⟨hkept, hsweeps⟩ := ih (processIntegrityBatch C db limit now storage chain).1
    refine ⟨hkept.trans hledger, ?_⟩
    rw [integrityRuns, hsweeps, hraises, unobserved_batch, List.length_cons,
      Function.iterate_succ_apply]

/-- **Entries that raise keep the others out**: when the first of the unobserved entries all raise,
no number of runs changes what is unobserved. -/
theorem sweep_blocked (limit : ℕ) (clocks : List (ℕ → ℕ))
    (h : ∀ pk ∈ pendingEntries db limit, raises C db storage chain pk = true) :
    unobservedEntries (integrityRuns C limit storage chain clocks db) = unobservedEntries db := by
  have hfixed : sweep limit (raises C db storage chain) (unobservedEntries db) =
      unobservedEntries db := by
    have hstay : (pendingEntries db limit).filter (raises C db storage chain) =
        pendingEntries db limit := List.filter_eq_self.mpr h
    exact (congrArg (· ++ (unobservedEntries db).drop limit) hstay).trans (List.take_append_drop _ _)
  rw [(unobserved_runs C db limit storage chain clocks).2, Function.iterate_fixed hfixed]

/-! ## In turn -/

/-- When an entry was last observed; 0 stands for never. -/
def lastObserved (db : Db) (entry : ℕ) : ℕ :=
  ((db.observations.select fun o => o.publishedEntry = entry).map fun r =>
    r.2.observedAt + 1).foldr max 0

/-- **The entries are attempted in turn**: as many as the limit allows, first those never observed
and then those observed longest ago. -/
structure InTurn (db : Db) (limit : ℕ) (attempted : List ℕ) : Prop where
  nodup : attempted.Nodup
  found : ∀ pk ∈ attempted, ∃ row, db.ledger.get? pk = some row
  length_eq : attempted.length = min limit db.ledger.rows.length
  ordered : attempted.Pairwise fun a b => lastObserved db a ≤ lastObserved db b
  oldest : ∀ a ∈ attempted, ∀ b row, db.ledger.get? b = some row → b ∉ attempted →
    lastObserved db a ≤ lastObserved db b

theorem lastObserved_unobserved (entry : ℕ) (h : observed db entry = false) :
    lastObserved db entry = 0 := by
  have hnone : (db.observations.select fun o => o.publishedEntry = entry) = [] := by
    rw [Table.select, List.filter_eq_nil_iff]
    intro r hr
    rw [Bool.not_eq_true]
    exact (Table.any_eq_false _ _).mp h r.1 r.2 ((Table.get?_eq_some _ _ _).mpr hr)
  rw [lastObserved, hnone]
  rfl

/-- The number of unobserved entries is that of all entries when none is observed. -/
theorem length_unobserved (db : Db) :
    (unobservedEntries db).length ≤ db.ledger.rows.length ∧
      ((unobservedEntries db).length = db.ledger.rows.length ↔
        ∀ pk row, db.ledger.get? pk = some row → observed db pk = false) := by
  have hlength : ((entriesInOrder db).map Prod.fst).length = db.ledger.rows.length := by
    rw [List.length_map, entriesInOrder, List.length_insertionSort]
  rw [← hlength]
  refine ⟨List.length_filter_le _ _, ?_⟩
  rw [unobservedEntries, List.length_filter_eq_length_iff]
  constructor
  · intro hall pk row hrow
    have hmem : pk ∈ (entriesInOrder db).map Prod.fst := List.mem_map.mpr
      ⟨(pk, row), (List.mem_insertionSort _).mpr ((Table.get?_eq_some _ _ _).mp hrow), rfl⟩
    simpa using hall pk hmem
  · intro hall pk hmem
    obtain ⟨⟨key, row⟩, hrow, rfl⟩ := List.mem_map.mp hmem
    rw [hall key row ((Table.get?_eq_some _ _ _).mpr ((List.mem_insertionSort _).mp hrow))]
    rfl

/-- **A run attempts its entries in turn** exactly when no entry is observed or at least as many
as the limit are not. -/
theorem pending_inTurn_iff (limit : ℕ) :
    InTurn db limit (pendingEntries db limit) ↔
      (∀ pk row, db.ledger.get? pk = some row → observed db pk = false) ∨
        limit ≤ (unobservedEntries db).length := by
  obtain ⟨hle, hall⟩ := length_unobserved db
  have hlength : (pendingEntries db limit).length = min limit (unobservedEntries db).length :=
    List.length_take
  constructor
  · intro hturn
    have heq := hturn.length_eq
    rw [← hall]
    omega
  · intro hcondition
    rw [← hall] at hcondition
    have hnever : ∀ pk ∈ pendingEntries db limit, lastObserved db pk = 0 := fun pk hpk =>
      lastObserved_unobserved pk ((mem_unobserved pk).mp (List.mem_of_mem_take hpk)).2
    refine ⟨(unobserved_nodup db).sublist (List.take_sublist _ _), fun pk hpk => ?_, by omega, ?_, ?_⟩
    · exact ((mem_unobserved pk).mp (List.mem_of_mem_take hpk)).1
    · refine List.pairwise_of_forall_mem_list fun a ha b hb => ?_
      rw [hnever a ha]
      exact Nat.zero_le _
    · intro a ha b row _ _
      rw [hnever a ha]
      exact Nat.zero_le _

/-! ## Progress -/

/-- **Every entry that can be verified is reached**: it has an observation after the runs. -/
def Covered (C : EvidenceConfig) (db : Db) (limit : ℕ) (storage : Storage) (chain : ChainAccess)
    (clocks : List (ℕ → ℕ)) : Prop :=
  ∀ pk row, db.ledger.get? pk = some row → observed db pk = false →
    raises C db storage chain pk = false →
    observed (integrityRuns C limit storage chain clocks db) pk = true

theorem runs_cover_iff (limit : ℕ) (clocks : List (ℕ → ℕ)) :
    Covered C db limit storage chain clocks ↔
      Grouped limit clocks.length (ahead (raises C db storage chain) 0 (unobservedEntries db)) := by
  obtain ⟨hledger, hsweeps⟩ := unobserved_runs C db limit storage chain clocks
  rw [← sweeps_done_iff, ← hsweeps]
  constructor
  · intro hcovered pk hpk
    obtain ⟨⟨row, hrow⟩, hunobserved⟩ := (mem_unobserved pk).mp hpk
    by_contra hreturns
    rw [Bool.not_eq_true] at hreturns
    rw [hsweeps] at hpk
    have hbefore := (mem_unobserved pk).mp (mem_of_mem_sweeps limit _ _ _ pk hpk)
    rw [hcovered pk row (by rw [← hledger]; exact hrow) hbefore.2 hreturns] at hunobserved
    cases hunobserved
  · intro hdone pk row hrow hunobserved hreturns
    by_contra hnot
    rw [Bool.not_eq_true] at hnot
    have hmem := (mem_unobserved pk).mpr ⟨⟨row, by rw [hledger]; exact hrow⟩, hnot⟩
    have hraises := hdone pk hmem
    rw [hreturns] at hraises
    cases hraises

/-- **The sweep makes progress exactly when** no entry is observed or at least `limit` are not, and
the unobserved entries that verify can be cut, in order, into as many groups as there are runs, each
group small enough to fit into one run with the entries that raise before its members. -/
theorem integrity_sweep_progress_iff (C : EvidenceConfig) (db : Db) (limit : ℕ) (storage : Storage)
    (chain : ChainAccess) (clocks : List (ℕ → ℕ))
    (hclocks : clocks.length = (db.ledger.rows.length + limit - 1) / limit) :
    InTurn db limit (pendingEntries db limit) ∧ Covered C db limit storage chain clocks ↔
      ((∀ pk row, db.ledger.get? pk = some row → observed db pk = false) ∨
        limit ≤ (unobservedEntries db).length) ∧
      Grouped limit ((db.ledger.rows.length + limit - 1) / limit)
        (ahead (raises C db storage chain) 0 (unobservedEntries db)) := by
  rw [pending_inTurn_iff, runs_cover_iff, hclocks]

/-! ## A published entry -/

/-- The check of the altered sample entry returns. -/
theorem SampleFacts.verifies (hfacts : SampleFacts db) (hreach : db.Reachable sampleConfig) :
    (∃ row, db.ledger.get? 1 = some row) ∧
      raises sampleConfig db (alteredStorage (.ok ⟨#[2]⟩)) disabledChain 1 = false := by
  obtain ⟨row, checks, hchecks, hsettlement, hdecides⟩ := hfacts.decides_mismatch hreach
  refine ⟨?_, (verify_returns 0 1).mp ((verify_returns_iff 0 1).mpr ⟨row, checks, .mismatch, hchecks,
    hdecides, fun _ => hfacts.publisherActive row hsettlement⟩)⟩
  simp only [entryDocuments, bind_eq_ok, orRaise_eq_ok] at hchecks
  obtain ⟨entry, hentry, _⟩ := hchecks
  exact ⟨entry, hentry⟩

/-- With no entry observed and a limit that takes them all, the first run observes every entry that
verifies. -/
theorem integrity_sweep_progress_first : ∃ db : Db, (∃ row, db.ledger.get? 1 = some row) ∧
    observed db 1 = false ∧
    observed (integrityRuns sampleConfig db.ledger.rows.length (alteredStorage (.ok ⟨#[2]⟩))
      disabledChain [fun _ => 8000] db) 1 = true := by
  obtain ⟨start, hreach, hfacts⟩ := sample_reachable
  obtain ⟨⟨row, hrow⟩, hreturns⟩ := hfacts.verifies hreach
  let db : Db := { start with observations := .empty }
  have hnone : ∀ pk row, db.ledger.get? pk = some row → observed db pk = false := fun _ _ _ => rfl
  have hreturns' : raises sampleConfig db (alteredStorage (.ok ⟨#[2]⟩)) disabledChain 1 = false :=
    (raises_eq .empty start.audit 1).trans hreturns
  have hpos : 0 < db.ledger.rows.length :=
    List.length_pos_of_mem ((Table.get?_eq_some _ _ _).mp hrow)
  have hone : (db.ledger.rows.length + db.ledger.rows.length - 1) / db.ledger.rows.length = 1 := by
    rw [Nat.div_eq_iff hpos]
    omega
  -- All the entries that verify are one group.
  have hgrouped : Grouped db.ledger.rows.length 1 (ahead (raises sampleConfig db
      (alteredStorage (.ok ⟨#[2]⟩)) disabledChain) 0 (unobservedEntries db)) := by
    refine ⟨[_], List.flatten_singleton, Nat.le_refl 1, fun g hg b hb => ?_⟩
    obtain rfl := List.mem_singleton.mp hg
    have hbound := (ahead_bounds _ _ _ b hb).2
    have hlength := length_ahead (raises sampleConfig db (alteredStorage (.ok ⟨#[2]⟩))
      disabledChain) 0 (unobservedEntries db)
    have hall := (length_unobserved db).2.mpr hnone
    omega
  have hprogress := (integrity_sweep_progress_iff sampleConfig db db.ledger.rows.length
    (alteredStorage (.ok ⟨#[2]⟩)) disabledChain [fun _ => 8000] hone.symm).mpr
      ⟨.inl hnone, by rw [hone]; exact hgrouped⟩
  exact ⟨db, ⟨row, hrow⟩, rfl, hprogress.2 1 row hrow rfl hreturns'⟩

/-- **A run that attempts too few entries**: once an entry is observed, a run whose limit takes all
entries leaves it out. -/
theorem integrity_sweep_skips_observed : ∃ (db : Db) (limit : ℕ), db.Reachable sampleConfig ∧
    1 ≤ limit ∧ observed db 1 = true ∧ 1 ∉ pendingEntries db limit ∧
    ¬ InTurn db limit (pendingEntries db limit) := by
  obtain ⟨start, hreach, hfacts⟩ := sample_reachable
  obtain ⟨⟨row, hrow⟩, hreturns⟩ := hfacts.verifies hreach
  obtain ⟨⟨pk, db⟩, hverify⟩ := (verify_returns 8000 1).mpr hreturns
  obtain ⟨o, audit, hentry, rfl⟩ := verifyPublishedEntry_eq_ok 8000 1 pk hverify
  have hobserved : observed { start with observations := start.observations.insert o, audit } 1 =
      true := by
    rw [observed_insert, hentry, decide_eq_true rfl, Bool.or_true]
  refine ⟨_, start.ledger.rows.length, hreach.tail ⟨.verifyPublishedEntry 8000 1
    (alteredStorage (.ok ⟨#[2]⟩)) disabledChain, trivial, ?_⟩, ?_, hobserved, ?_, ?_⟩
  · rw [Db.step, hverify]
    rfl
  · exact List.length_pos_of_mem ((Table.get?_eq_some _ _ _).mp hrow)
  · intro hpending
    rw [((mem_unobserved 1).mp (List.mem_of_mem_take hpending)).2] at hobserved
    cases hobserved
  · obtain ⟨hle, hall⟩ := length_unobserved
      { start with observations := start.observations.insert o, audit }
    have hnotall : ¬ ∀ pk row, start.ledger.get? pk = some row →
        observed { start with observations := start.observations.insert o, audit } pk = false := by
      intro hnone
      rw [hnone 1 row hrow] at hobserved
      cases hobserved
    rw [pending_inTurn_iff]
    rintro (hnone | hmany)
    · exact hnotall hnone
    · exact hnotall (hall.mp (Nat.le_antisymm hle hmany))

end LamTo.Analysis
