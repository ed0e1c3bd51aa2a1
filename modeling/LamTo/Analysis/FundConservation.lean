import LamTo.Analysis.ProposalChain
import Mathlib.Algebra.BigOperators.Group.List.Basic
import Mathlib.Algebra.Group.Int.Defs

/-!
# Money is conserved

A settlement reaches the fund through three rows that three modules write in one
transaction: the settlement, its outflow and its entry of the published ledger. Two of the
writes are skipped when a row is found under a key; here they never are, since nothing else
writes under these keys (`FundInv`). So the balance of a building is what was verified as
coming in, less what its proposals were settled for.

SOURCE: src/lamto/finance/fund.py:116-249
-/

set_option autoImplicit false

namespace LamTo.Analysis

open LamTo.Library LamTo.Model

variable {C : EvidenceConfig} {db db' : Db}

/-! ## Source keys -/

theorem decimal_injective (m n : ℕ) (h : decimal m = decimal n) : m = n := by
  have hvalue := congrArg (fun t => Nat.ofDigitChars 10 t 0) h
  simpa only [decimal, Nat.ofDigitChars_toDigits (by decide : 1 < 10) le_rfl] using hvalue

theorem outflowKey_injective (m n : ℕ) (h : outflowKey m = outflowKey n) : m = n :=
  decimal_injective m n (List.append_cancel_left h)

/-- The key of a source is never that of an outflow: they differ in their second letter. -/
theorem sourceKey_ne_outflowKey (t : EntryType) (fund proposal : ℕ) (hash : Text)
    (ht : t.source = true) : sourceKey t fund hash ≠ outflowKey proposal := by
  intro h
  have hsecond := congrArg (fun k : Text => k[1]?) h
  cases t with
  | openingBalance => exact absurd (show some 'P' = some 'U' from hsecond) (by decide)
  | inflow => exact absurd (show some 'N' = some 'U' from hsecond) (by decide)
  | _ => cases ht

/-! ## The invariant -/

/-- The building an entry's fund belongs to. -/
def buildingOf (db : Db) (e : MaintenanceFundEntry) : Option ℕ :=
  (db.funds.get? e.fund).map fun f => f.building

/-- The entry is the outflow of a settlement, in the fund of the proposal's building. -/
def PostedFor (db : Db) (e : MaintenanceFundEntry) : Prop :=
  ∃ key s p fund, db.settlements.get? key = some s ∧ db.proposals.get? s.proposal = some p ∧
    db.funds.get? fund = some ⟨p.building⟩ ∧ e = outflowEntry fund s

/-- The entry is a source under a source's key. -/
def Sourced (e : MaintenanceFundEntry) : Prop :=
  e.entryType.source = true ∧ ∃ fund hash, e.sourceKey = sourceKey e.entryType fund hash

structure FundInv (db : Db) : Prop where
  chain : ChainInv db
  fund_unique : ∀ pk f pk' f', db.funds.get? pk = some f → db.funds.get? pk' = some f' →
    f.building = f'.building → pk = pk'
  entry_fund : ∀ pk e, db.fundEntries.get? pk = some e → (buildingOf db e).isSome = true
  entry_kind : ∀ pk e, db.fundEntries.get? pk = some e → Sourced e ∨ PostedFor db e
  once : ∀ pk e pk' e', db.fundEntries.get? pk = some e → db.fundEntries.get? pk' = some e' →
    e.entryType.source = false → e'.entryType.source = false → e.proposal = e'.proposal → pk = pk'
  posted : ∀ key s, db.settlements.get? key = some s →
    ∃ pk fund, db.fundEntries.get? pk = some (outflowEntry fund s)
  ledger_settlement : ∀ key l, db.ledger.get? key = some l →
    (db.settlements.get? l.settlement).isSome = true
  published : ∀ key s, db.settlements.get? key = some s →
    db.ledger.any (fun l => l.proposal = s.proposal) = true

theorem fundInv_empty : FundInv Db.empty where
  chain := chainInv_empty
  fund_unique _ _ _ _ h := by cases h
  entry_fund _ _ h := by cases h
  entry_kind _ _ h := by cases h
  once _ _ _ _ h := by cases h
  posted _ _ h := by cases h
  ledger_settlement _ _ h := by cases h
  published _ _ h := by cases h

/-! ## Funds -/

theorem FundOpened.kept (funds funds' : Table MaintenanceFund) (building fund : ℕ)
    (h : FundOpened funds funds' building fund) (pk : ℕ) (f : MaintenanceFund)
    (hf : funds.get? pk = some f) : funds'.get? pk = some f := by
  rcases h with ⟨_, rfl⟩ | ⟨_, _, rfl⟩
  · exact hf
  · exact Table.get?_insert_of_some _ _ _ pk hf

theorem FundOpened.found (funds funds' : Table MaintenanceFund) (building fund : ℕ)
    (h : FundOpened funds funds' building fund) : funds'.get? fund = some ⟨building⟩ := by
  rcases h with ⟨hget, rfl⟩ | ⟨_, rfl, rfl⟩
  · exact hget
  · rw [Table.get?_insert, if_pos rfl]

/-- Funds stay unique: one is opened only for a building that has none. -/
theorem FundOpened.unique (funds funds' : Table MaintenanceFund) (building fund : ℕ)
    (h : FundOpened funds funds' building fund)
    (hunique : ∀ pk f pk' f', funds.get? pk = some f → funds.get? pk' = some f' →
      f.building = f'.building → pk = pk') :
    ∀ pk f pk' f', funds'.get? pk = some f → funds'.get? pk' = some f' →
      f.building = f'.building → pk = pk' := by
  rcases h with ⟨_, rfl⟩ | ⟨hnone, _, rfl⟩
  · exact hunique
  · intro pk f pk' f' hf hf' heq
    rw [Table.get?_insert] at hf hf'
    split at hf <;> split at hf'
    · next hpk hpk' => exact hpk.trans hpk'.symm
    · cases hf
      exact absurd heq.symm (hnone pk' f' hf')
    · cases hf'
      exact absurd heq (hnone pk f hf)
    · exact hunique pk f pk' f' hf hf' heq

theorem buildingOf_kept (hfunds : ∀ pk f, db.funds.get? pk = some f → db'.funds.get? pk = some f)
    (e : MaintenanceFundEntry) (h : (buildingOf db e).isSome = true) :
    buildingOf db' e = buildingOf db e := by
  rw [buildingOf, Option.isSome_map] at h
  obtain ⟨f, hf⟩ := Option.isSome_iff_exists.mp h
  rw [buildingOf, buildingOf, hf, hfunds _ f hf]

/-! ## One step -/

theorem PostedFor.mono (e : MaintenanceFundEntry) (h : PostedFor db e) (hext : Extends db db')
    (hfunds : ∀ pk f, db.funds.get? pk = some f → db'.funds.get? pk = some f) :
    PostedFor db' e := by
  obtain ⟨key, s, p, fund, hs, hp, hfund, he⟩ := h
  obtain ⟨p', hp', hlater⟩ := hext.proposals _ p hp
  exact ⟨key, s, p', fund, hext.settlements _ s hs, hp', hlater.building_eq ▸ hfunds _ _ hfund, he⟩

/-- The same entries, the same ledger, the same settlements, and no fund lost. -/
structure SameEntries (db db' : Db) : Prop where
  fundEntries : db'.fundEntries.rows = db.fundEntries.rows
  ledger : db'.ledger.rows = db.ledger.rows
  settlements : db'.settlements.rows = db.settlements.rows
  funds_kept : ∀ pk f, db.funds.get? pk = some f → db'.funds.get? pk = some f
  funds_unique : (∀ pk f pk' f', db.funds.get? pk = some f → db.funds.get? pk' = some f' →
      f.building = f'.building → pk = pk') →
    ∀ pk f pk' f', db'.funds.get? pk = some f → db'.funds.get? pk' = some f' →
      f.building = f'.building → pk = pk'

theorem FundInv.same (hinv : FundInv db) (hchain : ChainInv db') (hext : Extends db db')
    (h : SameEntries db db') : FundInv db' := by
  have hentries : ∀ pk, db'.fundEntries.get? pk = db.fundEntries.get? pk :=
    Table.get?_congr _ _ h.fundEntries
  have hledger : ∀ pk, db'.ledger.get? pk = db.ledger.get? pk := Table.get?_congr _ _ h.ledger
  have hsettlements : ∀ pk, db'.settlements.get? pk = db.settlements.get? pk :=
    Table.get?_congr _ _ h.settlements
  refine ⟨hchain, h.funds_unique hinv.fund_unique, ?_, ?_, ?_, ?_, ?_, ?_⟩
  · intro pk e he
    have hsome := hinv.entry_fund pk e ((hentries pk).symm.trans he)
    rw [buildingOf_kept h.funds_kept e hsome]
    exact hsome
  · intro pk e he
    exact (hinv.entry_kind pk e ((hentries pk).symm.trans he)).imp_right fun hposted =>
      hposted.mono e hext h.funds_kept
  · simpa only [hentries] using hinv.once
  · simpa only [hentries, hsettlements] using hinv.posted
  · simpa only [hledger, hsettlements] using hinv.ledger_settlement
  · intro key s hs
    rw [Table.any, h.ledger]
    exact hinv.published key s ((hsettlements key).symm.trans hs)

theorem Recording.fundEntries_get (r : Recording db db') (pk : ℕ) :
    db'.fundEntries.get? pk = if pk = r.pk then some r.entry else db.fundEntries.get? pk := by
  rw [congrArg (fun d : Db => d.fundEntries) r.result]
  exact Table.get?_insertAt _ _ _ r.fresh pk

/-- A recorded source adds one entry of the sources' kind. -/
theorem FundInv.record (hinv : FundInv db) (hchain : ChainInv db') (hext : Extends db db')
    (r : Recording db db') : FundInv db' := by
  have hfunds : db'.funds = db.funds := by rw [r.result]
  have hledger : db'.ledger = db.ledger := by rw [r.result]
  have hsettlements : db'.settlements = db.settlements := by rw [r.result]
  have hbuilding : ∀ e, buildingOf db' e = buildingOf db e := fun e => by
    rw [buildingOf, buildingOf, hfunds]
  refine ⟨hchain, hfunds ▸ hinv.fund_unique, ?_, ?_, ?_, ?_, ?_, ?_⟩
  · intro pk e he
    rw [r.fundEntries_get] at he
    rw [hbuilding]
    split at he
    · cases he
      rw [buildingOf, r.entry_fund, r.fund_get]
      rfl
    · exact hinv.entry_fund pk e he
  · intro pk e he
    rw [r.fundEntries_get] at he
    split at he
    · cases he
      exact .inl ⟨r.entry_source, r.fund, r.sha256, r.entry_key⟩
    · exact (hinv.entry_kind pk e he).imp_right fun hposted =>
        hposted.mono e hext fun pk f hf => by rw [hfunds, hf]
  · intro pk e pk' e' he he' hsource hsource' heq
    rw [r.fundEntries_get] at he he'
    split at he
    · cases he
      exact absurd (r.entry_source.symm.trans hsource) (by decide)
    · split at he'
      · cases he'
        exact absurd (r.entry_source.symm.trans hsource') (by decide)
      · exact hinv.once pk e pk' e' he he' hsource hsource' heq
  · intro key s hs
    rw [hsettlements] at hs
    obtain ⟨pk, fund, he⟩ := hinv.posted key s hs
    refine ⟨pk, fund, ?_⟩
    rw [r.fundEntries_get, if_neg ?_, he]
    rintro rfl
    exact r.fresh.2 _ ((Table.get?_eq_some _ _ _).mp he) rfl
  · rw [hledger, hsettlements]
    exact hinv.ledger_settlement
  · rw [hledger, hsettlements]
    exact hinv.published

/-- A settlement is posted: nothing stands under its key. -/
theorem Settling.posted_inserted (s : Settling C db db') (hinv : FundInv db) :
    ∃ pk fresh, db'.fundEntries =
      db.fundEntries.insertAt pk (outflowEntry s.fund s.stored) fresh := by
  have hentries : db'.fundEntries = s.fundEntries :=
    congrArg (fun d : Db => d.fundEntries) s.result
  rw [hentries]
  have hposted := s.posted
  generalize s.fundEntries = entries at hposted ⊢
  cases hposted with
  | already key e he hkey =>
    exfalso
    rcases hinv.entry_kind key e he with ⟨hsource, fund, hash, hsourceKey⟩ |
      ⟨_, t, _, _, ht, _, _, rfl⟩
    · exact sourceKey_ne_outflowKey _ _ _ _ hsource (hsourceKey.symm.trans hkey)
    · exact s.unsettled _ t ht (outflowKey_injective _ _ hkey)
  | inserted pk fresh => exact ⟨pk, fresh, rfl⟩

/-- A settlement is published: the ledger has no entry for its new key. -/
theorem Settling.ledger_inserted (s : Settling C db db') (hinv : FundInv db) :
    ∃ l, l.proposal = s.proposal ∧ l.settlement = db.settlements.next ∧
      db'.ledger = db.ledger.insert l := by
  have hledger : db'.ledger = s.ledger := congrArg (fun d : Db => d.ledger) s.result
  rw [hledger]
  have hledgered := s.ledgered
  generalize s.ledger = ledger at hledgered ⊢
  cases hledgered with
  | already key l hl hsettlement =>
    have hsome := hinv.ledger_settlement key l hl
    rw [hsettlement, Table.get?_next] at hsome
    cases hsome
  | inserted l _ hproposal hsettlement => exact ⟨l, hproposal, hsettlement, rfl⟩

/-- Every other outflow is of an earlier settlement, and so of another proposal. -/
theorem Settling.outflow_other (s : Settling C db db') (hinv : FundInv db) (pk : ℕ)
    (e : MaintenanceFundEntry) (he : db.fundEntries.get? pk = some e)
    (hsource : e.entryType.source = false) : e.proposal ≠ some s.proposal := by
  intro heq
  rcases hinv.entry_kind pk e he with ⟨hsource', _⟩ | ⟨_, t, _, _, ht, _, _, rfl⟩
  · exact absurd (hsource'.symm.trans hsource) (by decide)
  · exact s.unsettled _ t ht (Option.some.inj heq)

theorem Settling.funds_eq (s : Settling C db db') : db'.funds = s.funds :=
  congrArg (fun d : Db => d.funds) s.result

theorem FundInv.settle (hinv : FundInv db) (hchain : ChainInv db') (hext : Extends db db')
    (s : Settling C db db') : FundInv db' := by
  obtain ⟨pk₀, fresh, hentries⟩ := s.posted_inserted hinv
  obtain ⟨l₀, hproposal₀, hsettlement₀, hledger⟩ := s.ledger_inserted hinv
  have hget : ∀ pk, db'.fundEntries.get? pk =
      if pk = pk₀ then some (outflowEntry s.fund s.stored) else db.fundEntries.get? pk := by
    intro pk
    rw [hentries]
    exact Table.get?_insertAt _ _ _ fresh pk
  have hkept : ∀ pk f, db.funds.get? pk = some f → db'.funds.get? pk = some f := by
    rw [s.funds_eq]
    exact s.opened.kept
  have hfound : db'.funds.get? s.fund = some ⟨s.row.building⟩ := by
    rw [s.funds_eq]
    exact s.opened.found
  have hstored : db'.settlements.get? db.settlements.next = some s.stored := by
    rw [s.settlements_get, if_pos rfl]
  refine ⟨hchain, ?_, ?_, ?_, ?_, ?_, ?_, ?_⟩
  · rw [s.funds_eq]
    exact s.opened.unique _ _ _ _ hinv.fund_unique
  · intro pk e he
    rw [hget] at he
    split at he
    · cases he
      rw [buildingOf, show (outflowEntry s.fund s.stored).fund = s.fund from rfl, hfound]
      rfl
    · have hsome := hinv.entry_fund pk e he
      rw [buildingOf_kept hkept e hsome]
      exact hsome
  · intro pk e he
    rw [hget] at he
    split at he
    · cases he
      exact .inr ⟨_, s.stored, s.row, s.fund, hstored, by rw [s.proposals_eq]; exact s.row_get,
        hfound, rfl⟩
    · exact (hinv.entry_kind pk e he).imp_right fun hposted => hposted.mono e hext hkept
  · intro pk e pk' e' he he' hsource hsource' heq
    rw [hget] at he he'
    split at he <;> split at he'
    · next hpk hpk' => exact hpk.trans hpk'.symm
    · cases he
      exact absurd heq.symm (s.outflow_other hinv pk' e' he' hsource')
    · cases he'
      exact absurd heq (s.outflow_other hinv pk e he hsource)
    · exact hinv.once pk e pk' e' he he' hsource hsource' heq
  · intro key t ht
    rw [s.settlements_get] at ht
    split at ht
    · cases ht
      exact ⟨pk₀, s.fund, by rw [hget, if_pos rfl]⟩
    · obtain ⟨pk, fund, he⟩ := hinv.posted key t ht
      refine ⟨pk, fund, ?_⟩
      rw [hget, if_neg ?_, he]
      rintro rfl
      exact fresh.2 _ ((Table.get?_eq_some _ _ _).mp he) rfl
  · intro key l hl
    rw [hledger, Table.get?_insert] at hl
    split at hl
    · cases hl
      rw [hsettlement₀, hstored]
      rfl
    · obtain ⟨t, ht⟩ := Option.isSome_iff_exists.mp (hinv.ledger_settlement key l hl)
      rw [hext.settlements _ t ht]
      rfl
  · intro key t ht
    rw [s.settlements_get] at ht
    rw [hledger, Table.any_eq_true]
    split at ht
    · cases ht
      exact ⟨db.ledger.next, l₀, by rw [Table.get?_insert, if_pos rfl], decide_eq_true hproposal₀⟩
    · obtain ⟨pk, l, hl, hp⟩ := (Table.any_eq_true _ _).mp (hinv.published key t ht)
      exact ⟨pk, l, Table.get?_insert_of_some _ _ _ pk hl, hp⟩

theorem SameEntries.of_rows (hfunds : db'.funds.rows = db.funds.rows)
    (hentries : db'.fundEntries.rows = db.fundEntries.rows)
    (hledger : db'.ledger.rows = db.ledger.rows)
    (hsettlements : db'.settlements.rows = db.settlements.rows) : SameEntries db db' := by
  have hget : ∀ pk, db'.funds.get? pk = db.funds.get? pk := Table.get?_congr _ _ hfunds
  exact ⟨hentries, hledger, hsettlements, fun pk f hf => (hget pk).trans hf,
    by simpa only [hget] using fun h => h⟩

/-- **One step keeps the fund.** -/
theorem FundInv.step (hinv : FundInv db) (a : Command) (h : Db.step C db a = some db') :
    FundInv db' := by
  have hbook := bookStep_of_step C db db' a h
  have hchain := hinv.chain.step hbook
  have hext := hbook.extends hinv.chain.ownership
  cases book_effect C db db' a h with
  | quiet _ q =>
    exact hinv.same hchain hext (.of_rows q.funds q.fundEntries q.ledger q.settlements)
  | publish _ _ p =>
    refine hinv.same hchain hext (.of_rows ?_ ?_ ?_ ?_) <;> rw [p.result]
  | settle _ _ _ _ s => exact hinv.settle hchain hext s
  | openFund building fund funds hopened result =>
    subst result
    exact hinv.same hchain hext ⟨rfl, rfl, rfl, hopened.kept, hopened.unique _ _ _ _⟩
  | record _ _ _ _ _ _ _ r => exact hinv.record hchain hext r
  | verify _ _ v =>
    refine hinv.same hchain hext (.of_rows ?_ ?_ ?_ ?_) <;> rw [v.result]

/-- **Every reachable state keeps the fund.** -/
theorem FundInv.reachable (h : db.Reachable C) : FundInv db := by
  refine h.preserves FundInv ?_ fundInv_empty
  exact fun db a db' hinv _ hstep => hinv.step a hstep

/-! ## The balance -/

/-- The row counts towards the balance of `building`. -/
def counted (db : Db) (building : ℕ) (verifiedOnly : Bool) (r : ℕ × MaintenanceFundEntry) : Bool :=
  buildingOf db r.2 = some building &&
    ((if verifiedOnly then sourceVerified db r.1 r.2 else r.2.entryType.source)
      || finalizedPosting db r.2)

/-- The sum of the amounts of some entries. -/
def total (rows : List (ℕ × MaintenanceFundEntry)) : ℤ := (rows.map fun r => r.2.amountVnd).sum

/-- The balance of a building is the sum over the entries of its fund, whether there is a
fund or not. -/
theorem fundBalance_eq_of_unique (hunique : ∀ pk f pk' f', db.funds.get? pk = some f →
      db.funds.get? pk' = some f' → f.building = f'.building → pk = pk') (building : ℕ)
    (hbuilding : (db.buildings.get? building).isSome = true) (verifiedOnly : Bool) :
    fundBalance db building verifiedOnly =
      .ok (total (db.fundEntries.rows.filter (counted db building verifiedOnly))) := by
  obtain ⟨u, hu⟩ := Option.isSome_iff_exists.mp hbuilding
  rw [fundBalance, require_true _ _ (Table.pos_of_get? _ _ u hu), ok_bind,
    require_true _ _ hbuilding, ok_bind]
  split
  · next hnone =>
    have hempty : db.fundEntries.rows.filter (counted db building verifiedOnly) = [] := by
      rw [List.filter_eq_nil_iff]
      intro r _ hcounted
      have hof := of_decide_eq_true (Bool.and_eq_true_iff.mp hcounted).1
      obtain ⟨f, hf, hfb⟩ := Option.map_eq_some_iff.mp hof
      exact absurd hfb (of_decide_eq_false ((Table.first?_eq_none _ _).mp hnone _ f hf))
    rw [hempty]
    rfl
  · next fund f hfirst =>
    obtain ⟨hf, hfb⟩ := Table.first?_eq_some _ _ _ _ hfirst
    have hfb := of_decide_eq_true hfb
    rw [pure_eq_ok, total]
    congr 2
    apply List.filter_congr
    intro r hr
    rw [counted]
    congr 1
    rw [decide_eq_decide]
    constructor
    · rintro rfl
      rw [buildingOf, hf, Option.map_some, hfb]
    · intro hof
      obtain ⟨g, hg, hgb⟩ := Option.map_eq_some_iff.mp hof
      exact hunique _ g _ f hg hf (hgb.trans hfb.symm)

theorem FundInv.fundBalance_eq (hinv : FundInv db) (building : ℕ)
    (hbuilding : (db.buildings.get? building).isSome = true) (verifiedOnly : Bool) :
    fundBalance db building verifiedOnly =
      .ok (total (db.fundEntries.rows.filter (counted db building verifiedOnly))) :=
  fundBalance_eq_of_unique hinv.fund_unique building hbuilding verifiedOnly

/-- Entries of two kinds that exclude each other. -/
theorem total_filter_or (rows : List (ℕ × MaintenanceFundEntry))
    (p q : ℕ × MaintenanceFundEntry → Bool) (h : ∀ r, p r = true → q r = false) :
    total (rows.filter fun r => p r || q r) = total (rows.filter p) + total (rows.filter q) := by
  induction rows with
  | nil => rfl
  | cons r rows ih =>
    rw [List.filter_cons, List.filter_cons, List.filter_cons]
    simp only [total, Bool.or_eq_true] at ih ⊢
    by_cases hp : p r = true
    · rw [if_pos (.inl hp), if_pos hp, if_neg (by rw [h r hp]; decide), List.map_cons,
        List.map_cons, List.sum_cons, List.sum_cons, ih, Int.add_assoc]
    · by_cases hq : q r = true
      · rw [if_pos (.inr hq), if_neg hp, if_pos hq, List.map_cons, List.map_cons, List.sum_cons,
          List.sum_cons, ih, Int.add_left_comm]
      · rw [if_neg (by simp [hp, hq]), if_neg hp, if_neg hq, ih]

/-- The verified sources of a building. -/
def verifiedSources (db : Db) (building : ℕ) : List (ℕ × MaintenanceFundEntry) :=
  db.fundEntries.rows.filter fun r =>
    buildingOf db r.2 = some building && sourceVerified db r.1 r.2

/-- The postings of a building that count. -/
def postings (db : Db) (building : ℕ) : List (ℕ × MaintenanceFundEntry) :=
  db.fundEntries.rows.filter fun r => buildingOf db r.2 = some building && finalizedPosting db r.2

/-- The settlements of the proposals of a building. -/
def settlementsOf (db : Db) (building : ℕ) : List (ℕ × Settlement) :=
  db.settlements.select fun s =>
    (db.proposals.get? s.proposal).map (fun p => p.building) = some building

/-- An outflow counts since its settlement is published. -/
theorem FundInv.finalizedPosting_outflow (hinv : FundInv db) (key fund : ℕ) (s : Settlement)
    (hs : db.settlements.get? key = some s) :
    finalizedPosting db (outflowEntry fund s) = true := hinv.published key s hs

theorem FundInv.mem_postings (hinv : FundInv db) (building pk : ℕ) (e : MaintenanceFundEntry) :
    (pk, e) ∈ postings db building ↔ db.fundEntries.get? pk = some e ∧
      buildingOf db e = some building ∧ e.entryType.source = false := by
  rw [postings, List.mem_filter, Table.get?_eq_some, Bool.and_eq_true, decide_eq_true_iff]
  refine and_congr_right fun hmem => and_congr_right fun _ => ?_
  constructor
  · intro hfinal
    simpa using (Bool.and_eq_true_iff.mp hfinal).1
  · intro hsource
    rcases hinv.entry_kind pk e ((Table.get?_eq_some _ _ _).mpr hmem) with
      ⟨hsource', _⟩ | ⟨key, s, _, fund, hs, _, _, rfl⟩
    · exact absurd (hsource'.symm.trans hsource) (by decide)
    · exact hinv.finalizedPosting_outflow key fund s hs

/-- **The postings of a building are its settlements**, each once. -/
theorem FundInv.postings_perm (hinv : FundInv db) (building : ℕ) :
    ((postings db building).map fun r => (r.2.proposal, r.2.amountVnd)).Perm
      ((settlementsOf db building).map fun r => (some r.2.proposal, -(r.2.amountVnd : ℤ))) := by
  have hleft : ((postings db building).map fun r => (r.2.proposal, r.2.amountVnd)).Nodup := by
    refine List.Nodup.map_on ?_ (db.fundEntries.rows_nodup.filter _)
    rintro ⟨pk, e⟩ hr ⟨pk', e'⟩ hr' heq
    obtain ⟨he, _, hsource⟩ := (hinv.mem_postings building pk e).mp hr
    obtain ⟨he', _, hsource'⟩ := (hinv.mem_postings building pk' e').mp hr'
    obtain rfl := hinv.once pk e pk' e' he he' hsource hsource' (Prod.mk.inj heq).1
    cases he.symm.trans he'
    rfl
  have hright : ((settlementsOf db building).map fun r =>
      (some r.2.proposal, -(r.2.amountVnd : ℤ))).Nodup := by
    refine List.Nodup.map_on ?_ (db.settlements.rows_nodup.filter _)
    rintro ⟨key, s⟩ hr ⟨key', s'⟩ hr' heq
    obtain ⟨hs, _⟩ := (Table.mem_select _ _ key s).mp hr
    obtain ⟨hs', _⟩ := (Table.mem_select _ _ key' s').mp hr'
    obtain rfl := hinv.chain.once key s key' s' hs hs' (Option.some.inj (Prod.mk.inj heq).1)
    cases hs.symm.trans hs'
    rfl
  rw [List.perm_ext_iff_of_nodup hleft hright]
  rintro ⟨proposal, amount⟩
  rw [List.mem_map, List.mem_map]
  constructor
  · rintro ⟨⟨pk, e⟩, hr, heq⟩
    obtain ⟨he, hof, hsource⟩ := (hinv.mem_postings building pk e).mp hr
    rcases hinv.entry_kind pk e he with ⟨hsource', _⟩ | ⟨key, s, p, fund, hs, hp, hfund, rfl⟩
    · exact absurd (hsource'.symm.trans hsource) (by decide)
    · refine ⟨(key, s), (Table.mem_select _ _ key s).mpr ⟨hs, decide_eq_true ?_⟩, heq⟩
      rw [buildingOf, show (outflowEntry fund s).fund = fund from rfl, hfund] at hof
      rw [hp]
      exact hof
  · rintro ⟨⟨key, s⟩, hr, heq⟩
    obtain ⟨hs, hof⟩ := (Table.mem_select _ _ key s).mp hr
    obtain ⟨pk, fund, he⟩ := hinv.posted key s hs
    refine ⟨(pk, outflowEntry fund s), (hinv.mem_postings building pk _).mpr ⟨he, ?_, rfl⟩, heq⟩
    -- The entry names a settlement of the same proposal, which is this one.
    rcases hinv.entry_kind pk _ he with ⟨hsource, _⟩ | ⟨_, t, p, fund', _, hp, hfund, heq'⟩
    · cases hsource
    · have hproposal : s.proposal = t.proposal :=
        Option.some.inj (congrArg MaintenanceFundEntry.proposal heq')
      have hfundeq : fund = fund' := congrArg MaintenanceFundEntry.fund heq'
      rw [hproposal, hp] at hof
      rw [buildingOf, show (outflowEntry fund s).fund = fund from rfl, hfundeq, hfund]
      exact of_decide_eq_true hof

theorem FundInv.total_postings (hinv : FundInv db) (building : ℕ) :
    total (postings db building) =
      -((settlementsOf db building).map fun r => (r.2.amountVnd : ℤ)).sum := by
  have hsum := ((hinv.postings_perm building).map Prod.snd).sum_eq
  rw [List.map_map, List.map_map] at hsum
  rw [List.sum_neg, List.map_map]
  exact hsum

/-! ## Other buildings -/

/-- The building whose fund a call posts to or whose sources it verifies. -/
def postsTo (db : Db) : Command → Option ℕ
  | .recordFundSource _ fund _ _ _ _ _ _ => (db.funds.get? fund).map fun f => f.building
  | .verifyFundSource _ entry _ => (db.fundEntries.get? entry).bind (buildingOf db)
  | .recordSettlement _ proposal _ _ _ => (db.proposals.get? proposal).map fun p => p.building
  | _ => none

/-- The balance stays when new entries belong to other buildings and old ones count as
before. -/
theorem FundInv.fundBalance_frame (hinv : FundInv db) (hinv' : FundInv db') (building : ℕ)
    (hbuilding : (db.buildings.get? building).isSome = true)
    (hbuilding' : (db'.buildings.get? building).isSome = true) (verifiedOnly : Bool)
    (new : List (ℕ × MaintenanceFundEntry))
    (hrows : db'.fundEntries.rows.Perm (new ++ db.fundEntries.rows))
    (hnew : ∀ r ∈ new, buildingOf db' r.2 ≠ some building)
    (hold : ∀ pk e, db.fundEntries.get? pk = some e →
      counted db' building verifiedOnly (pk, e) = counted db building verifiedOnly (pk, e)) :
    fundBalance db' building verifiedOnly = fundBalance db building verifiedOnly := by
  rw [hinv.fundBalance_eq building hbuilding, hinv'.fundBalance_eq building hbuilding']
  have hfilter : (new ++ db.fundEntries.rows).filter (counted db' building verifiedOnly) =
      db.fundEntries.rows.filter (counted db building verifiedOnly) := by
    rw [List.filter_append, List.filter_eq_nil_iff.mpr, List.nil_append]
    · exact List.filter_congr fun r hr => hold r.1 r.2 ((Table.get?_eq_some _ _ _).mpr hr)
    · intro r hr hcounted
      exact hnew r hr (of_decide_eq_true (Bool.and_eq_true_iff.mp hcounted).1)
  rw [total, total, ← hfilter]
  exact congrArg Except.ok ((hrows.filter _).map _).sum_eq

theorem any_insert {α : Type} (t : Table α) (a : α) (p : α → Bool) :
    (t.insert a).any p = (t.any p || p a) := by
  rw [Table.any, Table.any, Table.insert, List.any_append]
  simp

/-- Entries count as before when funds are kept and neither the ledger nor the verifications
change what is said about them. -/
theorem FundInv.counted_congr (hinv : FundInv db) (building : ℕ) (verifiedOnly : Bool) (pk : ℕ)
    (e : MaintenanceFundEntry) (he : db.fundEntries.get? pk = some e)
    (hfunds : ∀ pk f, db.funds.get? pk = some f → db'.funds.get? pk = some f)
    (hverified : buildingOf db e = some building →
      db'.verifications.any (fun v => v.entry = pk) = db.verifications.any fun v => v.entry = pk)
    (hledger : ∀ proposal, e.entryType.source = false → e.proposal = some proposal →
      db'.ledger.any (fun l => l.proposal = proposal) =
        db.ledger.any fun l => l.proposal = proposal) :
    counted db' building verifiedOnly (pk, e) = counted db building verifiedOnly (pk, e) := by
  have hfinal : finalizedPosting db' e = finalizedPosting db e := by
    rw [finalizedPosting, finalizedPosting]
    cases hsource : e.entryType.source with
    | true => rfl
    | false =>
      cases hproposal : e.proposal with
      | none => rfl
      | some proposal =>
        rw [Option.any_some, Option.any_some, hledger proposal hsource hproposal]
  rw [counted, counted, buildingOf_kept hfunds e (hinv.entry_fund pk e he), hfinal]
  by_cases hof : buildingOf db e = some building
  · rw [sourceVerified, sourceVerified, hverified hof]
  · rw [decide_eq_false hof, Bool.false_and, Bool.false_and]

/-- **A call that does not post to a building leaves its balance.** -/
theorem FundInv.fundBalance_step (hinv : FundInv db) (a : Command)
    (h : Db.step C db a = some db') (building : ℕ)
    (hbuilding : (db.buildings.get? building).isSome = true)
    (hposts : postsTo db a ≠ some building) (verifiedOnly : Bool) :
    fundBalance db' building verifiedOnly = fundBalance db building verifiedOnly := by
  have hinv' := hinv.step a h
  cases book_effect C db db' a h with
  | quiet _ q =>
    have hfunds := Table.get?_congr _ _ q.funds
    refine hinv.fundBalance_frame hinv' building hbuilding (q.buildings _ hbuilding) verifiedOnly
      [] (.of_eq q.fundEntries) (by simp) fun pk e he => ?_
    refine hinv.counted_congr building verifiedOnly pk e he
      (fun pk f hf => (hfunds pk).trans hf) (fun _ => ?_) fun _ _ _ => ?_
    · rw [Table.any, Table.any, q.verifications]
    · rw [Table.any, Table.any, q.ledger]
  | publish _ _ p =>
    have hresult := p.result
    refine hinv.fundBalance_frame hinv' building hbuilding (by rw [hresult]; exact hbuilding)
      verifiedOnly [] (.of_eq (by rw [hresult]; rfl)) (by simp) fun pk e he => ?_
    refine hinv.counted_congr building verifiedOnly pk e he
      (fun pk f hf => by rw [hresult]; exact hf) (fun _ => by rw [hresult]) fun _ _ _ => ?_
    rw [hresult]
  | openFund _ fund funds hopened result =>
    subst result
    refine hinv.fundBalance_frame hinv' building hbuilding hbuilding verifiedOnly [] (.refl _)
      (by simp) fun pk e he => ?_
    exact hinv.counted_congr building verifiedOnly pk e he hopened.kept (fun _ => rfl)
      fun _ _ _ => rfl
  | record _ _ _ _ _ _ _ r =>
    have hfunds : db'.funds = db.funds := by rw [r.result]
    refine hinv.fundBalance_frame hinv' building hbuilding (by rw [r.result]; exact hbuilding)
      verifiedOnly [(r.pk, r.entry)] ?_ ?_ fun pk e he => ?_
    · rw [congrArg (fun d : Db => d.fundEntries) r.result]
      exact Table.insertAt_perm _ _ _ r.fresh
    · intro x hx
      obtain rfl := List.mem_singleton.mp hx
      rw [buildingOf, hfunds, r.entry_fund]
      exact hposts
    · refine hinv.counted_congr building verifiedOnly pk e he
        (fun pk f hf => by rw [hfunds, hf]) (fun _ => ?_) fun _ _ _ => ?_
      · rw [show db'.verifications = db.verifications by rw [r.result]]
      · rw [show db'.ledger = db.ledger by rw [r.result]]
  | verify _ _ v =>
    refine hinv.fundBalance_frame hinv' building hbuilding (by rw [v.result]; exact hbuilding)
      verifiedOnly [] (.of_eq (by rw [v.result]; rfl)) (by simp) fun pk e he => ?_
    refine hinv.counted_congr building verifiedOnly pk e he
      (fun pk f hf => by rw [show db'.funds = db.funds by rw [v.result], hf]) (fun hof => ?_)
      fun _ _ _ => by rw [show db'.ledger = db.ledger by rw [v.result]]
    -- The verified entry belongs to another building, so this is not the one.
    have hne : pk ≠ v.entry := by
      rintro rfl
      rw [postsTo, he] at hposts
      exact hposts hof
    rw [congrArg (fun d : Db => d.verifications) v.result]
    dsimp only
    rw [any_insert, v.verification_entry, decide_eq_false hne.symm, Bool.or_false]
  | settle _ _ _ _ s =>
    obtain ⟨pk₀, fresh, hentries⟩ := s.posted_inserted hinv
    obtain ⟨l₀, hproposal₀, _, hledger⟩ := s.ledger_inserted hinv
    refine hinv.fundBalance_frame hinv' building hbuilding (by rw [s.result]; exact hbuilding)
      verifiedOnly [(pk₀, outflowEntry s.fund s.stored)] ?_ ?_ fun pk e he => ?_
    · rw [hentries]
      exact Table.insertAt_perm _ _ _ fresh
    · intro x hx
      obtain rfl := List.mem_singleton.mp hx
      rw [postsTo, s.row_get] at hposts
      rw [buildingOf, s.funds_eq, show (outflowEntry s.fund s.stored).fund = s.fund from rfl,
        s.opened.found]
      exact hposts
    · refine hinv.counted_congr building verifiedOnly pk e he
        (by rw [s.funds_eq]; exact s.opened.kept) (fun _ => by rw [s.result]) ?_
      intro proposal hsource hproposal
      have hne : l₀.proposal ≠ proposal := by
        rw [hproposal₀]
        rintro rfl
        exact s.outflow_other hinv pk e he hsource hproposal
      rw [hledger, any_insert, decide_eq_false hne, Bool.or_false]

/-- **Money is conserved.** In every reachable state the balance of a building is the sum of
its verified opening balances and inflows less the sum of the settlements of its proposals;
every settlement has exactly one outflow, which counts; and no call that posts to another
building, or to none, changes the balance. SOURCE: fund.py:116-249 -/
theorem money_conservation (C : EvidenceConfig) (db : Db) (hreach : db.Reachable C)
    (building : ℕ) (hbuilding : (db.buildings.get? building).isSome = true) :
    fundBalance db building true = .ok (total (verifiedSources db building) -
      ((settlementsOf db building).map fun r => (r.2.amountVnd : ℤ)).sum) ∧
    (∀ key s, (key, s) ∈ settlementsOf db building →
      ∃ pk e, db.fundEntries.get? pk = some e ∧ e.entryType = .outflow ∧
        e.proposal = some s.proposal ∧ e.amountVnd = -s.amountVnd ∧
        counted db building true (pk, e) = true ∧
        ∀ pk' e', db.fundEntries.get? pk' = some e' → e'.entryType = .outflow →
          e'.proposal = some s.proposal → pk' = pk) ∧
    (∀ a db', Db.step C db a = some db' → postsTo db a ≠ some building → ∀ verifiedOnly,
      fundBalance db' building verifiedOnly = fundBalance db building verifiedOnly) := by
  have hinv := FundInv.reachable hreach
  refine ⟨?_, ?_, ?_⟩
  · rw [hinv.fundBalance_eq building hbuilding, Int.sub_eq_add_neg, ← hinv.total_postings building,
      verifiedSources, postings, ← total_filter_or]
    · congr 2
      apply List.filter_congr
      intro r _
      rw [counted, if_pos rfl, Bool.and_or_distrib_left]
    · intro r hr
      have hsource := (Bool.and_eq_true_iff.mp (Bool.and_eq_true_iff.mp hr).2).1
      rw [finalizedPosting, hsource]
      simp
  · intro key s hmem
    obtain ⟨hs, _⟩ := (Table.mem_select _ _ key s).mp hmem
    have hpair : (some s.proposal, -(s.amountVnd : ℤ)) ∈
        (postings db building).map fun r => (r.2.proposal, r.2.amountVnd) :=
      (hinv.postings_perm building).mem_iff.mpr (List.mem_map.mpr ⟨(key, s), hmem, rfl⟩)
    obtain ⟨⟨pk, e⟩, hr, heq⟩ := List.mem_map.mp hpair
    obtain ⟨hproposal, hamount⟩ := Prod.mk.inj heq
    obtain ⟨he, hof, hsource⟩ := (hinv.mem_postings building pk e).mp hr
    refine ⟨pk, e, he, ?_, hproposal, hamount, ?_, ?_⟩
    · rcases hinv.entry_kind pk e he with ⟨hsource', _⟩ | ⟨_, _, _, _, _, _, _, rfl⟩
      · exact absurd (hsource'.symm.trans hsource) (by decide)
      · rfl
    · have hfinal := (List.mem_filter.mp hr).2
      rw [counted, Bool.and_or_distrib_left, hfinal, Bool.or_true]
    · intro pk' e' he' htype' hproposal'
      exact hinv.once pk' e' pk e he' he (by rw [htype']; rfl) hsource
        (hproposal'.trans hproposal.symm)
  · exact fun a db' hstep hposts verifiedOnly =>
      hinv.fundBalance_step a hstep building hbuilding hposts verifiedOnly

/-- In the sample state 10000 came in and 600 went out. -/
theorem money_conservation_sample : ∃ db : Db, db.Reachable sampleConfig ∧
    (fundBalance db 1 true).toOption = some 9400 ∧
    total (verifiedSources db 1) -
      ((settlementsOf db 1).map fun r => (r.2.amountVnd : ℤ)).sum = 9400 := by
  obtain ⟨db, hreach, hfacts⟩ := sample_reachable
  have hbalance := (money_conservation sampleConfig db hreach 1 hfacts.building).1
  refine ⟨db, hreach, hfacts.balance, ?_⟩
  have hvalue := hfacts.balance
  rw [hbalance] at hvalue
  exact Option.some.inj hvalue

end LamTo.Analysis
