import LamTo.Analysis.DraftSteps

/-!
# Drafts in the order they were written

Whatever the event loop does between the steps of the operations, the operations on one occupancy
take effect one after another in the order they were enqueued, and the draft that is read is the
one of the last operation that took effect.

* `OrderInv`: how the chains tie the operations of an occupancy together.
* `StoredInv`: where the stored drafts come from.
* `drafts_in_order`: the result about every run.

SOURCE: src/app/lib/features/reports/report_draft.dart:110-160
-/

set_option autoImplicit false

namespace LamTo.Analysis

open LamTo.Library LamTo.Model

variable {V : Type} {s s' : DraftStore V}

/-- **How the chains tie the operations of an occupancy.** An operation is chained after the ones
before it, as far as they are not settled; it begins when they are; the chain of an occupancy
ends with its last operation, and is there while one is not settled. -/
structure OrderInv (s : DraftStore V) : Prop where
  linked : ∀ (i j : ℕ) (p op : DraftOp V), i < j → s.ops[i]? = some p → s.ops[j]? = some op →
    p.occupancy = op.occupancy → p.stage.isSettled = true ∨
      ∃ (k : ℕ) (q : DraftOp V), op.previous = some k ∧ i ≤ k ∧ k < j ∧ s.ops[k]? = some q ∧
        q.occupancy = op.occupancy
  order : ∀ (i j : ℕ) (p op : DraftOp V), i < j → s.ops[i]? = some p → s.ops[j]? = some op →
    p.occupancy = op.occupancy → op.stage ≠ .waiting → p.stage.isSettled = true
  last : ∀ occupancy k, s.chains.lookup occupancy = some k →
    (∃ q : DraftOp V, s.ops[k]? = some q ∧ q.occupancy = occupancy) ∧
      ∀ (i : ℕ) (op : DraftOp V), s.ops[i]? = some op → op.occupancy = occupancy → i ≤ k
  chained : ∀ (i : ℕ) (op : DraftOp V), s.ops[i]? = some op → op.stage.isSettled = false →
    (s.chains.lookup op.occupancy).isSome = true

theorem orderInv_empty : OrderInv (DraftStore.empty : DraftStore V) where
  linked _ _ _ _ _ h := by cases h
  order _ _ _ _ _ h := by cases h
  last _ _ h := by cases h
  chained _ _ h := by cases h

/-- Settled in the state before, settled after. -/
theorem OpLater.isSettled {op op' : DraftOp V} (h : OpLater op op')
    (hsettled : op.stage.isSettled = true) : op'.stage.isSettled = true := by
  rw [h.settled hsettled]
  exact hsettled

theorem not_waiting_of_settled {stage : OpStage} (h : stage.isSettled = true) :
    stage ≠ .waiting := by
  rintro rfl
  cases h

/-- An operation that finds the one it is chained after settled finds all of them settled. -/
theorem OrderInv.ready (hinv : OrderInv s) (i j : ℕ) (p op : DraftOp V) (hij : i < j)
    (hp : s.ops[i]? = some p) (hop : s.ops[j]? = some op) (hsame : p.occupancy = op.occupancy)
    (hready : ∀ k, op.previous = some k → s.isSettled k = true) : p.stage.isSettled = true := by
  rcases hinv.linked i j p op hij hp hop hsame with hsettled | ⟨k, q, hprevious, hik, _, hq, hof⟩
  · exact hsettled
  · obtain ⟨q', hq', hsettled⟩ := (isSettled_iff k).mp (hready k hprevious)
    cases hq.symm.trans hq'
    rcases Nat.eq_or_lt_of_le hik with rfl | hik
    · cases hp.symm.trans hq
      exact hsettled
    · exact hinv.order i k p q hik hp hq (hsame.trans hof.symm) (not_waiting_of_settled hsettled)

theorem OrderInv.step (hinv : OrderInv s) (h : DraftEffect s s') : OrderInv s' where
  linked i j p' op' hij hp' hop' hsame := by
    rcases h.found j op' hop' with ⟨op, hop, hlater⟩ | ⟨occupancy, draft, rfl, rfl, rfl⟩
    · have hi : i < s.ops.length := lt_trans hij (List.getElem?_eq_some_iff.mp hop).1
      obtain ⟨p'', hp'', hplater⟩ := h.kept i _ (List.getElem?_eq_getElem hi)
      cases hp''.symm.trans hp'
      rw [hplater.occupancy_eq, hlater.occupancy_eq] at hsame
      rcases hinv.linked i j _ op hij (List.getElem?_eq_getElem hi) hop hsame with hsettled |
        ⟨k, q, hprevious, hik, hkj, hq, hof⟩
      · exact .inl (hplater.isSettled hsettled)
      · obtain ⟨q', hq', hqlater⟩ := h.kept k q hq
        exact .inr ⟨k, q', hlater.previous_eq.trans hprevious, hik, hkj, hq',
          hqlater.occupancy_eq.trans (hof.trans hlater.occupancy_eq.symm)⟩
    · obtain ⟨p, hp⟩ : ∃ p, s.ops[i]? = some p := ⟨_, List.getElem?_eq_getElem hij⟩
      obtain ⟨p'', hp'', hplater⟩ := h.kept i p hp
      cases hp''.symm.trans hp'
      rw [hplater.occupancy_eq] at hsame
      by_cases hsettled : p.stage.isSettled = true
      · exact .inl (hplater.isSettled hsettled)
      · obtain ⟨k, hk⟩ := Option.isSome_iff_exists.mp
          (hinv.chained i p hp (Bool.not_eq_true _ ▸ hsettled))
        rw [hsame] at hk
        obtain ⟨⟨q, hq, hof⟩, hlast⟩ := hinv.last occupancy k hk
        obtain ⟨q', hq', hqlater⟩ := h.kept k q hq
        exact .inr ⟨k, q', hk, hlast i p hp hsame, (List.getElem?_eq_some_iff.mp hq).1, hq',
          hqlater.occupancy_eq.trans hof⟩
  order i j p' op' hij hp' hop' hsame hbegun := by
    rcases h.found j op' hop' with ⟨op, hop, hlater⟩ | ⟨occupancy, draft, rfl, rfl, rfl⟩
    · have hi : i < s.ops.length := lt_trans hij (List.getElem?_eq_some_iff.mp hop).1
      obtain ⟨p'', hp'', hplater⟩ := h.kept i _ (List.getElem?_eq_getElem hi)
      cases hp''.symm.trans hp'
      rw [hplater.occupancy_eq, hlater.occupancy_eq] at hsame
      refine hplater.isSettled ?_
      rcases h.begun j op op' hop hop' hbegun with hbefore | hready
      · exact hinv.order i j _ op hij (List.getElem?_eq_getElem hi) hop hsame hbefore
      · exact hinv.ready i j _ op hij (List.getElem?_eq_getElem hi) hop hsame hready
    · exact absurd rfl hbegun
  last occupancy k hk := by
    rcases h.chained occupancy k hk with hold | ⟨draft, rfl, rfl⟩
    · obtain ⟨⟨q, hq, hof⟩, hlast⟩ := hinv.last occupancy k hold
      obtain ⟨q', hq', hqlater⟩ := h.kept k q hq
      refine ⟨⟨q', hq', hqlater.occupancy_eq.trans hof⟩, fun i op' hop' hsame => ?_⟩
      rcases h.found i op' hop' with ⟨op, hop, hlater⟩ | ⟨other, draft, rfl, rfl, rfl⟩
      · exact hlast i op hop (hlater.occupancy_eq.symm.trans hsame)
      · -- The new operation would have taken the chain over.
        obtain rfl : other = occupancy := hsame
        rw [DraftStore.enqueue, AList.lookup_insert] at hk
        exact Nat.le_of_eq (Option.some.inj hk)
    · refine ⟨⟨_, List.getElem?_concat_length, rfl⟩, fun i op' hop' _ => ?_⟩
      have hbound := (List.getElem?_eq_some_iff.mp hop').1
      rw [DraftStore.enqueue, List.length_append, List.length_singleton] at hbound
      omega
  chained i op' hop' hunsettled := by
    rcases h.found i op' hop' with ⟨op, hop, hlater⟩ | ⟨occupancy, draft, rfl, rfl, rfl⟩
    · have hbefore : op.stage.isSettled = false := by
        by_contra hsettled
        rw [hlater.isSettled (Bool.not_eq_false _ ▸ hsettled)] at hunsettled
        cases hunsettled
      obtain ⟨k, hk⟩ := Option.isSome_iff_exists.mp (hinv.chained i op hop hbefore)
      rw [hlater.occupancy_eq]
      rcases h.unchained op.occupancy k hk with hleft | hsettled
      · exact hleft
      · -- The operation at the end of the chain is settled, so this one is.
        obtain ⟨q, hq, hqsettled⟩ := (isSettled_iff k).mp hsettled
        obtain ⟨⟨q', hq', hof⟩, hlast⟩ := hinv.last op.occupancy k hk
        cases hq.symm.trans hq'
        rcases Nat.eq_or_lt_of_le (hlast i op hop rfl) with rfl | hik
        · cases hop.symm.trans hq
          rw [hqsettled] at hbefore
          cases hbefore
        · rw [hinv.order i k op q hik hop hq hof.symm (not_waiting_of_settled hqsettled)] at hbefore
          cases hbefore
    · rw [DraftStore.enqueue, AList.lookup_insert]
      rfl

/-! ## The stored drafts -/

/-- The operation is the last one of the occupancy that took effect. -/
structure LastTaken (s : DraftStore V) (occupancy i : ℕ) (op : DraftOp V) : Prop where
  get : s.ops[i]? = some op
  of : op.occupancy = occupancy
  taken : op.stage.taken = true
  last : ∀ (j : ℕ) (q : DraftOp V), i < j → s.ops[j]? = some q → q.occupancy = occupancy →
    q.stage.taken = false

/-- A step after which the same operations have taken effect; what is stored may be removed. -/
structure Unapplied (s s' : DraftStore V) : Prop where
  taken : ∀ (i : ℕ) (op op' : DraftOp V), s.ops[i]? = some op → s'.ops[i]? = some op' →
    op'.stage.taken = op.stage.taken
  read : ∀ occupancy v, s'.read occupancy = some v → s.read occupancy = some v
  same : s.clears = [] → ∀ occupancy, s'.read occupancy = s.read occupancy

theorem Unapplied.of_ops (hops : s'.ops = s.ops)
    (hread : ∀ occupancy v, s'.read occupancy = some v → s.read occupancy = some v)
    (hsame : s.clears = [] → ∀ occupancy, s'.read occupancy = s.read occupancy) :
    Unapplied s s' where
  taken i op op' hop hop' := by
    rw [hops] at hop'
    cases hop.symm.trans hop'
    rfl
  read := hread
  same := hsame

theorem Unapplied.of_setStage (j : ℕ) (op : DraftOp V) (stage : OpStage)
    (hget : s.ops[j]? = some op) (htaken : stage.taken = op.stage.taken) :
    Unapplied s (s.setStage j stage) where
  taken i p p' hp hp' := by
    rw [getElem?_setStage, hp, Option.map_some, Option.some.injEq] at hp'
    subst hp'
    split
    · next hij =>
      subst hij
      cases hget.symm.trans hp
      exact htaken
    · rfl
  read _ _ h := h
  same _ _ := rfl

/-- A step takes one operation into effect, or none. -/
theorem DraftEffect.applied_or (h : DraftEffect s s') :
    (∃ j op, s.ops[j]? = some op ∧ op.stage = .running ∧
      s' = (s.setStage j .applied).change op.occupancy op.draft) ∨ Unapplied s s' := by
  cases h with
  | enqueued occupancy draft =>
    refine .inr ⟨fun i op op' hop hop' => ?_, fun _ _ h => h, fun _ _ => rfl⟩
    rw [DraftStore.enqueue, List.getElem?_append_left (List.getElem?_eq_some_iff.mp hop).1] at hop'
    cases hop.symm.trans hop'
    rfl
  | started j op hget hwaiting => exact .inr (.of_setStage j op _ hget (by rw [hwaiting]; rfl))
  | applied j op hget hrunning => exact .inl ⟨j, op, hget, hrunning, rfl⟩
  | completed j op hget changed _ _ htaken =>
    exact .inr (.of_setStage j op (.settled changed) hget htaken.symm)
  | removed call n mark key keys hget =>
    have hread : ∀ occupancy, ((s.change key none).setPhase call (.removing mark keys)).read occupancy
        = if occupancy = key then none else s.read occupancy := fun occupancy =>
      read_change key occupancy none
    refine .inr (.of_ops (change_ops key none) (fun occupancy v hv => ?_) fun hnil => ?_)
    · rw [hread] at hv
      split at hv
      · cases hv
      · exact hv
    · rw [hnil] at hget
      cases hget
  | called | woken | listed | finished =>
    exact .inr (.of_ops rfl (fun _ _ h => h) fun _ _ => rfl)

/-- **Where the stored drafts come from**: the last operation that took effect; and while nothing
was cleared, what that operation wrote is stored. -/
structure StoredInv (s : DraftStore V) : Prop where
  source : ∀ occupancy v, s.read occupancy = some v →
    ∃ i op, LastTaken s occupancy i op ∧ op.draft = some v
  kept : s.clears = [] → ∀ occupancy i op, LastTaken s occupancy i op → s.read occupancy = op.draft

theorem storedInv_empty : StoredInv (DraftStore.empty : DraftStore V) where
  source _ _ h := by cases h
  kept _ _ _ _ h := by cases h.get

theorem DraftEffect.clears_nil (h : DraftEffect s s') (hnil : s'.clears = []) : s.clears = [] := by
  have hmodify : ∀ call phase, s.clears.modify call ({ · with phase }) = [] → s.clears = [] := by
    intro call phase h
    have hlength := congrArg List.length h
    rw [List.length_modify] at hlength
    exact List.length_eq_zero_iff.mp hlength
  cases h with
  | called => exact (List.append_eq_nil_iff.mp hnil).1
  | applied =>
    rw [change_clears] at hnil
    exact hnil
  | woken | listed | finished => exact hmodify _ _ hnil
  | removed call n mark key keys =>
    refine hmodify call (.removing mark keys) ?_
    have hclears := change_clears (s := s) key none
    exact (congrArg (fun l => List.modify l call _) hclears).symm.trans hnil
  | enqueued | started | completed => exact hnil

/-- The operation that took effect last is the same before and after. -/
theorem Unapplied.lastTaken (hun : Unapplied s s') (h : DraftEffect s s') (occupancy i : ℕ)
    (op : DraftOp V) (hlast : LastTaken s occupancy i op) :
    ∃ op', LastTaken s' occupancy i op' ∧ op'.draft = op.draft := by
  obtain ⟨op', hop', hlater⟩ := h.kept i op hlast.get
  refine ⟨op', ⟨hop', hlater.occupancy_eq.trans hlast.of, hlater.taken hlast.taken, ?_⟩,
    hlater.draft_eq⟩
  intro j q' hij hq' hof
  rcases h.found j q' hq' with ⟨q, hq, hqlater⟩ | ⟨_, _, _, _, rfl⟩
  · rw [hun.taken j q q' hq hq']
    exact hlast.last j q hij hq (hqlater.occupancy_eq.symm.trans hof)
  · rfl

theorem Unapplied.of_lastTaken (hun : Unapplied s s') (h : DraftEffect s s') (occupancy i : ℕ)
    (op' : DraftOp V) (hlast : LastTaken s' occupancy i op') :
    ∃ op, LastTaken s occupancy i op ∧ op'.draft = op.draft := by
  rcases h.found i op' hlast.get with ⟨op, hop, hlater⟩ | ⟨_, _, _, _, rfl⟩
  · refine ⟨op, ⟨hop, hlater.occupancy_eq.symm.trans hlast.of, ?_, fun j q hij hq hof => ?_⟩,
      hlater.draft_eq⟩
    · rw [← hun.taken i op op' hop hlast.get]
      exact hlast.taken
    · obtain ⟨q', hq', hqlater⟩ := h.kept j q hq
      rw [← hun.taken j q q' hq hq']
      exact hlast.last j q' hij hq' (hqlater.occupancy_eq.trans hof)
  · cases hlast.taken

/-- What has taken effect has begun. -/
theorem not_waiting_of_taken {stage : OpStage} (h : stage.taken = true) : stage ≠ .waiting := by
  rintro rfl
  cases h

theorem StoredInv.step (hinv : StoredInv s) (horder : OrderInv s') (h : DraftEffect s s') :
    StoredInv s' := by
  rcases h.applied_or with ⟨j, op, hget, hrunning, rfl⟩ | hun
  · have hops : ∀ i, ((s.setStage j .applied).change op.occupancy op.draft).ops[i]? =
        (s.ops[i]?).map fun q => if j = i then { q with stage := .applied } else q := by
      intro i
      rw [change_ops, getElem?_setStage]
    have hread : ∀ occupancy, ((s.setStage j .applied).change op.occupancy op.draft).read occupancy =
        if occupancy = op.occupancy then op.draft else s.read occupancy := fun occupancy =>
      read_change op.occupancy occupancy op.draft
    have hj : ((s.setStage j .applied).change op.occupancy op.draft).ops[j]? =
        some { op with stage := .applied } := by
      rw [hops, hget, Option.map_some, if_pos rfl]
    -- A later operation that took effect would have found this one settled.
    have hlater : ∀ i q, j < i →
        ((s.setStage j .applied).change op.occupancy op.draft).ops[i]? = some q →
        q.occupancy = op.occupancy → q.stage.taken = false := by
      intro i q hji hq hof
      by_contra htaken
      have hsettled := horder.order j i _ q hji hj hq hof.symm
        (not_waiting_of_taken (Bool.not_eq_false _ ▸ htaken))
      cases hsettled
    have hother : ∀ (occupancy i : ℕ) (q : DraftOp V), occupancy ≠ op.occupancy → q.occupancy = occupancy →
        (((s.setStage j .applied).change op.occupancy op.draft).ops[i]? = some q ↔
          s.ops[i]? = some q) := by
      intro occupancy i q hne hof
      rw [hops]
      by_cases hij : j = i
      · subst hij
        rw [hget, Option.map_some, if_pos rfl, Option.some.injEq, Option.some.injEq]
        constructor
        · rintro rfl
          exact absurd hof.symm hne
        · rintro rfl
          exact absurd hof.symm hne
      · simp only [if_neg hij, Option.map_id']
    constructor
    · intro occupancy v hv
      rw [hread] at hv
      split at hv
      · next heq => exact ⟨j, _, ⟨hj, heq.symm, rfl, heq ▸ hlater⟩, hv⟩
      · next hne =>
        obtain ⟨i, q, hlast, hdraft⟩ := hinv.source occupancy v hv
        exact ⟨i, q, ⟨(hother occupancy i q hne hlast.of).mpr hlast.get, hlast.of, hlast.taken,
          fun l p hil hp hof => hlast.last l p hil ((hother occupancy l p hne hof).mp hp) hof⟩, hdraft⟩
    · intro hnil occupancy i q hlast
      rw [hread]
      split
      · next heq =>
        subst heq
        rcases Nat.lt_trichotomy i j with hij | rfl | hji
        · have hfalse := hlast.last j _ hij hj rfl
          cases hfalse
        · cases hj.symm.trans hlast.get
          rfl
        · have hfalse := hlater i q hji hlast.get hlast.of
          rw [hlast.taken] at hfalse
          cases hfalse
      · next hne =>
        exact hinv.kept (h.clears_nil hnil) occupancy i q
          ⟨(hother occupancy i q hne hlast.of).mp hlast.get, hlast.of, hlast.taken,
            fun l p hil hp hof => hlast.last l p hil ((hother occupancy l p hne hof).mpr hp) hof⟩
  · constructor
    · intro occupancy v hv
      obtain ⟨i, op, hlast, hdraft⟩ := hinv.source occupancy v (hun.read occupancy v hv)
      obtain ⟨op', hlast', heq⟩ := hun.lastTaken h occupancy i op hlast
      exact ⟨i, op', hlast', heq.trans hdraft⟩
    · intro hnil occupancy i op' hlast
      obtain ⟨op, hlast', heq⟩ := hun.of_lastTaken h occupancy i op' hlast
      rw [hun.same (h.clears_nil hnil), heq]
      exact hinv.kept (h.clears_nil hnil) occupancy i op hlast'

/-! ## Runs -/

/-- **The operations on an occupancy take effect in the order they were enqueued.** One begins
when all before it are settled; what is read was written by the last one that took effect; and
as long as nothing was cleared as a whole, what the last one wrote is read. -/
theorem drafts_in_order (s : DraftStore V)
    (hreach : Reaches DraftStore.step Always DraftStore.empty s) :
    (∀ (i j : ℕ) (p op : DraftOp V), i < j → s.ops[i]? = some p → s.ops[j]? = some op →
      p.occupancy = op.occupancy → op.stage ≠ .waiting → p.stage.isSettled = true) ∧
    (∀ occupancy v, s.read occupancy = some v →
      ∃ i op, LastTaken s occupancy i op ∧ op.draft = some v) ∧
    (s.clears = [] → ∀ occupancy i op, LastTaken s occupancy i op →
      s.read occupancy = op.draft) := by
  have hinv := hreach.preserves (fun u => OrderInv u ∧ StoredInv u)
    (fun _ _ _ hu _ hstep =>
      ⟨hu.1.step (.of_step _ hstep), hu.2.step (hu.1.step (.of_step _ hstep)) (.of_step _ hstep)⟩)
    ⟨orderInv_empty, storedInv_empty⟩
  exact ⟨hinv.1.order, hinv.2.source, hinv.2.kept⟩

/-- Three drafts are enqueued at once; the second cannot be saved. -/
def autosaved : List (DraftAction ℕ) :=
  [.enqueue 7 (some 1), .enqueue 7 (some 2), .enqueue 7 (some 3), .start 0, .apply 0, .complete 0,
    .start 1, .complete 1, .start 2, .apply 2]

theorem drafts_in_order_autosaved : ∃ s : DraftStore ℕ,
    Reaches DraftStore.step Always DraftStore.empty s ∧ s.read 7 = some 3 := by
  obtain ⟨s, hreach, hnil, hop, hlength⟩ := exists_of_run DraftStore.step
    (DraftStore.empty : DraftStore ℕ) (fun s => s.clears = [] ∧
      s.ops[2]? = some ⟨7, some 3, some 1, .applied⟩ ∧ s.ops.length = 3) autosaved (by decide +kernel)
  refine ⟨s, hreach, (drafts_in_order s hreach).2.2 hnil 7 2 _ ⟨hop, rfl, rfl, ?_⟩⟩
  intro j q hj hq _
  have hbound := (List.getElem?_eq_some_iff.mp hq).1
  omega

end LamTo.Analysis
