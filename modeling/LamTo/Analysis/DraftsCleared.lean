import LamTo.Analysis.DraftOrder

/-!
# What is left after the drafts were cleared

A call of `clearAll` goes on when there is no chain left, so that every operation enqueued until
then is settled. What is stored afterwards and not among the keys the call is about to remove was
written by an operation that was enqueued later.

* `ClearInv`: what each call has seen, by its phase. `ClearInv.step`: every step keeps it.
* `clear_all_drains`: after a call is done, no draft is left that was enqueued before it.

SOURCE: src/app/lib/features/reports/report_draft.dart:188-214
-/

set_option autoImplicit false

namespace LamTo.Analysis

open LamTo.Library LamTo.Model

variable {V : Type} {s s' : DraftStore V}

/-- The operations below the mark are settled, and the mark is not before the call. -/
structure DrainedTo (s : DraftStore V) (called mark : ℕ) : Prop where
  called_le : called ≤ mark
  le_length : mark ≤ s.ops.length
  settled : ∀ i, i < mark → s.isSettled i = true

/-- The draft was written by an operation from the mark on. -/
def WrittenSince (s : DraftStore V) (mark occupancy : ℕ) (v : V) : Prop :=
  ∃ (i : ℕ) (op : DraftOp V), mark ≤ i ∧ s.ops[i]? = some op ∧ op.occupancy = occupancy ∧
    op.draft = some v ∧ op.stage.taken = true

/-- What a call has seen, by its phase. -/
def CallOk (s : DraftStore V) (called : ℕ) : ClearPhase → Prop
  | .waiting _ => called ≤ s.ops.length
  | .drained mark => DrainedTo s called mark
  | .removing mark keys => DrainedTo s called mark ∧ ∀ occupancy v,
      s.read occupancy = some v → occupancy ∈ keys ∨ WrittenSince s mark occupancy v
  | .finished mark => DrainedTo s called mark ∧ ∀ occupancy v,
      s.read occupancy = some v → WrittenSince s mark occupancy v

def ClearInv (s : DraftStore V) : Prop :=
  ∀ (i : ℕ) (call : ClearCall), s.clears[i]? = some call → CallOk s call.called call.phase

theorem clearInv_empty : ClearInv (DraftStore.empty : DraftStore V) := by
  intro i call h
  cases h

/-! ## Steps -/

theorem DrainedTo.step (h : DraftEffect s s') (called mark : ℕ) (hdrained : DrainedTo s called mark) :
    DrainedTo s' called mark where
  called_le := hdrained.called_le
  le_length := le_trans hdrained.le_length h.length_le
  settled i hi := h.settled i (hdrained.settled i hi)

theorem WrittenSince.step (h : DraftEffect s s') (mark occupancy : ℕ) (v : V)
    (hwritten : WrittenSince s mark occupancy v) : WrittenSince s' mark occupancy v := by
  obtain ⟨i, op, hi, hop, hof, hdraft, htaken⟩ := hwritten
  obtain ⟨op', hop', hlater⟩ := h.kept i op hop
  exact ⟨i, op', hi, hop', hlater.occupancy_eq.trans hof, hlater.draft_eq.trans hdraft,
    hlater.taken htaken⟩

/-- **A draft that a step stores was enqueued after every mark.** -/
theorem DraftEffect.stored (h : DraftEffect s s') (called mark : ℕ)
    (hdrained : DrainedTo s called mark) (occupancy : ℕ) (v : V)
    (hv : s'.read occupancy = some v) :
    s.read occupancy = some v ∨ WrittenSince s' mark occupancy v := by
  rcases h.applied_or with ⟨j, op, hget, hrunning, rfl⟩ | hun
  · rw [read_change] at hv
    split at hv
    · next heq =>
      refine .inr ⟨j, { op with stage := .applied }, ?_, ?_, heq.symm, hv, rfl⟩
      · by_contra hlt
        obtain ⟨q, hq, hsettled⟩ := (isSettled_iff j).mp (hdrained.settled j (not_le.mp hlt))
        cases hget.symm.trans hq
        rw [hrunning] at hsettled
        cases hsettled
      · rw [change_ops, getElem?_setStage, hget, Option.map_some, if_pos rfl]
    · exact .inl hv
  · exact .inl (hun.read occupancy v hv)

/-- A call that a step does not take on is as it was. -/
theorem CallOk.step (h : DraftEffect s s') (called : ℕ) (phase : ClearPhase)
    (hok : CallOk s called phase) : CallOk s' called phase := by
  cases phase with
  | waiting pending => exact le_trans hok h.length_le
  | drained mark => exact DrainedTo.step h called mark hok
  | removing mark keys =>
    refine ⟨hok.1.step h, fun occupancy v hv => ?_⟩
    rcases h.stored called mark hok.1 occupancy v hv with hold | hnew
    · exact (hok.2 occupancy v hold).imp_right (WrittenSince.step h mark occupancy v)
    · exact .inr hnew
  | finished mark =>
    refine ⟨hok.1.step h, fun occupancy v hv => ?_⟩
    rcases h.stored called mark hok.1 occupancy v hv with hold | hnew
    · exact (hok.2 occupancy v hold).step h
    · exact hnew

/-- What a call of `clearAll` does next is fine: without a chain, all operations are settled. -/
theorem OrderInv.drain (hinv : OrderInv s) (called : ℕ) (hcalled : called ≤ s.ops.length) :
    CallOk s called s.drain := by
  unfold DraftStore.drain
  split
  · next hnone =>
    refine ⟨hcalled, le_rfl, fun i hi => ?_⟩
    obtain ⟨op, hop⟩ : ∃ op, s.ops[i]? = some op := ⟨_, List.getElem?_eq_getElem hi⟩
    by_contra hunsettled
    have hstage : op.stage.isSettled = false := by
      by_contra hsettled
      exact hunsettled ((isSettled_iff i).mpr ⟨op, hop, Bool.not_eq_false _ ▸ hsettled⟩)
    obtain ⟨k, hk⟩ := Option.isSome_iff_exists.mp (hinv.chained i op hop hstage)
    have hmem := AList.mem_lookup_iff.mp (Option.mem_def.mpr hk)
    rw [hnone] at hmem
    cases hmem
  · exact hcalled

theorem getElem?_setPhase (call i : ℕ) (phase : ClearPhase) :
    (s.setPhase call phase).clears[i]? =
      (s.clears[i]?).map fun c => if call = i then { c with phase } else c := by
  rw [DraftStore.setPhase, List.getElem?_modify]
  rfl

/-- A step that takes one call on: the others are as they were. -/
theorem ClearInv.of_setPhase (hinv : ClearInv s) (h : DraftEffect s s') (call n : ℕ)
    (old phase : ClearPhase) (hget : s.clears[call]? = some ⟨n, old⟩)
    (hclears : s'.clears = (s.setPhase call phase).clears) (hnew : CallOk s' n phase) :
    ClearInv s' := by
  intro i c hc
  rw [hclears, getElem?_setPhase, Option.map_eq_some_iff] at hc
  obtain ⟨b, hb, rfl⟩ := hc
  split
  · next hi =>
    subst hi
    cases hget.symm.trans hb
    exact hnew
  · exact (hinv i b hb).step h

theorem ClearInv.step (hinv : ClearInv s) (horder : OrderInv s) (h : DraftEffect s s') :
    ClearInv s' := by
  have hsame : s'.clears = s.clears → ClearInv s' := by
    intro heq i c hc
    rw [heq] at hc
    exact (hinv i c hc).step h
  have hnext := horder.step h
  cases h with
  | enqueued | started | completed => exact hsame rfl
  | applied j op => exact hsame (change_clears op.occupancy op.draft)
  | called =>
    intro i c hc
    by_cases hi : i < s.clears.length
    · rw [List.getElem?_append_left hi] at hc
      exact (hinv i c hc).step .called
    · have hbound := (List.getElem?_eq_some_iff.mp hc).1
      rw [List.length_append, List.length_singleton] at hbound
      obtain rfl : i = s.clears.length := by omega
      rw [List.getElem?_concat_length] at hc
      obtain rfl := Option.some.inj hc
      exact hnext.drain s.ops.length le_rfl
  | woken call n pending hget hsettled =>
    exact hinv.of_setPhase (.woken call n pending hget hsettled) call n _ _ hget rfl
      (hnext.drain n (hinv call _ hget))
  | listed call n mark hget =>
    refine hinv.of_setPhase (.listed call n mark hget) call n _ _ hget rfl
      ⟨DrainedTo.step (.listed call n mark hget) n mark (hinv call _ hget), fun occupancy v hv => ?_⟩
    exact .inl (AList.mem_keys.mp (AList.lookup_isSome.mp (Option.isSome_iff_exists.mpr ⟨v, hv⟩)))
  | removed call n mark key keys hget =>
    obtain ⟨hdrained, hstored⟩ := hinv call _ hget
    have heffect := DraftEffect.removed call n mark key keys hget
    refine hinv.of_setPhase heffect call n _ _ hget
      (congrArg (fun l => List.modify l call _) (change_clears key none))
      ⟨hdrained.step heffect, fun occupancy v hv => ?_⟩
    have hread : ((s.change key none).setPhase call (.removing mark keys)).read occupancy =
        if occupancy = key then none else s.read occupancy := read_change key occupancy none
    rw [hread] at hv
    split at hv
    · cases hv
    · next hne =>
      rcases hstored occupancy v hv with hmem | hwritten
      · exact .inl ((List.mem_cons.mp hmem).resolve_left hne)
      · exact .inr (hwritten.step heffect)
  | finished call n mark hget =>
    obtain ⟨hdrained, hstored⟩ := hinv call _ hget
    have heffect := DraftEffect.finished call n mark hget
    refine hinv.of_setPhase heffect call n _ _ hget rfl
      ⟨hdrained.step heffect, fun occupancy v hv => ?_⟩
    rcases hstored occupancy v hv with hmem | hwritten
    · cases hmem
    · exact hwritten.step heffect

/-! ## Runs -/

/-- **When `clearAll` is done, no draft is left that had been enqueued before it was called**,
nor one that was enqueued while it waited: whatever is stored was written by an operation that
was enqueued after the last chain was gone. -/
theorem clear_all_drains (s : DraftStore V)
    (hreach : Reaches DraftStore.step Always DraftStore.empty s) (call : ℕ) (called mark : ℕ)
    (hcall : s.clears[call]? = some ⟨called, .finished mark⟩) :
    called ≤ mark ∧ (∀ i, i < mark → s.isSettled i = true) ∧
      ∀ occupancy v, s.read occupancy = some v →
        ∃ (i : ℕ) (op : DraftOp V), mark ≤ i ∧ s.ops[i]? = some op ∧ op.occupancy = occupancy ∧
          op.draft = some v ∧ op.stage.taken = true := by
  have hinv := hreach.preserves (fun u => OrderInv u ∧ ClearInv u)
    (fun _ _ _ hu _ hstep => ⟨hu.1.step (.of_step _ hstep), hu.2.step hu.1 (.of_step _ hstep)⟩)
    ⟨orderInv_empty, clearInv_empty⟩
  obtain ⟨hdrained, hstored⟩ := hinv.2 call _ hcall
  exact ⟨hdrained.called_le, hdrained.settled, hstored⟩

/-- A draft is enqueued, everything is cleared while it is being written, and another draft is
enqueued once the chains are gone. -/
def clearedRun : List (DraftAction ℕ) :=
  [.enqueue 7 (some 11), .start 0, .clearAll, .apply 0, .complete 0, .wake 0, .list 0,
    .enqueue 8 (some 12), .start 1, .remove 0, .apply 1, .remove 0]

theorem clear_all_drains_late : ∃ s : DraftStore ℕ,
    Reaches DraftStore.step Always DraftStore.empty s ∧ s.read 7 = none ∧ s.read 8 = some 12 ∧
      ∃ (i : ℕ) (op : DraftOp ℕ), 1 ≤ i ∧ s.ops[i]? = some op ∧ op.draft = some 12 := by
  obtain ⟨s, hreach, hcall, hfirst, hsecond⟩ := exists_of_run DraftStore.step
    (DraftStore.empty : DraftStore ℕ) (fun s => s.clears[0]? = some ⟨1, .finished 1⟩ ∧
      s.read 7 = none ∧ s.read 8 = some 12) clearedRun (by decide +kernel)
  obtain ⟨_, _, hstored⟩ := clear_all_drains s hreach 0 1 1 hcall
  obtain ⟨i, op, hi, hop, _, hdraft, _⟩ := hstored 8 12 hsecond
  exact ⟨s, hreach, hfirst, hsecond, i, op, hi, hop, hdraft⟩

end LamTo.Analysis
