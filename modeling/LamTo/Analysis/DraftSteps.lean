import LamTo.Library.Transition
import LamTo.Model.ReportDrafts

/-!
# Steps of the draft store

`DraftEffect` reads a step backwards: which operation it took on, or which call of `clearAll`, and
the guard it passed. The lemmas after it say what becomes of an operation and of a chain in any
step, so that the invariants of the store never look into a step again.

* `DraftEffect.kept`, `DraftEffect.found`: the operations of two states.
* `DraftEffect.begun`: an operation begins when the one it is chained after is settled.
* `DraftEffect.chained`, `DraftEffect.unchained`: the chains of two states.

SOURCE: src/app/lib/features/reports/report_draft.dart:110-214
-/

set_option autoImplicit false

namespace LamTo.Analysis

open LamTo.Library LamTo.Model

variable {V : Type} {s s' : DraftStore V}

/-! ## Steps -/

/-- **What a step does.** -/
inductive DraftEffect (s : DraftStore V) : DraftStore V → Prop where
  | enqueued (occupancy : ℕ) (draft : Option V) : DraftEffect s (s.enqueue occupancy draft)
  | started (j : ℕ) (op : DraftOp V) (get : s.ops[j]? = some op) (waiting : op.stage = .waiting)
      (ready : ∀ k, op.previous = some k → s.isSettled k = true) :
      DraftEffect s (s.setStage j .running)
  | applied (j : ℕ) (op : DraftOp V) (get : s.ops[j]? = some op) (running : op.stage = .running) :
      DraftEffect s ((s.setStage j .applied).change op.occupancy op.draft)
  | completed (j : ℕ) (op : DraftOp V) (get : s.ops[j]? = some op) (changed : Bool)
      (unsettled : op.stage.isSettled = false) (begun : op.stage ≠ .waiting)
      (taken : op.stage.taken = changed) : DraftEffect s (s.setStage j (.settled changed))
  | called : DraftEffect s { s with clears := s.clears ++ [⟨s.ops.length, s.drain⟩] }
  | woken (call n : ℕ) (pending : List ℕ) (get : s.clears[call]? = some ⟨n, .waiting pending⟩)
      (settled : ∀ k ∈ pending, s.isSettled k = true) :
      DraftEffect s ((s.dropChains pending).setPhase call (s.dropChains pending).drain)
  | listed (call n mark : ℕ) (get : s.clears[call]? = some ⟨n, .drained mark⟩) :
      DraftEffect s (s.setPhase call (.removing mark s.prefs.keys))
  | removed (call n mark key : ℕ) (keys : List ℕ)
      (get : s.clears[call]? = some ⟨n, .removing mark (key :: keys)⟩) :
      DraftEffect s ((s.change key none).setPhase call (.removing mark keys))
  | finished (call n mark : ℕ) (get : s.clears[call]? = some ⟨n, .removing mark []⟩) :
      DraftEffect s (s.setPhase call (.finished mark))

theorem DraftEffect.of_step (a : DraftAction V) (h : s.step a = some s') : DraftEffect s s' := by
  cases a with
  | enqueue occupancy draft =>
    cases h
    exact .enqueued occupancy draft
  | start j =>
    simp only [DraftStore.step] at h
    split at h
    · next occupancy draft previous hget =>
      split at h
      · next hready =>
        cases h
        refine .started j _ hget rfl fun k hk => ?_
        rw [show previous = some k from hk] at hready
        exact hready
      · cases h
    · cases h
  | apply j =>
    simp only [DraftStore.step] at h
    split at h
    · next hget =>
      cases h
      exact .applied j _ hget rfl
    · cases h
  | complete j =>
    simp only [DraftStore.step] at h
    split at h
    · next hget =>
      cases h
      exact .completed j _ hget false rfl (fun h => by cases h) rfl
    · next hget =>
      cases h
      exact .completed j _ hget true rfl (fun h => by cases h) rfl
    · cases h
  | clearAll =>
    cases h
    exact .called
  | wake call =>
    simp only [DraftStore.step] at h
    split at h
    · next n pending hget =>
      split at h
      · next hsettled =>
        cases h
        exact .woken call n pending hget (List.all_eq_true.mp hsettled)
      · cases h
    · cases h
  | list call =>
    simp only [DraftStore.step] at h
    split at h
    · next n mark hget =>
      cases h
      exact .listed call n mark hget
    · cases h
  | remove call =>
    simp only [DraftStore.step] at h
    split at h
    · next n mark key keys hget =>
      cases h
      exact .removed call n mark key keys hget
    · next n mark hget =>
      cases h
      exact .finished call n mark hget
    · cases h

/-! ## Operations from one state to the next -/

@[simp] theorem change_ops (occupancy : ℕ) (draft : Option V) :
    (s.change occupancy draft).ops = s.ops := by
  cases draft with
  | none => rfl
  | some v => rfl

@[simp] theorem change_chains (occupancy : ℕ) (draft : Option V) :
    (s.change occupancy draft).chains = s.chains := by
  cases draft with
  | none => rfl
  | some v => rfl

@[simp] theorem change_clears (occupancy : ℕ) (draft : Option V) :
    (s.change occupancy draft).clears = s.clears := by
  cases draft with
  | none => rfl
  | some v => rfl

/-- The change replaces what is stored for its occupancy, and nothing else. -/
theorem read_change (occupancy other : ℕ) (draft : Option V) :
    (s.change occupancy draft).read other = if other = occupancy then draft else s.read other := by
  by_cases h : other = occupancy
  · subst h
    rw [if_pos rfl]
    cases draft with
    | none => exact AList.lookup_erase _ _
    | some v => exact AList.lookup_insert _
  · rw [if_neg h]
    cases draft with
    | none => exact AList.lookup_erase_ne h
    | some v => exact AList.lookup_insert_ne h

/-- An operation in two states. -/
structure OpLater (op op' : DraftOp V) : Prop where
  occupancy_eq : op'.occupancy = op.occupancy
  draft_eq : op'.draft = op.draft
  previous_eq : op'.previous = op.previous
  settled : op.stage.isSettled = true → op' = op
  begun : op.stage ≠ .waiting → op'.stage ≠ .waiting
  taken : op.stage.taken = true → op'.stage.taken = true

theorem OpLater.refl (op : DraftOp V) : OpLater op op := ⟨rfl, rfl, rfl, fun _ => rfl, id, id⟩

theorem getElem?_setStage (j i : ℕ) (stage : OpStage) :
    (s.setStage j stage).ops[i]? =
      (s.ops[i]?).map fun op => if j = i then { op with stage } else op := by
  rw [DraftStore.setStage, List.getElem?_modify]
  rfl

/-- An operation that is not settled goes on to another stage. -/
theorem later_setStage (j : ℕ) (op : DraftOp V) (stage : OpStage) (hget : s.ops[j]? = some op)
    (hunsettled : op.stage.isSettled = false) (hbegun : stage ≠ .waiting)
    (htaken : op.stage.taken = true → stage.taken = true) (i : ℕ) (p : DraftOp V)
    (hp : s.ops[i]? = some p) :
    ∃ p', (s.setStage j stage).ops[i]? = some p' ∧ OpLater p p' := by
  rw [getElem?_setStage, hp, Option.map_some]
  refine ⟨_, rfl, ?_⟩
  split
  · next hij =>
    subst hij
    cases hget.symm.trans hp
    refine ⟨rfl, rfl, rfl, fun h => ?_, fun _ => hbegun, htaken⟩
    rw [hunsettled] at h
    cases h
  · exact .refl p

/-- **No operation is lost**, and each goes forward only. -/
theorem DraftEffect.kept (h : DraftEffect s s') (i : ℕ) (op : DraftOp V)
    (hop : s.ops[i]? = some op) : ∃ op', s'.ops[i]? = some op' ∧ OpLater op op' := by
  have hsame : s'.ops = s.ops → ∃ op', s'.ops[i]? = some op' ∧ OpLater op op' := fun heq =>
    ⟨op, by rw [heq, hop], .refl op⟩
  cases h with
  | enqueued occupancy draft =>
    refine ⟨op, ?_, .refl op⟩
    rw [DraftStore.enqueue, List.getElem?_append_left (List.getElem?_eq_some_iff.mp hop).1, hop]
  | started j q hget hwaiting =>
    exact later_setStage j q .running hget (by rw [hwaiting]; rfl) (fun h => by cases h)
      (fun h => by rw [hwaiting] at h; cases h) i op hop
  | applied j q hget hrunning =>
    rw [change_ops]
    exact later_setStage j q .applied hget (by rw [hrunning]; rfl) (fun h => by cases h)
      (fun _ => rfl) i op hop
  | completed j q hget changed hunsettled _ htaken =>
    exact later_setStage j q (.settled changed) hget hunsettled (fun h => by cases h)
      (fun h => htaken.symm.trans h) i op hop
  | called => exact hsame rfl
  | woken => exact hsame rfl
  | listed => exact hsame rfl
  | removed call n mark key => exact hsame (change_ops key none)
  | finished => exact hsame rfl

theorem DraftEffect.length_le (h : DraftEffect s s') : s.ops.length ≤ s'.ops.length := by
  cases h with
  | enqueued occupancy draft =>
    rw [DraftStore.enqueue, List.length_append]
    exact Nat.le_add_right _ _
  | started | completed => exact Nat.le_of_eq (List.length_modify _ _ _).symm
  | applied =>
    rw [change_ops]
    exact Nat.le_of_eq (List.length_modify _ _ _).symm
  | removed call n mark key =>
    exact Nat.le_of_eq (congrArg List.length (change_ops key none)).symm
  | called | woken | listed | finished => exact le_rfl

/-- An operation is an old one, or the one that was enqueued. -/
theorem DraftEffect.found (h : DraftEffect s s') (i : ℕ) (op' : DraftOp V)
    (hop : s'.ops[i]? = some op') :
    (∃ op, s.ops[i]? = some op ∧ OpLater op op') ∨
      ∃ occupancy draft, s' = s.enqueue occupancy draft ∧ i = s.ops.length ∧
        op' = ⟨occupancy, draft, s.chains.lookup occupancy, .waiting⟩ := by
  by_cases hi : i < s.ops.length
  · obtain ⟨op'', hop'', hlater⟩ := h.kept i _ (List.getElem?_eq_getElem hi)
    cases hop''.symm.trans hop
    exact .inl ⟨_, List.getElem?_eq_getElem hi, hlater⟩
  · have hbound := (List.getElem?_eq_some_iff.mp hop).1
    cases h with
    | enqueued occupancy draft =>
      have hlast : i = s.ops.length := by
        rw [DraftStore.enqueue, List.length_append, List.length_singleton] at hbound
        omega
      subst hlast
      rw [DraftStore.enqueue, List.getElem?_concat_length] at hop
      exact .inr ⟨occupancy, draft, rfl, rfl, (Option.some.inj hop).symm⟩
    | started | completed => exact absurd (lt_of_lt_of_eq hbound (List.length_modify _ _ _)) hi
    | applied =>
      rw [change_ops] at hbound
      exact absurd (lt_of_lt_of_eq hbound (List.length_modify _ _ _)) hi
    | removed call n mark key =>
      exact absurd (lt_of_lt_of_eq hbound (congrArg List.length (change_ops key none))) hi
    | called | woken | listed | finished => exact absurd hbound hi

/-- An operation that has begun had begun before, or found the one before it settled. -/
theorem DraftEffect.begun (h : DraftEffect s s') (j : ℕ) (op op' : DraftOp V)
    (hop : s.ops[j]? = some op) (hop' : s'.ops[j]? = some op') (hbegun : op'.stage ≠ .waiting) :
    op.stage ≠ .waiting ∨ ∀ k, op.previous = some k → s.isSettled k = true := by
  have hstage : ∀ i q stage, s.ops[i]? = some q → s'.ops = (s.setStage i stage).ops →
      (q.stage ≠ .waiting ∨ ∀ k, q.previous = some k → s.isSettled k = true) →
      op.stage ≠ .waiting ∨ ∀ k, op.previous = some k → s.isSettled k = true := by
    intro i q stage hq heq hcase
    rw [heq, getElem?_setStage, hop, Option.map_some, Option.some.injEq] at hop'
    split at hop'
    · next hij =>
      subst hij
      cases hq.symm.trans hop
      exact hcase
    · exact .inl (hop' ▸ hbegun)
  have hsame : s'.ops = s.ops →
      op.stage ≠ .waiting ∨ ∀ k, op.previous = some k → s.isSettled k = true := by
    intro heq
    rw [heq, hop, Option.some.injEq] at hop'
    exact .inl (hop' ▸ hbegun)
  cases h with
  | enqueued occupancy draft =>
    rw [DraftStore.enqueue, List.getElem?_append_left (List.getElem?_eq_some_iff.mp hop).1, hop,
      Option.some.injEq] at hop'
    exact .inl (hop' ▸ hbegun)
  | started i q hget _ hready => exact hstage i q _ hget rfl (.inr hready)
  | applied i q hget hrunning =>
    exact hstage i q _ hget (change_ops _ _) (.inl (by rw [hrunning]; exact fun h => by cases h))
  | completed i q hget _ _ hq => exact hstage i q _ hget rfl (.inl hq)
  | removed call n mark key => exact hsame (change_ops key none)
  | called | woken | listed | finished => exact hsame rfl

/-! ## The chains -/

theorem isSettled_iff (k : ℕ) :
    s.isSettled k = true ↔ ∃ q, s.ops[k]? = some q ∧ q.stage.isSettled = true :=
  Option.any_eq_true _ _

theorem DraftEffect.settled (h : DraftEffect s s') (k : ℕ) (hk : s.isSettled k = true) :
    s'.isSettled k = true := by
  obtain ⟨q, hq, hsettled⟩ := (isSettled_iff k).mp hk
  obtain ⟨q', hq', hlater⟩ := h.kept k q hq
  exact (isSettled_iff k).mpr ⟨q', hq', by rw [hlater.settled hsettled]; exact hsettled⟩

/-- A chain that is left after some were dropped was there. -/
theorem lookup_dropChains (pending : List ℕ) (occupancy k : ℕ) :
    (s.dropChains pending).chains.lookup occupancy = some k ↔
      s.chains.lookup occupancy = some k ∧ k ∉ pending := by
  rw [← Option.mem_def, ← Option.mem_def, AList.mem_lookup_iff, AList.mem_lookup_iff,
    DraftStore.dropChains, List.mem_filter, decide_eq_true_eq]

/-- The chain of an occupancy after a step: an old one, or the one that was enqueued. -/
theorem DraftEffect.chained (h : DraftEffect s s') (occupancy k : ℕ)
    (hk : s'.chains.lookup occupancy = some k) :
    s.chains.lookup occupancy = some k ∨
      ∃ draft, s' = s.enqueue occupancy draft ∧ k = s.ops.length := by
  cases h with
  | enqueued other draft =>
    by_cases hother : occupancy = other
    · subst hother
      rw [DraftStore.enqueue, AList.lookup_insert] at hk
      exact .inr ⟨draft, rfl, (Option.some.inj hk).symm⟩
    · rw [DraftStore.enqueue, AList.lookup_insert_ne hother] at hk
      exact .inl hk
  | applied j op =>
    rw [change_chains] at hk
    exact .inl hk
  | removed call n mark key =>
    exact .inl ((congrArg (fun c => AList.lookup occupancy c) (change_chains key none)).symm.trans hk)
  | woken call n pending => exact .inl ((lookup_dropChains pending occupancy k).mp hk).1
  | started | completed | called | listed | finished => exact .inl hk

/-- A chain stays until another operation is enqueued, or the one at its end is settled. -/
theorem DraftEffect.unchained (h : DraftEffect s s') (occupancy k : ℕ)
    (hk : s.chains.lookup occupancy = some k) :
    (s'.chains.lookup occupancy).isSome = true ∨ s.isSettled k = true := by
  have hsame : s'.chains = s.chains → (s'.chains.lookup occupancy).isSome = true := by
    intro heq
    rw [heq, hk]
    rfl
  cases h with
  | enqueued other draft =>
    by_cases hother : occupancy = other
    · subst hother
      rw [DraftStore.enqueue, AList.lookup_insert]
      exact .inl rfl
    · rw [DraftStore.enqueue, AList.lookup_insert_ne hother, hk]
      exact .inl rfl
  | applied j op => exact .inl (hsame (change_chains _ _))
  | removed call n mark key => exact .inl (hsame (change_chains key none))
  | woken call n pending _ hsettled =>
    by_cases hpending : k ∈ pending
    · exact .inr (hsettled k hpending)
    · have hleft := (lookup_dropChains pending occupancy k).mpr ⟨hk, hpending⟩
      exact .inl (Option.isSome_iff_exists.mpr ⟨k, hleft⟩)
  | started | completed | called | listed | finished => exact .inl (hsame rfl)

end LamTo.Analysis
