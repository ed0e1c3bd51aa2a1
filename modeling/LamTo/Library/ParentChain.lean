import Mathlib.Data.List.Nodup
import Mathlib.Data.List.Perm.Subperm
import Mathlib.Logic.Relation

/-!
# Walks along parent pointers

A walk starts at a key and goes from parent to parent until it meets a root, a key that is
barred, one it has seen before, or one that is not there. Keys may point anywhere, in cycles too.

* `Walks` is the walk as a loop runs it, without a bound on its steps; over finitely many keys it
  ends, since every step adds a key to those seen;
* `RootedAt n` says that the chain of a key ends at a root after `n` steps; a chain has one
  length, so it never meets a key twice and the walk accepts it.
-/

set_option autoImplicit false

namespace LamTo.Library

/-- What stands under a key. -/
inductive ChainNode (κ : Type) where
  | missing
  | barred
  | root
  | up (parent : κ)
deriving DecidableEq

/-- How a walk ends. -/
inductive WalkEnd where
  | accepted
  | barred
  | missing
deriving DecidableEq

variable {κ : Type} {node : κ → ChainNode κ}

/-- The walk from a key with the keys seen so far. -/
inductive Walks (node : κ → ChainNode κ) : List κ → κ → WalkEnd → Prop where
  | missing (seen : List κ) (k : κ) (h : node k = .missing) : Walks node seen k .missing
  | barred (seen : List κ) (k : κ) (hthere : node k ≠ .missing)
      (h : k ∈ seen ∨ node k = .barred) : Walks node seen k .barred
  | root (seen : List κ) (k : κ) (hnew : k ∉ seen) (h : node k = .root) :
      Walks node seen k .accepted
  | up (seen : List κ) (k parent : κ) (v : WalkEnd) (hnew : k ∉ seen) (h : node k = .up parent)
      (hrest : Walks node (k :: seen) parent v) : Walks node seen k v

/-- The chain of a key ends at a root after `n` steps. -/
inductive RootedAt (node : κ → ChainNode κ) : ℕ → κ → Prop where
  | root (k : κ) (h : node k = .root) : RootedAt node 0 k
  | up (n : ℕ) (k parent : κ) (h : node k = .up parent) (hrest : RootedAt node n parent) :
      RootedAt node (n + 1) k

/-- The chain of a key ends at a root. -/
def Rooted (node : κ → ChainNode κ) (k : κ) : Prop := ∃ n, RootedAt node n k

/-- The keys a walk may go on from are listed. -/
def Within (node : κ → ChainNode κ) (keys : List κ) : Prop :=
  ∀ k, (node k = .root ∨ ∃ parent, node k = .up parent) → k ∈ keys

/-! ## The walk -/

theorem Walks.unique {seen : List κ} {k : κ} {v w : WalkEnd} (h : Walks node seen k v)
    (hother : Walks node seen k w) : v = w := by
  induction h generalizing w with
  | missing seen k h =>
    cases hother with
    | missing => rfl
    | barred _ _ hthere => exact absurd h hthere
    | root _ _ _ hroot => rw [h] at hroot; cases hroot
    | up _ _ parent _ _ hup => rw [h] at hup; cases hup
  | barred seen k hthere h =>
    cases hother with
    | missing _ _ hmissing => exact absurd hmissing hthere
    | barred => rfl
    | root _ _ hnew hroot =>
      rcases h with hseen | hbarred
      · exact absurd hseen hnew
      · rw [hbarred] at hroot; cases hroot
    | up _ _ parent _ hnew hup =>
      rcases h with hseen | hbarred
      · exact absurd hseen hnew
      · rw [hbarred] at hup; cases hup
  | root seen k hnew h =>
    cases hother with
    | missing _ _ hmissing => rw [h] at hmissing; cases hmissing
    | barred _ _ _ hbarred =>
      rcases hbarred with hseen | hbarred
      · exact absurd hseen hnew
      · rw [h] at hbarred; cases hbarred
    | root => rfl
    | up _ _ parent _ _ hup => rw [h] at hup; cases hup
  | up seen k parent v hnew h _ ih =>
    cases hother with
    | missing _ _ hmissing => rw [h] at hmissing; cases hmissing
    | barred _ _ _ hbarred =>
      rcases hbarred with hseen | hbarred
      · exact absurd hseen hnew
      · rw [h] at hbarred; cases hbarred
    | root _ _ _ hroot => rw [h] at hroot; cases hroot
    | up _ _ parent' _ _ hup hrest =>
      rw [h] at hup
      obtain rfl := ChainNode.up.inj hup
      exact ih hrest

theorem seen_length_le {seen keys : List κ} (hnodup : seen.Nodup) (hsub : ∀ s ∈ seen, s ∈ keys) :
    seen.length ≤ keys.length := (List.subperm_of_subset hnodup hsub).length_le

/-- A walk ends here or goes on. -/
theorem walks_or_up [DecidableEq κ] (seen : List κ) (k : κ) :
    (∃ v, Walks node seen k v) ∨ ∃ parent, k ∉ seen ∧ node k = .up parent := by
  by_cases hmissing : node k = .missing
  · exact .inl ⟨.missing, .missing seen k hmissing⟩
  · by_cases hseen : k ∈ seen
    · exact .inl ⟨.barred, .barred seen k hmissing (.inl hseen)⟩
    · cases hnode : node k with
      | missing => exact absurd hnode hmissing
      | barred => exact .inl ⟨.barred, .barred seen k hmissing (.inr hnode)⟩
      | root => exact .inl ⟨.accepted, .root seen k hseen hnode⟩
      | up parent => exact .inr ⟨parent, hseen, rfl⟩

/-- **The walk ends.** Every step adds one of finitely many keys to those seen. -/
theorem exists_walks [DecidableEq κ] (keys : List κ) (hkeys : Within node keys) (seen : List κ)
    (hnodup : seen.Nodup) (hsub : ∀ s ∈ seen, s ∈ keys) (k : κ) :
    ∃ v, Walks node seen k v := by
  induction hleft : keys.length - seen.length generalizing seen k with
  | zero =>
    rcases walks_or_up seen k with hends | ⟨parent, hnew, hup⟩
    · exact hends
    · -- the keys seen are all there are, so this one was among them
      have hmore := seen_length_le (List.nodup_cons.mpr ⟨hnew, hnodup⟩)
        (List.forall_mem_cons.mpr ⟨hkeys k (.inr ⟨parent, hup⟩), hsub⟩)
      rw [List.length_cons] at hmore
      omega
  | succ left ih =>
    rcases walks_or_up seen k with hends | ⟨parent, hnew, hup⟩
    · exact hends
    · obtain ⟨v, hv⟩ := ih (k :: seen) (List.nodup_cons.mpr ⟨hnew, hnodup⟩)
        (List.forall_mem_cons.mpr ⟨hkeys k (.inr ⟨parent, hup⟩), hsub⟩) parent
        (by rw [List.length_cons]; omega)
      exact ⟨v, .up seen k parent v hnew hup hv⟩

/-! ## Chains -/

/-- A chain has one length. -/
theorem RootedAt.unique {n m : ℕ} {k : κ} (h : RootedAt node n k) (hother : RootedAt node m k) :
    n = m := by
  induction h generalizing m with
  | root k h =>
    cases hother with
    | root => rfl
    | up _ _ parent hup => rw [h] at hup; cases hup
  | up n k parent h _ ih =>
    cases hother with
    | root _ hroot => rw [h] at hroot; cases hroot
    | up m _ parent' hup hrest =>
      rw [h] at hup
      obtain rfl := ChainNode.up.inj hup
      rw [ih hrest]

theorem Walks.rooted {seen : List κ} {k : κ} (h : Walks node seen k .accepted) :
    Rooted node k := by
  generalize hv : WalkEnd.accepted = v at h
  induction h with
  | missing => cases hv
  | barred => cases hv
  | root seen k _ h => exact ⟨0, .root k h⟩
  | up seen k parent v _ h _ ih =>
    obtain ⟨n, hn⟩ := ih hv
    exact ⟨n + 1, .up n k parent h hn⟩

/-- The keys seen have longer chains, so the walk does not come back to them. -/
theorem RootedAt.walks {n : ℕ} {k : κ} (h : RootedAt node n k) (seen : List κ)
    (hseen : ∀ s ∈ seen, ∃ m, n < m ∧ RootedAt node m s) : Walks node seen k .accepted := by
  induction h generalizing seen with
  | root k h =>
    refine .root seen k (fun hmem => ?_) h
    obtain ⟨m, hm, hrooted⟩ := hseen k hmem
    exact absurd ((RootedAt.root k h).unique hrooted) (Nat.ne_of_lt hm)
  | up n k parent h hrest ih =>
    have hk := RootedAt.up n k parent h hrest
    refine .up seen k parent .accepted (fun hmem => ?_) h (ih (k :: seen) ?_)
    · obtain ⟨m, hm, hrooted⟩ := hseen k hmem
      exact absurd (hk.unique hrooted) (Nat.ne_of_lt hm)
    · refine List.forall_mem_cons.mpr ⟨⟨n + 1, Nat.lt_succ_self n, hk⟩, fun s hs => ?_⟩
      obtain ⟨m, hm, hrooted⟩ := hseen s hs
      exact ⟨m, Nat.lt_of_succ_lt hm, hrooted⟩

/-- **A walk accepts exactly the keys whose chain ends at a root.** -/
theorem walks_accepted_iff (k : κ) : Walks node [] k .accepted ↔ Rooted node k :=
  ⟨Walks.rooted, fun ⟨_, h⟩ => h.walks [] fun _ hs => absurd hs List.not_mem_nil⟩

/-! ## When every chain ends -/

/-- One key points at another. -/
def Points (node : κ → ChainNode κ) (k parent : κ) : Prop := node k = .up parent

/-- A chain that ends meets no key twice. -/
theorem RootedAt.lt_of_points {n : ℕ} {k parent : κ} (h : RootedAt node n k)
    (hpoints : Relation.TransGen (Points node) k parent) :
    ∃ m, m < n ∧ RootedAt node m parent := by
  induction hpoints with
  | single hstep =>
    cases h with
    | root _ hroot => cases hroot.symm.trans hstep
    | up m _ parent' hup hrest =>
      rw [Points, hup] at hstep
      obtain rfl := ChainNode.up.inj hstep
      exact ⟨m, Nat.lt_succ_self m, hrest⟩
  | tail _ hstep ih =>
    obtain ⟨m, hm, hrooted⟩ := ih
    cases hrooted with
    | root _ hroot => cases hroot.symm.trans hstep
    | up l _ parent' hup hrest =>
      rw [Points, hup] at hstep
      obtain rfl := ChainNode.up.inj hstep
      exact ⟨l, Nat.lt_of_succ_lt hm, hrest⟩

theorem Rooted.not_cycle {k : κ} (h : Rooted node k) :
    ¬ Relation.TransGen (Points node) k k := by
  intro hcycle
  obtain ⟨n, hn⟩ := h
  obtain ⟨m, hm, hrooted⟩ := hn.lt_of_points hcycle
  exact absurd (hn.unique hrooted) (Nat.ne_of_gt hm)

/-- A walk that is refused without meeting a barred or missing key has met one twice. -/
theorem Walks.cycle {seen : List κ} {k : κ} {v : WalkEnd} (h : Walks node seen k v)
    (good : κ → Prop) (hk : good k)
    (hgood : ∀ j, good j → node j = .root ∨ ∃ parent, node j = .up parent ∧ good parent)
    (hseen : ∀ s ∈ seen, good s ∧ Relation.TransGen (Points node) s k) :
    v = .accepted ∨ ∃ j, good j ∧ Relation.TransGen (Points node) j j := by
  induction h with
  | missing seen k h =>
    rcases hgood k hk with hroot | ⟨parent, hup, _⟩
    · rw [h] at hroot; cases hroot
    · rw [h] at hup; cases hup
  | barred seen k _ h =>
    rcases h with hmem | hbarred
    · exact .inr ⟨k, hseen k hmem⟩
    · rcases hgood k hk with hroot | ⟨parent, hup, _⟩
      · rw [hbarred] at hroot; cases hroot
      · rw [hbarred] at hup; cases hup
  | root => exact .inl rfl
  | up seen k parent v _ h _ ih =>
    rcases hgood k hk with hroot | ⟨parent', hup, hparent⟩
    · rw [h] at hroot; cases hroot
    · rw [h] at hup
      obtain rfl := ChainNode.up.inj hup
      refine ih hparent (List.forall_mem_cons.mpr ⟨⟨hk, .single h⟩, fun s hs => ?_⟩)
      obtain ⟨hs, hpath⟩ := hseen s hs
      exact ⟨hs, hpath.tail h⟩

/-- **Every chain of some keys ends at a root** exactly when their parents are among them and
none is its own ancestor. -/
theorem rooted_iff [DecidableEq κ] (keys : List κ) (hkeys : Within node keys) (good : κ → Prop)
    (hgood : ∀ k, good k ↔ node k = .root ∨ ∃ parent, node k = .up parent) :
    (∀ k, good k → Rooted node k) ↔
      (∀ k parent, node k = .up parent → good parent) ∧
        ∀ k, ¬ Relation.TransGen (Points node) k k := by
  constructor
  · intro h
    refine ⟨fun k parent hup => ?_, fun k hcycle => ?_⟩
    · obtain ⟨n, hn⟩ := h k ((hgood k).mpr (.inr ⟨parent, hup⟩))
      obtain ⟨m, _, hparent⟩ := hn.lt_of_points (.single hup)
      refine (hgood parent).mpr ?_
      cases hparent with
      | root _ hroot => exact .inl hroot
      | up _ _ next hnext => exact .inr ⟨next, hnext⟩
    · have hk : good k := by
        obtain ⟨next, hstep, _⟩ := Relation.TransGen.head'_iff.mp hcycle
        exact (hgood k).mpr (.inr ⟨next, hstep⟩)
      exact (h k hk).not_cycle hcycle
  · rintro ⟨hparents, hacyclic⟩ k hk
    obtain ⟨v, hv⟩ := exists_walks keys hkeys [] List.nodup_nil
      (fun s hs => absurd hs List.not_mem_nil) k
    have hstep : ∀ j, good j → node j = .root ∨ ∃ parent, node j = .up parent ∧ good parent := by
      intro j hj
      rcases (hgood j).mp hj with hroot | ⟨parent, hup⟩
      · exact .inl hroot
      · exact .inr ⟨parent, hup, hparents j parent hup⟩
    rcases hv.cycle good hk hstep (fun s hs => absurd hs List.not_mem_nil) with rfl | ⟨j, _, hcycle⟩
    · exact hv.rooted
    · exact absurd hcycle (hacyclic j)

end LamTo.Library
