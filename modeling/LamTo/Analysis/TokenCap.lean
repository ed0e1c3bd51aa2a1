import LamTo.Model.Tokens
import Mathlib.Data.List.Perm.Subperm

/-!
# The cap on the tokens of a user

A login deletes the tokens beyond the four newest of the list it read, and then creates its own.
So it leaves at most five tokens unless another login of the user has created one since the list
was read and there are too many by then.

* `LoginInv` says what a login in progress knows: the tokens it read, those it has deleted, and
  that what it has still to delete is the oldest;
* every step that does not create a token in a crowd keeps the cap;
* a step that does breaks it.

SOURCE: src/lamto/api/views.py:182-200
-/

set_option autoImplicit false

namespace LamTo.Analysis

open LamTo.Library LamTo.Model

variable {C : Type}

/-- The tokens of the user are among those the login read, or there are fewer than the cap. -/
def Uncrowded (s : TokenState C) : TokenLogin → Prop
  | .evicting user order _ =>
    (∀ r ∈ s.tokensOf user, r.1 ∈ order) ∨ (s.tokensOf user).length < tokenCapPerUser
  | .idle => True

instance (s : TokenState C) : (login : TokenLogin) → Decidable (Uncrowded s login)
  | .evicting _ _ _ => inferInstanceAs (Decidable (_ ∨ _))
  | .idle => inferInstanceAs (Decidable True)

/-- The step creates no token in a crowd. -/
def NotCrowded (s : TokenState C) : TokenAction C → Prop
  | .create c => Uncrowded s (s.login c)
  | _ => True

instance (s : TokenState C) : (action : TokenAction C) → Decidable (NotCrowded s action)
  | .create c => inferInstanceAs (Decidable (Uncrowded s (s.login c)))
  | .tick _ | .read _ _ _ | .evict _ | .stop _ | .logout _ | .logoutAll _ =>
    inferInstanceAs (Decidable True)

/-- What a login that has read the tokens of a user knows. -/
structure LoginInv (s : TokenState C) (user : ℕ) (order stale : List ℕ) : Prop where
  few : order.length ≤ tokenCapPerUser
  drawn : ∀ pk ∈ order, pk < s.tokens.next
  deleted : ∃ gone, order.drop (tokenCapPerUser - 1) = gone ++ stale ∧
    ∀ pk ∈ gone, s.tokens.get? pk = none
  oldest : ∀ pk ∈ stale, ∀ a, s.tokens.get? pk = some a →
    ∀ q b, s.tokens.get? q = some b → b.user = user → a.created ≤ b.created

structure TokenInv (s : TokenState C) : Prop where
  cap : ∀ user, (s.tokensOf user).length ≤ tokenCapPerUser
  past : ∀ pk a, s.tokens.get? pk = some a → a.created ≤ s.now
  logins : ∀ c user order stale, s.login c = .evicting user order stale →
    LoginInv s user order stale

theorem mem_tokensOf (s : TokenState C) (user pk : ℕ) (a : AuthToken) :
    (pk, a) ∈ s.tokensOf user ↔ s.tokens.get? pk = some a ∧ a.user = user := by
  unfold TokenState.tokensOf
  rw [Table.mem_select, decide_eq_true_eq]

theorem tokensOf_keys_nodup (s : TokenState C) (user : ℕ) :
    ((s.tokensOf user).map Prod.fst).Nodup :=
  (s.tokens.keys_nodup).sublist (List.filter_sublist.map Prod.fst)

theorem tokensOf_remove_le (s t : TokenState C) (p : ℕ → AuthToken → Bool)
    (h : t.tokens = s.tokens.remove p) (user : ℕ) :
    (t.tokensOf user).length ≤ (s.tokensOf user).length := by
  unfold TokenState.tokensOf
  rw [h]
  exact (List.filter_sublist.filter _).length_le

/-! ## Steps -/

/-- Tokens are deleted, and logins go on or stop. -/
theorem LoginInv.shrink {s t : TokenState C} {user : ℕ} {order stale rest : List ℕ}
    (h : LoginInv s user order stale) (hnext : t.tokens.next = s.tokens.next)
    (hrows : ∀ pk a, t.tokens.get? pk = some a → s.tokens.get? pk = some a)
    (hrest : ∃ done, stale = done ++ rest ∧ ∀ pk ∈ done, t.tokens.get? pk = none) :
    LoginInv t user order rest where
  few := h.few
  drawn := by
    rw [hnext]
    exact h.drawn
  deleted := by
    obtain ⟨gone, horder, hgone⟩ := h.deleted
    obtain ⟨done, rfl, hdone⟩ := hrest
    refine ⟨gone ++ done, by rw [horder, List.append_assoc], ?_⟩
    intro pk hpk
    rcases List.mem_append.mp hpk with hpk | hpk
    · cases hget : t.tokens.get? pk with
      | none => rfl
      | some a =>
        have hbefore := hrows pk a hget
        rw [hgone pk hpk] at hbefore
        cases hbefore
    · exact hdone pk hpk
  oldest := by
    obtain ⟨done, rfl, -⟩ := hrest
    intro pk hpk a ha q b hb huser
    exact h.oldest pk (List.mem_append_right done hpk) a (hrows pk a ha) q b (hrows q b hb) huser

theorem LoginInv.congr {s t : TokenState C} {user : ℕ} {order stale : List ℕ}
    (h : LoginInv s user order stale) (htokens : t.tokens = s.tokens) :
    LoginInv t user order stale := by
  obtain ⟨now, tokens, login⟩ := t
  cases htokens
  exact ⟨h.few, h.drawn, h.deleted, h.oldest⟩

/-- A step that creates no token and begins no login. -/
theorem TokenInv.shrink {s t : TokenState C} (h : TokenInv s) (hnow : s.now ≤ t.now)
    (hnext : t.tokens.next = s.tokens.next)
    (hrows : ∀ pk a, t.tokens.get? pk = some a → s.tokens.get? pk = some a)
    (hcount : ∀ user, (t.tokensOf user).length ≤ (s.tokensOf user).length)
    (hlogin : ∀ c user order rest, t.login c = .evicting user order rest →
      ∃ done, s.login c = .evicting user order (done ++ rest) ∧
        ∀ pk ∈ done, t.tokens.get? pk = none) : TokenInv t where
  cap := fun user => Nat.le_trans (hcount user) (h.cap user)
  past := fun pk a ha => Nat.le_trans (h.past pk a (hrows pk a ha)) hnow
  logins := by
    intro c user order rest hc
    obtain ⟨done, hs, hdone⟩ := hlogin c user order rest hc
    exact (h.logins c user order _ hs).shrink hnext hrows ⟨done, rfl, hdone⟩

/-- The tokens a login finds when it has deleted its list are the four newest of the list, as long
as no other login has created one. -/
theorem tokensOf_length_of_read (s : TokenState C) (user : ℕ) (order : List ℕ)
    (h : LoginInv s user order []) (hread : ∀ r ∈ s.tokensOf user, r.1 ∈ order) :
    (s.tokensOf user).length < tokenCapPerUser := by
  obtain ⟨gone, hgone, hdeleted⟩ := h.deleted
  rw [List.append_nil] at hgone
  have hsubset : (s.tokensOf user).map Prod.fst ⊆ order.take (tokenCapPerUser - 1) := by
    intro pk hpk
    obtain ⟨r, hr, rfl⟩ := List.mem_map.mp hpk
    have horder := hread r hr
    rw [← List.take_append_drop (tokenCapPerUser - 1) order, hgone] at horder
    rcases List.mem_append.mp horder with hkept | hdel
    · exact hkept
    · have hget := ((mem_tokensOf s user r.1 r.2).mp hr).1
      rw [hdeleted r.1 hdel] at hget
      cases hget
  have hlength := ((tokensOf_keys_nodup s user).subperm hsubset).length_le
  rw [List.length_map, List.length_take] at hlength
  have hcap : 0 < tokenCapPerUser := by decide
  omega

variable [DecidableEq C]

theorem get?_remove_some {α : Type} (t : Table α) (p : ℕ → α → Bool) (pk : ℕ) (a : α)
    (h : (t.remove p).get? pk = some a) : t.get? pk = some a :=
  ((t.get?_remove p pk a).mp h).1

/-- **A login reads** the tokens of a user: the one it will delete is the oldest. -/
theorem TokenInv.read {s : TokenState C} (h : TokenInv s) (c : C) (user : ℕ) (order : List ℕ)
    (horder : s.newestFirst user order) :
    TokenInv (s.setLogin c (.evicting user order (order.drop (tokenCapPerUser - 1)))) where
  cap := h.cap
  past := h.past
  logins := by
    intro d user' order' stale' hd
    by_cases hdc : d = c
    · subst hdc
      have hself := (Function.update_self _ _ _).symm.trans hd
      cases hself
      have hlength : order.length ≤ tokenCapPerUser := by
        rw [horder.1.length_eq, List.length_map]
        exact h.cap user
      refine ⟨hlength, ?_, ⟨[], rfl, fun pk hpk => (nomatch hpk)⟩, ?_⟩
      · intro pk hpk
        obtain ⟨r, hr, rfl⟩ := List.mem_map.mp (horder.1.mem_iff.mp hpk)
        exact Table.lt_next_of_get? _ _ _ ((mem_tokensOf s user r.1 r.2).mp hr).1
      · intro pk hpk a ha q b hb huser
        change s.tokens.get? pk = some a at ha
        change s.tokens.get? q = some b at hb
        have hq : q ∈ order :=
          horder.1.mem_iff.mpr (List.mem_map.mpr ⟨(q, b), (mem_tokensOf s user q b).mpr ⟨hb, huser⟩,
            rfl⟩)
        -- Nothing comes after the fifth token: the token to delete is the last.
        have hsplit := List.take_append_drop (tokenCapPerUser - 1) order
        have hrest : order.drop (tokenCapPerUser - 1) = [pk] := by
          have hshort : (order.drop (tokenCapPerUser - 1)).length ≤ 1 := by
            rw [List.length_drop]
            unfold tokenCapPerUser at hlength ⊢
            omega
          have hone := Nat.le_antisymm hshort (List.length_pos_of_mem hpk)
          obtain ⟨q, hq⟩ := List.length_eq_one_iff.mp hone
          rw [hq, List.mem_singleton] at hpk
          rw [hq, hpk]
        rw [hrest] at hsplit
        rw [← hsplit] at hq
        rcases List.mem_append.mp hq with hq | hq
        · have hpairs := horder.2
          rw [← hsplit, List.pairwise_append] at hpairs
          have hle := hpairs.2.2 q hq pk List.mem_cons_self
          rw [ha, hb] at hle
          exact hle
        · obtain rfl := List.mem_singleton.mp hq
          rw [ha] at hb
          cases hb
          exact Nat.le_refl _
    · have hs := (Function.update_of_ne hdc _ _).symm.trans hd
      exact (h.logins d user' order' stale' hs).congr rfl

/-- The tokens after one is created. -/
theorem tokensOf_create (s : TokenState C) (c : C) (login : TokenLogin) (user other : ℕ) :
    ({ s with tokens := s.tokens.insert ⟨user, s.now⟩ }.setLogin c login).tokensOf other =
      s.tokensOf other ++ if user = other then [(s.tokens.next, ⟨user, s.now⟩)] else [] := by
  show (s.tokens.insert ⟨user, s.now⟩).select _ = _
  rw [Table.select_insert]
  simp only [TokenState.tokensOf, decide_eq_true_eq]

/-- **A token is created** without a crowd. -/
theorem TokenInv.create {s : TokenState C} (h : TokenInv s) (c : C) (user : ℕ) (order : List ℕ)
    (hlogin : s.login c = .evicting user order [])
    (hok : (∀ r ∈ s.tokensOf user, r.1 ∈ order) ∨ (s.tokensOf user).length < tokenCapPerUser) :
    TokenInv ({ s with tokens := s.tokens.insert ⟨user, s.now⟩ }.setLogin c .idle) where
  cap := by
    intro other
    rw [tokensOf_create]
    split
    · next huser =>
      subst huser
      rw [List.length_append, List.length_singleton]
      rcases hok with hread | hfew
      · exact tokensOf_length_of_read s user order (h.logins c user order [] hlogin) hread
      · exact hfew
    · rw [List.append_nil]
      exact h.cap other
  past := by
    intro pk a ha
    have hrow := (s.tokens.get?_insert ⟨user, s.now⟩ pk).symm.trans ha
    split at hrow
    · cases hrow
      exact Nat.le_refl _
    · exact h.past pk a hrow
  logins := by
    intro d other order' stale hd
    by_cases hdc : d = c
    · subst hdc
      exact nomatch (Function.update_self _ _ _).symm.trans hd
    · have hinv := h.logins d other order' stale ((Function.update_of_ne hdc _ _).symm.trans hd)
      have hold : ∀ pk ∈ order', ∀ a,
          (s.tokens.insert ⟨user, s.now⟩).get? pk = some a → s.tokens.get? pk = some a := by
        intro pk hpk a ha
        rwa [Table.get?_insert, if_neg (Nat.ne_of_lt (hinv.drawn pk hpk))] at ha
      have hstale : ∀ pk ∈ stale, pk ∈ order' := by
        obtain ⟨gone, hgone, -⟩ := hinv.deleted
        intro pk hpk
        refine List.mem_of_mem_drop (i := tokenCapPerUser - 1) ?_
        rw [hgone]
        exact List.mem_append_right gone hpk
      refine ⟨hinv.few, fun pk hpk => Nat.lt_succ_of_lt (hinv.drawn pk hpk), ?_, ?_⟩
      · obtain ⟨gone, hgone, hdeleted⟩ := hinv.deleted
        refine ⟨gone, hgone, fun pk hpk => ?_⟩
        have horder : pk ∈ order' := by
          refine List.mem_of_mem_drop (i := tokenCapPerUser - 1) ?_
          rw [hgone]
          exact List.mem_append_left stale hpk
        cases hget : (s.tokens.insert ⟨user, s.now⟩).get? pk with
        | none => exact hget
        | some a =>
          have := hold pk horder a hget
          rw [hdeleted pk hpk] at this
          cases this
      · intro pk hpk a ha q b hb huser
        have ha' := hold pk (hstale pk hpk) a ha
        have hb' := (s.tokens.get?_insert ⟨user, s.now⟩ q).symm.trans hb
        split at hb'
        · cases hb'
          exact h.past pk a ha'
        · exact hinv.oldest pk hpk a ha' q b hb' huser

/-- **Every step outside a crowd keeps the cap.** -/
theorem TokenInv.step {s t : TokenState C} (h : TokenInv s) (action : TokenAction C)
    (hok : NotCrowded s action) (hstep : TokenState.step s action = some t) : TokenInv t := by
  cases action with
  | tick elapsed =>
    cases hstep
    exact h.shrink (Nat.le_add_right _ _) rfl (fun _ _ ha => ha) (fun _ => Nat.le_refl _)
      fun c user order rest hc => ⟨[], hc, fun pk hpk => nomatch hpk⟩
  | read c user order =>
    simp only [TokenState.step] at hstep
    split at hstep
    · next hread =>
      cases hstep
      exact h.read c user order hread.2
    · cases hstep
  | evict c =>
    simp only [TokenState.step] at hstep
    split at hstep
    · next user order pk rest hlogin =>
      cases hstep
      refine h.shrink (Nat.le_refl _) rfl (fun q a ha => get?_remove_some _ _ q a ha)
        (tokensOf_remove_le s _ (fun q _ => q = pk) rfl) ?_
      intro d user' order' rest' hd
      by_cases hdc : d = c
      · subst hdc
        have hself := (Function.update_self _ _ _).symm.trans hd
        cases hself
        refine ⟨[pk], hlogin, fun q hq => ?_⟩
        obtain rfl := List.mem_singleton.mp hq
        cases hget : (s.tokens.remove fun p _ => p = q).get? q with
        | none => exact hget
        | some a =>
          have := ((s.tokens.get?_remove _ q a).mp hget).2
          simp at this
      · exact ⟨[], (Function.update_of_ne hdc _ _).symm.trans hd, fun q hq => nomatch hq⟩
    · cases hstep
  | create c =>
    simp only [TokenState.step] at hstep
    split at hstep
    · next user order hlogin =>
      cases hstep
      simp only [NotCrowded, hlogin, Uncrowded] at hok
      exact h.create c user order hlogin hok
    · cases hstep
  | stop c =>
    cases hstep
    refine h.shrink (Nat.le_refl _) rfl (fun _ _ ha => ha) (fun _ => Nat.le_refl _) ?_
    intro d user order rest hd
    by_cases hdc : d = c
    · subst hdc
      exact nomatch (Function.update_self _ _ _).symm.trans hd
    · exact ⟨[], (Function.update_of_ne hdc _ _).symm.trans hd, fun q hq => nomatch hq⟩
  | logout pk =>
    cases hstep
    exact h.shrink (Nat.le_refl _) rfl (fun q a ha => get?_remove_some _ _ q a ha)
      (tokensOf_remove_le s _ (fun q _ => q = pk) rfl)
      fun c user order rest hc => ⟨[], hc, fun q hq => nomatch hq⟩
  | logoutAll user =>
    cases hstep
    exact h.shrink (Nat.le_refl _) rfl (fun q a ha => get?_remove_some _ _ q a ha)
      (tokensOf_remove_le s _ (fun _ t => t.user = user) rfl)
      fun c user order rest hc => ⟨[], hc, fun q hq => nomatch hq⟩

/-- **The cap on tokens** in every run without a crowd, from a state without logins in progress:
a user has at most five tokens, the token just created is among them, and a login deletes the
oldest. -/
theorem token_cap (start s : TokenState C) (hidle : ∀ c, start.login c = .idle)
    (hcap : ∀ user, (start.tokensOf user).length ≤ tokenCapPerUser)
    (hpast : ∀ pk a, start.tokens.get? pk = some a → a.created ≤ start.now)
    (hreach : Reaches TokenState.step NotCrowded start s) :
    (∀ user, (s.tokensOf user).length ≤ tokenCapPerUser) ∧
    (∀ c t, NotCrowded s (.create c) → TokenState.step s (.create c) = some t →
      ∃ user order, s.login c = .evicting user order [] ∧
        (t.tokensOf user).length ≤ tokenCapPerUser ∧
        (s.tokens.next, (⟨user, s.now⟩ : AuthToken)) ∈ t.tokensOf user) ∧
    ∀ c user order pk rest, s.login c = .evicting user order (pk :: rest) →
      ∀ a, s.tokens.get? pk = some a → ∀ r ∈ s.tokensOf user, a.created ≤ r.2.created := by
  have hstart : TokenInv start := by
    refine ⟨hcap, hpast, fun c user order stale hc => ?_⟩
    rw [hidle] at hc
    cases hc
  have h : TokenInv s :=
    hreach.preserves TokenInv (fun u action v hu hok hstep => hu.step action hok hstep) hstart
  refine ⟨h.cap, ?_, ?_⟩
  · intro c t hok hstep
    have ht := h.step _ hok hstep
    simp only [TokenState.step] at hstep
    split at hstep
    · next user order hlogin =>
      cases hstep
      refine ⟨user, order, hlogin, ht.cap user, ?_⟩
      rw [tokensOf_create, if_pos rfl]
      exact List.mem_append_right _ List.mem_cons_self
    · cases hstep
  · intro c user order pk rest hlogin a ha r hr
    obtain ⟨hget, huser⟩ := (mem_tokensOf s user r.1 r.2).mp hr
    exact (h.logins c user order _ hlogin).oldest pk List.mem_cons_self a ha r.1 r.2 hget huser

/-- **A token created in a crowd** is one too many. -/
theorem crowded_create_exceeds (s t : TokenState C) (c : C) (hcrowd : ¬ NotCrowded s (.create c))
    (hstep : TokenState.step s (.create c) = some t) :
    ∃ user order, s.login c = .evicting user order [] ∧
      tokenCapPerUser < (t.tokensOf user).length := by
  simp only [TokenState.step] at hstep
  split at hstep
  · next user order hlogin =>
    cases hstep
    refine ⟨user, order, hlogin, ?_⟩
    simp only [NotCrowded, hlogin, Uncrowded, not_or, not_lt] at hcrowd
    rw [tokensOf_create, if_pos rfl, List.length_append, List.length_singleton]
    exact Nat.lt_succ_of_le hcrowd.2
  · cases hstep

/-! ## Two logins at once -/

/-- `n` logins of one session, one after another. -/
def loginsInTurn (n : ℕ) : List (TokenAction Bool) :=
  (List.range n).flatMap fun i =>
    [.tick 1, .read true 7 (((List.range i).map (· + 1)).reverse), .create true]

/-- Six logins in turn; the last deletes the token of the first. -/
theorem token_cap_in_turn : ∃ s : TokenState Bool,
    Reaches TokenState.step NotCrowded .empty s ∧ s.tokens.next = 7 ∧
      (s.tokensOf 7).length ≤ tokenCapPerUser := by
  obtain ⟨s, hreach, hsix⟩ := exists_of_run (guarded TokenState.step NotCrowded)
    (.empty : TokenState Bool) (fun s => s.tokens.next = 7)
    (loginsInTurn 5 ++ [.tick 1, .read true 7 [5, 4, 3, 2, 1], .evict true, .create true])
    (by decide)
  have hcap := token_cap (.empty : TokenState Bool) s (fun _ => rfl) (fun _ => Nat.zero_le _)
    (fun pk a ha => nomatch ha) hreach.of_guarded
  exact ⟨s, hreach.of_guarded, hsix, hcap.1 7⟩

/-- Two logins read four tokens each, and each creates one: the user has six. -/
theorem concurrent_logins_exceed_cap : ∃ s : TokenState Bool,
    Reaches TokenState.step Always .empty s ∧ (s.tokensOf 7).length = 6 := by
  obtain ⟨s, hreach, hsix⟩ := exists_of_run TokenState.step (.empty : TokenState Bool)
    (fun s => (s.tokensOf 7).length = 6)
    (loginsInTurn 4 ++ [.read true 7 [4, 3, 2, 1], .read false 7 [4, 3, 2, 1], .create true,
      .create false]) (by decide)
  exact ⟨s, hreach, hsix⟩

end LamTo.Analysis
