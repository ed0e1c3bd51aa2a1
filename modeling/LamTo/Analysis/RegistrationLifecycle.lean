import LamTo.Analysis.LoginSteps
import LamTo.Analysis.RegistrationSteps

/-!
# The life of a registration

What holds of the requests, the accounts and the occupancies after any interleaving of the calls,
and of the login of those who were approved.

* the two normal forms of a phone number meet: the international form of a local number has that
  number as its local form;
* an approval adds one account and one occupancy, both when it commits, and no other call adds any;
* a decision on a request past its time leaves it expired.

SOURCE: src/lamto/accounts/registration.py, backends.py:12-46, models.py:27-35
-/

set_option autoImplicit false

namespace LamTo.Analysis

open LamTo.Library LamTo.Model

variable {C : Type}

/-! ## Phone numbers -/

/-- **The two forms of a phone number meet.** -/
theorem normalizePhone_internationalPhone (L : LoginConfig) (p : Text)
    (h : isLocalPhone L p = true) : normalizePhone L (internationalPhone p) = some p := by
  obtain ⟨hdecimal, hhead⟩ := isLocalPhone_decimal L p h
  cases p with
  | nil => cases hhead
  | cons c rest =>
    cases hhead
    have hlength : 9 ≤ rest.length := by
      simp only [isLocalPhone, Bool.and_eq_true, Bool.or_eq_true, decide_eq_true_eq] at h
      omega
    have hdigits : ∀ d ∈ rest, isSeparator L d = false := by
      intro d hd
      exact isSeparator_of_isDecimal L d (List.all_eq_true.mp hdecimal d (List.mem_cons_of_mem _ hd))
    have hrest : (rest.filter fun d => !isSeparator L d) = rest := by
      rw [List.filter_eq_self]
      intro d hd
      rw [hdigits d hd]
      rfl
    have hascii : ∀ d : Char, d.toNat < 128 → d.isDigit = true → isSeparator L d = false := by
      intro d hd hdigit
      refine isSeparator_of_isDecimal L d ?_
      unfold LoginConfig.isDecimal
      rw [L.unicode.decimal_ascii d hd, if_pos hdigit]
      rfl
    have hlocal : localPrefix ((internationalPhone ('0' :: rest)).filter
        fun d => !isSeparator L d) = '0' :: rest := by
      show localPrefix (('+' :: '8' :: '4' :: rest).filter fun d => !isSeparator L d) = '0' :: rest
      -- A plus sign that counts as a separator leaves the number with its prefix `84`.
      cases hplus : isSeparator L '+' with
      | false =>
        simp only [List.filter_cons, hplus, hascii '8' (by decide) rfl, hascii '4' (by decide) rfl,
          hrest, Bool.not_false, if_true]
        simp [localPrefix, List.isPrefixOf]
      | true =>
        simp only [List.filter_cons, hplus, hascii '8' (by decide) rfl, hascii '4' (by decide) rfl,
          hrest, Bool.not_false, Bool.not_true, if_true, Bool.false_eq_true, if_false]
        have heleven : 11 ≤ rest.length + 1 + 1 := by omega
        simp [localPrefix, List.isPrefixOf, heleven]
    unfold normalizePhone
    rw [hlocal, if_pos h]

/-- One row is what a query for a unique value finds. -/
theorem getOne_select {α : Type} (t : Table α) (p : α → Bool) (pk : ℕ) (a : α)
    (h : t.get? pk = some a) (hp : p a = true)
    (hunique : ∀ q b, t.get? q = some b → p b = true → q = pk) :
    getOne (t.select p) = .ok (some (pk, a)) := by
  have hlength := t.select_length_le_one p fun q x r y hx hy hpx hpy =>
    (hunique q x hx hpx).trans (hunique r y hy hpy).symm
  have hmem := (t.mem_select p pk a).mpr ⟨h, hp⟩
  generalize t.select p = rows at hlength hmem
  match rows, hlength, hmem with
  | [r], _, hmem =>
    obtain rfl := List.mem_singleton.mp hmem
    rfl
  | _ :: _ :: _, hlength, _ => exact absurd hlength (by simp)

/-! ## What a step commits -/

variable [DecidableEq C] {L : LoginConfig} {s t : RegistrationState C}

/-- A step that is no commit leaves what is committed. -/
structure Uncommitted (s t : RegistrationState C) : Prop where
  requests : ∀ pk, t.requests.committed.get? pk = s.requests.committed.get? pk
  users : ∀ pk, t.users.committed.get? pk = s.users.committed.get? pk
  occupancies : ∀ pk, t.occupancies.committed.get? pk = s.occupancies.committed.get? pk

theorem uncommitted_raise (s : RegistrationState C) (c : C) (call : RegistrationCall)
    (result : RegistrationResult) : Uncommitted s (s.raise c call result) :=
  ⟨fun _ => rfl, fun _ => rfl, fun _ => rfl⟩

theorem uncommitted_setPhase (s : RegistrationState C) (c : C) (phase : RegistrationPhase) :
    Uncommitted s (s.setPhase c phase) :=
  ⟨fun _ => rfl, fun _ => rfl, fun _ => rfl⟩

theorem uncommitted_write (s : RegistrationState C) (c : C) (pk : ℕ) (row : RegistrationRequest)
    (phase : RegistrationPhase) :
    Uncommitted s ({ s with requests := s.requests.write c pk (some row) }.setPhase c phase) :=
  ⟨fun q => s.requests.get?_write_committed c pk (some row) q, fun _ => rfl, fun _ => rfl⟩

theorem uncommitted_expire (s : RegistrationState C) (c : C) (now : ℕ)
    (rows : List (ℕ × RegistrationRequest)) (phase : RegistrationPhase) :
    Uncommitted s ((s.expireRequests c now rows).setPhase c phase) := by
  have hfold : ∀ v : Versions C RegistrationRequest,
      (rows.foldl (fun v r => v.write c r.1 (some (r.2.expire now))) v).committed =
        v.committed := by
    induction rows with
    | nil => exact fun _ => rfl
    | cons r rows ih =>
      intro v
      rw [List.foldl_cons, ih, Versions.committed_write]
  refine ⟨fun pk => ?_, fun _ => rfl, fun _ => rfl⟩
  show (rows.foldl _ s.requests).committed.get? pk = _
  rw [hfold]

theorem uncommitted_decideOn (c : C) (call : RegistrationCall) (request actor : ℕ)
    (decision : RegistrationRequest → RegistrationState C)
    (hstep : s.decideOn c call request actor decision = some t)
    (hdecision : ∀ row, Uncommitted s (decision row)) : Uncommitted s t := by
  unfold RegistrationState.decideOn at hstep
  split at hstep
  · cases hstep
    exact uncommitted_raise s c _ _
  · split at hstep
    · cases hstep
    · split at hstep
      · cases hstep
        exact uncommitted_raise s c _ _
      · split at hstep
        · cases hstep
          exact uncommitted_raise s c _ _
        · split at hstep
          · cases hstep
            exact uncommitted_expire s c _ _ _
          · cases hstep
            exact hdecision _

theorem uncommitted_begin (R : RegistrationConfig) (c : C) (call : RegistrationCall)
    (hstep : s.begin R c call = some t) : Uncommitted s t := by
  unfold RegistrationState.begin at hstep
  split at hstep
  · cases call with
    | submit submission =>
      cases hstep
      unfold RegistrationState.beginSubmit
      split
      · exact uncommitted_raise s c _ _
      · split
        · exact uncommitted_setPhase s c _
        · exact uncommitted_raise s c _ _
    | expire limit now =>
      cases hstep
      exact uncommitted_expire s c _ _ _
    | status token =>
      simp only [RegistrationState.beginStatus] at hstep
      split at hstep
      · cases hstep
        exact uncommitted_raise s c _ _
      · split at hstep
        · cases hstep
        · split at hstep
          · cases hstep
            exact uncommitted_expire s c _ _ _
          · cases hstep
            exact uncommitted_setPhase s c _
    | approve request actor =>
      exact uncommitted_decideOn c _ request actor _ hstep
        fun row => uncommitted_write s c request row _
    | reject request actor reason =>
      simp only [RegistrationState.beginReject] at hstep
      split at hstep
      · cases hstep
        exact uncommitted_raise s c _ _
      · exact uncommitted_decideOn c _ request actor _ hstep
          fun row => uncommitted_write s c request _ _
  · cases hstep

/-- **A step commits** what one call has written, makes an account elsewhere, or commits
nothing. -/
theorem commits_of_step (R : RegistrationConfig) (action : RegistrationAction C)
    (hstep : s.step R action = some t) :
    (∃ c call result, s.phase c = .closing call result ∧
        t = (s.commit c).setPhase c (.finished call result)) ∨
      (∃ user, action = .otherUser user ∧ t = { s with users := s.users.insertNow user }) ∨
      Uncommitted s t := by
  cases action with
  | tick elapsed =>
    cases hstep
    exact .inr (.inr ⟨fun _ => rfl, fun _ => rfl, fun _ => rfl⟩)
  | setPremises unitBuilding manages =>
    cases hstep
    exact .inr (.inr ⟨fun _ => rfl, fun _ => rfl, fun _ => rfl⟩)
  | otherUser user =>
    simp only [RegistrationState.step] at hstep
    split at hstep
    · cases hstep
    · cases hstep
      exact .inr (.inl ⟨user, rfl, rfl⟩)
  | begin c call => exact .inr (.inr (uncommitted_begin R c call hstep))
  | disconnect c =>
    obtain ⟨call, -, rfl⟩ := Option.map_eq_some_iff.mp hstep
    exact .inr (.inr (uncommitted_raise s c _ _))
  | next c salt token =>
    simp only [RegistrationState.step, RegistrationState.next] at hstep
    split at hstep
    · cases hstep
    · cases hstep
    · simp only [RegistrationState.releaseStale] at hstep
      split at hstep
      · cases hstep
      · cases hstep
        exact .inr (.inr (uncommitted_expire s c _ _ _))
    · cases hstep
      exact .inr (.inr (uncommitted_expire s c _ _ _))
    · cases hstep
      unfold RegistrationState.compare
      split
      · exact .inr (.inr (uncommitted_raise s c _ _))
      · exact .inr (.inr (uncommitted_setPhase s c _))
    · simp only [RegistrationState.insertRequest] at hstep
      refine .inr (.inr ?_)
      split at hstep
      · cases hstep
        exact uncommitted_raise s c _ _
      · split at hstep
        · cases hstep
        · split at hstep
          · cases hstep
            exact uncommitted_raise s c _ _
          · split at hstep
            · cases hstep
              exact uncommitted_raise s c _ _
            · cases hstep
              exact ⟨fun _ => rfl, fun _ => rfl, fun _ => rfl⟩
    · simp only [RegistrationState.insertUser] at hstep
      refine .inr (.inr ?_)
      split at hstep
      · cases hstep
      · split at hstep
        · cases hstep
          exact uncommitted_raise s c _ _
        · cases hstep
          exact ⟨fun _ => rfl, fun _ => rfl, fun _ => rfl⟩
    · next request actor now row user hphase =>
      cases hstep
      exact .inr (.inr ⟨fun q => s.requests.get?_write_committed c request _ q, fun _ => rfl,
        fun _ => rfl⟩)
    · next call result hphase =>
      cases hstep
      exact .inl ⟨c, call, result, hphase, rfl⟩

/-! ## The lifecycle -/

/-- A request that has been decided on, or has expired, stays as it is. -/
theorem RegistrationInv.settled (R : RegistrationConfig) (h : RegistrationInv R.toLoginConfig s)
    (action : RegistrationAction C) (hstep : s.step R action = some t) (pk : ℕ)
    (r : RegistrationRequest) (hr : s.requests.committed.get? pk = some r)
    (hstatus : r.status ≠ .pending) : t.requests.committed.get? pk = some r := by
  rcases commits_of_step R action hstep with ⟨c, call, result, -, rfl⟩ | ⟨user, -, rfl⟩ | hsame
  · refine (s.requests.get?_commit c pk).trans ?_
    rcases s.requests.seen_cases c pk with ⟨row, hrow, -⟩ | ⟨-, hseen⟩
    · obtain ⟨a, -, -, hbefore⟩ := h.requests.rewritten pk _ hrow
      exact absurd (hbefore r hr).1 hstatus
    · exact hseen.trans hr
  · exact hr
  · exact (hsame.requests pk).trans hr

omit [DecidableEq C] in
/-- **The backend finds the account of a request** by every spelling of its phone. -/
theorem RegistrationInv.finds (h : RegistrationInv L s) (user : ℕ) (row : RegistrationRequest)
    (huser : s.users.committed.get? user = some (accountOf L row)) (spelling number : Text)
    (hspelling : normalizePhone L spelling = some number)
    (hphone : internationalPhone number = row.phone) :
    lookUp L s.users.committed spelling = .ok (some (user, accountOf L row)) := by
  have hlocal := isLocalPhone_of_normalizePhone L spelling number hspelling
  have haccount : (accountOf L row).phone = some number := by
    simp only [accountOf, ← hphone, normalizePhone_internationalPhone L number hlocal,
      Option.getD_some]
  unfold lookUp
  rw [hspelling]
  refine getOne_select _ _ user _ huser (decide_eq_true haccount) ?_
  intro q b hb hsame
  refine h.accounts q user b _ (.inl hb) (.inl huser) ?_
  have hphones : b.phone = some number := of_decide_eq_true hsame
  simp [SameAccount, sameAccount, hphones, haccount]

end LamTo.Analysis
