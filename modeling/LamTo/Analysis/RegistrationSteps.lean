import LamTo.Analysis.AccountBuckets
import LamTo.Model.Registrations

/-!
# What the registration calls keep

A request is rewritten only while it is pending, by the one call that holds it: it expires, or is
approved or rejected before its time. The hash of the password goes with the status.

* `RequestInv` is about the table of requests alone;
* `RegistrationInv` adds the calls: who holds what, and that an approved request has the one call
  that made its account and its occupancy;
* most steps write no account, `RegistrationInv.move`; the account, the occupancy and the commit
  have lemmas of their own.

SOURCE: src/lamto/accounts/registration.py
-/

set_option autoImplicit false

namespace LamTo.Analysis

open LamTo.Library LamTo.Model

variable {C : Type}

/-! ## Requests -/

/-- The hash is there as long as the request is pending, and no decision comes after its time. -/
structure RequestSound (r : RegistrationRequest) : Prop where
  hash : r.passwordHash ≠ [] ↔ r.status = .pending
  inTime : r.status = .approved ∨ r.status = .rejected →
    ∃ time, r.decidedAt = some time ∧ time < r.expiresAt

/-- What a call makes of a pending request that it holds. -/
inductive Follows (b : RegistrationRequest) : RegistrationRequest → Prop where
  | same : Follows b b
  | expired (now : ℕ) : Follows b (b.expire now)
  | approved (actor now : ℕ) (h : now < b.expiresAt) : Follows b (b.approve actor now)
  | rejected (actor now : ℕ) (reason : Text) (h : now < b.expiresAt) :
    Follows b (b.reject actor now reason)

theorem RequestSound.follows {a b : RegistrationRequest} (h : RequestSound b)
    (hfollows : Follows b a) : RequestSound a := by
  cases hfollows with
  | same => exact h
  | expired now =>
    refine ⟨iff_of_false (fun hne => hne rfl) (fun hp => nomatch hp), ?_⟩
    rintro (hp | hp) <;> cases hp
  | approved actor now htime =>
    exact ⟨iff_of_false (fun hne => hne rfl) (fun hp => nomatch hp), fun _ => ⟨now, rfl, htime⟩⟩
  | rejected actor now reason htime =>
    exact ⟨iff_of_false (fun hne => hne rfl) (fun hp => nomatch hp), fun _ => ⟨now, rfl, htime⟩⟩

/-- The clash that the two constraints on pending requests forbid. -/
def Clash (a b : RegistrationRequest) : Prop := a.clashes b = true

theorem clash_iff (a b : RegistrationRequest) :
    Clash a b ↔ a.status = .pending ∧ b.status = .pending ∧
      (a.phone = b.phone ∨ a.email.isSome = true ∧ a.email = b.email) := by
  simp only [Clash, RegistrationRequest.clashes, Bool.and_eq_true, Bool.or_eq_true,
    decide_eq_true_eq, and_assoc]

theorem Clash.symm (a b : RegistrationRequest) (h : Clash a b) : Clash b a := by
  rw [clash_iff] at h ⊢
  obtain ⟨ha, hb, hsame⟩ := h
  refine ⟨hb, ha, hsame.imp Eq.symm ?_⟩
  rintro ⟨hsome, heq⟩
  exact ⟨by rw [← heq]; exact hsome, heq.symm⟩

/-- A request that has been rewritten clashes with no more than before. -/
theorem Follows.clash {a b y : RegistrationRequest} (h : Follows b a) (hclash : Clash a y) :
    Clash b y := by
  cases h with
  | same => exact hclash
  | expired now => exact nomatch ((clash_iff _ _).mp hclash).1
  | approved actor now htime => exact nomatch ((clash_iff _ _).mp hclash).1
  | rejected actor now reason htime => exact nomatch ((clash_iff _ _).mp hclash).1

structure RequestInv (v : Versions C RegistrationRequest) : Prop where
  distinct : Versions.Distinct Clash v
  sound : ∀ pk a, v.committed.get? pk = some a → RequestSound a
  rewritten : ∀ pk p, v.pending pk = some p → ∃ a, p.row = some a ∧ RequestSound a ∧
    ∀ b, v.committed.get? pk = some b → b.status = .pending ∧ Follows b a

variable [DecidableEq C] {v : Versions C RegistrationRequest} {c : C}

/-- What a call sees of a request that is pending in its eyes is what is committed, or its own
insertion. -/
theorem RequestInv.seen_sound (h : RequestInv v) (pk : ℕ) (r : RegistrationRequest)
    (hseen : v.seen c pk = some r) : RequestSound r := by
  rcases v.seen_cases c pk with ⟨row, hrow, hown⟩ | ⟨-, hcommitted⟩
  · obtain ⟨a, ha, hsound, -⟩ := h.rewritten pk _ hrow
    change row = some a at ha
    rw [hown, ha] at hseen
    cases hseen
    exact hsound
  · exact h.sound pk r (hcommitted.symm.trans hseen)

theorem RequestInv.rollback (h : RequestInv v) : RequestInv (v.rollback c) where
  distinct := h.distinct.rollback
  sound := h.sound
  rewritten := fun pk p hp => h.rewritten pk p ((v.pending_rollback c pk p).mp hp).1

theorem RequestInv.commit (h : RequestInv v) : RequestInv (v.commit c) where
  distinct := h.distinct.commit Clash.symm
  sound := by
    intro pk a ha
    rw [Versions.get?_commit] at ha
    exact h.seen_sound pk a ha
  rewritten := by
    intro pk p hp
    obtain ⟨hp, hne⟩ := (v.pending_commit c pk p).mp hp
    rw [Versions.get?_commit, v.seen_other c pk p hp hne]
    exact h.rewritten pk p hp

/-- **A call rewrites a pending request** that nobody else holds. -/
theorem RequestInv.write (h : RequestInv v) (pk : ℕ) (r a : RegistrationRequest)
    (hseen : v.seen c pk = some r) (hpending : r.status = .pending)
    (hfree : v.locked c pk = false) (hfollows : Follows r a) :
    RequestInv (v.write c pk (some a)) where
  distinct := by
    refine h.distinct.write Clash.symm pk r (some a) hfree hseen ?_
    intro x hx y hclash
    cases hx
    exact hfollows.clash hclash
  sound := by
    rw [Versions.committed_write]
    exact h.sound
  rewritten := by
    intro q p hp
    rw [Versions.committed_write]
    rw [Versions.pending_write _ _ _ _ (v.seen_bounded c pk r hseen)] at hp
    split at hp
    · next hq =>
      cases hp
      rw [hq]
      refine ⟨a, rfl, (h.seen_sound pk r hseen).follows hfollows, ?_⟩
      intro b hb
      -- The call has not rewritten the request before: it is still pending.
      have hsame : r = b := by
        rcases v.seen_cases c pk with ⟨row, hrow, hown⟩ | ⟨-, hcommitted⟩
        · obtain ⟨x, hx, -, hbefore⟩ := h.rewritten pk _ hrow
          change row = some x at hx
          rw [hown, hx] at hseen
          cases hseen
          obtain ⟨-, hfollows'⟩ := hbefore b hb
          cases hfollows' with
          | same => rfl
          | expired now => cases hpending
          | approved actor now htime => cases hpending
          | rejected actor now reason htime => cases hpending
        · rw [hcommitted, hb] at hseen
          cases hseen
          rfl
      rw [← hsame]
      exact ⟨hpending, hfollows⟩
    · exact h.rewritten q p hp

/-- **A request is inserted** that the constraints let in. -/
theorem RequestInv.insert (h : RequestInv v) (a : RegistrationRequest) (hsound : RequestSound a)
    (hawaits : v.awaits c a.clashes = false)
    (hview : (v.view c).any a.clashes = false) : RequestInv (v.insert c a) where
  distinct := h.distinct.insert Clash.symm a a.clashes (fun _ hclash => hclash) hawaits hview
  sound := h.sound
  rewritten := by
    intro q p hp
    rw [Versions.pending_insert] at hp
    split at hp
    · next hq =>
      cases hp
      refine ⟨a, rfl, hsound, ?_⟩
      intro b hb
      rw [Versions.get?_insert_committed, hq, Table.get?_next] at hb
      cases hb
    · exact h.rewritten q p hp

/-! ## Expiry -/

/-- The writes of a call that approves nothing: the others' are as they were. -/
structure Amends (c : C) (v w : Versions C RegistrationRequest) : Prop where
  inv : RequestInv w
  committed : ∀ pk, w.committed.get? pk = v.committed.get? pk
  others : ∀ pk p, p.owner ≠ c → (w.pending pk = some p ↔ v.pending pk = some p)
  unapproved : ∀ pk a, w.pending pk = some ⟨c, some a⟩ → a.status ≠ .approved

omit [DecidableEq C] in
theorem Amends.refl (h : RequestInv v)
    (hown : ∀ pk a, v.pending pk = some ⟨c, some a⟩ → a.status ≠ .approved) : Amends c v v where
  inv := h
  committed := fun _ => rfl
  others := fun _ _ _ => Iff.rfl
  unapproved := hown

theorem Amends.rollback (h : RequestInv v) : Amends c v (v.rollback c) where
  inv := h.rollback
  committed := fun _ => rfl
  others := fun pk p hp => (v.pending_rollback c pk p).trans (and_iff_left hp)
  unapproved := fun pk _ ha => absurd rfl ((v.pending_rollback c pk _).mp ha).2

/-- A call rewrites a request that it holds, and does not approve it. -/
theorem Amends.write {w : Versions C RegistrationRequest} (h : Amends c v w) (pk : ℕ)
    (r a : RegistrationRequest) (hseen : w.seen c pk = some r) (hpending : r.status = .pending)
    (hfree : w.locked c pk = false) (hfollows : Follows r a) (hstatus : a.status ≠ .approved) :
    Amends c v (w.write c pk (some a)) where
  inv := h.inv.write pk r a hseen hpending hfree hfollows
  committed := by
    rw [Versions.committed_write]
    exact h.committed
  others := fun q p hp => (w.pending_write_other c pk (some a) hfree q p hp).trans (h.others q p hp)
  unapproved := by
    intro q x hx
    rw [Versions.pending_write _ _ _ _ (w.seen_bounded c pk r hseen)] at hx
    split at hx
    · cases hx
      exact hstatus
    · exact h.unapproved q x hx

/-- **Overdue requests expire.** -/
theorem Amends.expire {w : Versions C RegistrationRequest} (now : ℕ)
    (rows : List (ℕ × RegistrationRequest)) (h : Amends c v w)
    (hrows : ∀ r ∈ rows, w.seen c r.1 = some r.2 ∧ r.2.overdue now = true ∧
      w.locked c r.1 = false)
    (hnodup : (rows.map Prod.fst).Nodup) :
    Amends c v (rows.foldl (fun v r => v.write c r.1 (some (r.2.expire now))) w) := by
  induction rows generalizing w with
  | nil => exact h
  | cons r rows ih =>
    rw [List.foldl_cons]
    obtain ⟨hseen, hoverdue, hfree⟩ := hrows r List.mem_cons_self
    obtain ⟨hpending, -⟩ := (Bool.and_eq_true _ _).mp hoverdue
    rw [List.map_cons, List.nodup_cons] at hnodup
    refine ih (h.write r.1 r.2 _ hseen (of_decide_eq_true hpending) hfree (.expired now)
      fun hs => nomatch hs) ?_ hnodup.2
    intro q hq
    obtain ⟨hseen', hoverdue', hfree'⟩ := hrows q (List.mem_cons_of_mem _ hq)
    have hne : q.1 ≠ r.1 := by
      intro heq
      exact hnodup.1 (heq ▸ List.mem_map.mpr ⟨q, hq, rfl⟩)
    have hbounds := w.seen_bounded c r.1 r.2 hseen
    refine ⟨?_, hoverdue', ?_⟩
    · rw [Versions.seen_write _ _ _ _ hbounds hfree, if_neg (fun hboth => hne hboth.2)]
      exact hseen'
    · rw [Versions.locked_eq_false] at hfree' ⊢
      intro p hp
      rw [Versions.pending_write _ _ _ _ hbounds, if_neg hne] at hp
      exact hfree' p hp

/-! ## Calls -/

/-- The clash that the unique columns of `User` forbid. -/
def SameAccount (a b : LoginUser) : Prop := sameAccount a b = true

theorem SameAccount.symm (a b : LoginUser) (h : SameAccount a b) : SameAccount b a := by
  simp only [SameAccount, sameAccount, Bool.or_eq_true, Bool.and_eq_true,
    decide_eq_true_eq] at h ⊢
  refine h.imp ?_ ?_
  · rintro ⟨hsome, heq⟩
    exact ⟨by rw [← heq]; exact hsome, heq.symm⟩
  · rintro ⟨hsome, heq⟩
    exact ⟨by rw [← heq]; exact hsome, heq.symm⟩

/-- What the phase of a call stands for. -/
def RegistrationStands (L : LoginConfig) (s : RegistrationState C) (c : C) :
    RegistrationPhase → Prop
  | .approving request _ now row => s.requests.committed.get? request = some row ∧
    s.requests.pending request = some ⟨c, some row⟩ ∧ now < row.expiresAt
  | .enrolled request _ now row user => s.requests.committed.get? request = some row ∧
    s.requests.pending request = some ⟨c, some row⟩ ∧ now < row.expiresAt ∧
    s.users.pending user = some ⟨c, some (accountOf L row)⟩
  | .closing call (.approved user) => ∃ request actor now row, call = .approve request actor ∧
    s.requests.committed.get? request = some row ∧
    s.requests.pending request = some ⟨c, some (row.approve actor now)⟩ ∧
    s.users.pending user = some ⟨c, some (accountOf L row)⟩ ∧
    ∃ pk, s.occupancies.pending pk = some ⟨c, some ⟨user, row.unit, true⟩⟩
  | .finished call (.approved user) => ∃ request actor now row, call = .approve request actor ∧
    s.requests.committed.get? request = some (row.approve actor now) ∧
    s.users.committed.get? user = some (accountOf L row) ∧
    ∃ pk, s.occupancies.committed.get? pk = some ⟨user, row.unit, true⟩
  | _ => True

/-- The phase of a call that makes no account. -/
def Plain : RegistrationPhase → Prop
  | .enrolled _ _ _ _ _ | .closing _ (.approved _) | .finished _ (.approved _) => False
  | _ => True

structure RegistrationInv (L : LoginConfig) (s : RegistrationState C) : Prop where
  requests : RequestInv s.requests
  users : Versions.InsertOnly s.users
  accounts : Versions.Unique SameAccount s.users
  occupancies : Versions.InsertOnly s.occupancies
  phases : ∀ c, RegistrationStands L s c (s.phase c)
  idle : ∀ c, s.phase c = .idle → ∀ pk p, s.requests.pending pk = some p → p.owner ≠ c
  approvers : ∀ pk c a, s.requests.pending pk = some ⟨c, some a⟩ → a.status = .approved →
    ∃ actor user, s.phase c = .closing (.approve pk actor) (.approved user)
  userOwners : ∀ pk p, s.users.pending pk = some p →
    (∃ request actor now row, s.phase p.owner = .enrolled request actor now row pk) ∨
      ∃ call, s.phase p.owner = .closing call (.approved pk)
  occupancyOwners : ∀ pk c a, s.occupancies.pending pk = some ⟨c, some a⟩ →
    ∃ call, s.phase c = .closing call (.approved a.user)
  occupants : ∀ pk a, s.occupancies.committed.get? pk = some a →
    ∃ u, s.users.committed.get? a.user = some u
  oneOccupancy : Versions.Unique (fun a b => a.user = b.user) s.occupancies
  approved : ∀ pk a, s.requests.committed.get? pk = some a → a.status = .approved →
    ∃ c actor user, s.phase c = .finished (.approve pk actor) (.approved user)
  single : ∀ c d request x y user other,
    s.phase c = .finished (.approve request x) (.approved user) →
    s.phase d = .finished (.approve request y) (.approved other) → c = d
  singleUser : ∀ c d call other user, s.phase c = .finished call (.approved user) →
    s.phase d = .finished other (.approved user) → c = d

variable {L : LoginConfig} {s t : RegistrationState C}

omit [DecidableEq C] in
/-- The phase of a call stands while the rows it speaks of do. -/
theorem RegistrationStands.carry {phase : RegistrationPhase}
    (h : RegistrationStands L s c phase)
    (hrequests : ∀ pk a, s.requests.committed.get? pk = some a →
      (a.status = .approved ∨ ∃ row, s.requests.pending pk = some ⟨c, row⟩) →
        t.requests.committed.get? pk = some a)
    (hpending : ∀ pk row, s.requests.pending pk = some ⟨c, row⟩ →
      t.requests.pending pk = some ⟨c, row⟩)
    (husers : ∀ pk u, s.users.committed.get? pk = some u → t.users.committed.get? pk = some u)
    (hmade : ∀ pk row, s.users.pending pk = some ⟨c, row⟩ → t.users.pending pk = some ⟨c, row⟩)
    (hoccupancies : ∀ pk a, s.occupancies.committed.get? pk = some a →
      t.occupancies.committed.get? pk = some a)
    (hmoved : ∀ pk row, s.occupancies.pending pk = some ⟨c, row⟩ →
      t.occupancies.pending pk = some ⟨c, row⟩) : RegistrationStands L t c phase := by
  cases phase with
  | idle => trivial
  | releasing submission contact => trivial
  | sweeping submission contact => trivial
  | comparing submission contact => trivial
  | inserting submission contact => trivial
  | approving request actor now row =>
    obtain ⟨hrow, hlocked, htime⟩ := h
    exact ⟨hrequests _ _ hrow (.inr ⟨_, hlocked⟩), hpending _ _ hlocked, htime⟩
  | enrolled request actor now row user =>
    obtain ⟨hrow, hlocked, htime, huser⟩ := h
    exact ⟨hrequests _ _ hrow (.inr ⟨_, hlocked⟩), hpending _ _ hlocked, htime, hmade _ _ huser⟩
  | closing call result =>
    cases result with
    | approved user =>
      obtain ⟨request, actor, now, row, hcall, hrow, hlocked, huser, pk, hpk⟩ := h
      exact ⟨request, actor, now, row, hcall, hrequests _ _ hrow (.inr ⟨_, hlocked⟩),
        hpending _ _ hlocked, hmade _ _ huser, pk, hmoved _ _ hpk⟩
    | _ => trivial
  | finished call result =>
    cases result with
    | approved user =>
      obtain ⟨request, actor, now, row, hcall, hrow, huser, pk, hpk⟩ := h
      exact ⟨request, actor, now, row, hcall, hrequests _ _ hrow (.inl rfl), husers _ _ huser, pk,
        hoccupancies _ _ hpk⟩
    | _ => trivial

/-- **A call moves on** and makes no account: it approves nothing, and what it had made it
drops. -/
theorem RegistrationInv.move (h : RegistrationInv L s) (c : C) (phase : RegistrationPhase)
    (hrequests : Amends c s.requests t.requests) (husers : Versions.Drops c s.users t.users)
    (hoccupancies : Versions.Drops c s.occupancies t.occupancies)
    (hphase : t.phase = Function.update s.phase c phase)
    (hbefore : ∀ call result, s.phase c ≠ .finished call result) (hidle : phase ≠ .idle)
    (hstands : RegistrationStands L t c phase) (hplain : Plain phase) : RegistrationInv L t := by
  have hself : t.phase c = phase := by rw [hphase, Function.update_self]
  have hother : ∀ d, d ≠ c → t.phase d = s.phase d := fun d hd => by
    rw [hphase, Function.update_of_ne hd]
  have hnot : ∀ d call user, t.phase d = .finished call (.approved user) → d ≠ c := by
    intro d call user hd hdc
    rw [hdc, hself] at hd
    rw [hd] at hplain
    exact hplain
  refine ⟨hrequests.inv, husers.insertOnly h.users, husers.unique h.accounts,
    hoccupancies.insertOnly h.occupancies, ?_, ?_, ?_, ?_, ?_, ?_,
    hoccupancies.unique h.oneOccupancy, ?_, ?_, ?_⟩
  · intro d
    by_cases hd : d = c
    · subst hd
      rw [hself]
      exact hstands
    · rw [hother d hd]
      refine (h.phases d).carry (fun pk a ha _ => (hrequests.committed pk).trans ha)
        (fun pk row hrow => (hrequests.others pk _ hd).mpr hrow) (fun pk u hu => ?_)
        (fun pk row hrow => (husers.pending pk _).mpr ⟨hrow, hd⟩) (fun pk a ha => ?_)
        fun pk row hrow => (hoccupancies.pending pk _).mpr ⟨hrow, hd⟩
      · rw [husers.committed]
        exact hu
      · rw [hoccupancies.committed]
        exact ha
  · intro d hd pk p hp hpd
    have hdc : d ≠ c := fun hdc => hidle (hself.symm.trans (hdc ▸ hd))
    have hbefore' := (hrequests.others pk p (hpd ▸ hdc)).mp hp
    exact h.idle d ((hother d hdc).symm.trans hd) pk p hbefore' hpd
  · intro pk d a ha hstatus
    by_cases hd : d = c
    · subst hd
      exact absurd hstatus (hrequests.unapproved pk a ha)
    · rw [hother d hd]
      exact h.approvers pk d a ((hrequests.others pk _ hd).mp ha) hstatus
  · intro pk p hp
    obtain ⟨hp, hne⟩ := (husers.pending pk p).mp hp
    rw [hother p.owner hne]
    exact h.userOwners pk p hp
  · intro pk d a ha
    obtain ⟨ha, hne⟩ := (hoccupancies.pending pk _).mp ha
    rw [hother d hne]
    exact h.occupancyOwners pk d a ha
  · rw [husers.committed, hoccupancies.committed]
    exact h.occupants
  · intro pk a ha hstatus
    obtain ⟨d, actor, user, hd⟩ := h.approved pk a ((hrequests.committed pk).symm.trans ha) hstatus
    have hne : d ≠ c := fun hdc => hbefore _ _ (hdc ▸ hd)
    exact ⟨d, actor, user, (hother d hne).trans hd⟩
  · intro d e request x y user other hd he
    exact h.single d e request x y user other ((hother d (hnot d _ _ hd)).symm.trans hd)
      ((hother e (hnot e _ _ he)).symm.trans he)
  · intro d e call other user hd he
    exact h.singleUser d e call other user ((hother d (hnot d _ _ hd)).symm.trans hd)
      ((hother e (hnot e _ _ he)).symm.trans he)

omit [DecidableEq C] in
/-- A call that has made no account owns none. -/
theorem RegistrationInv.drops_same (h : RegistrationInv L s) (c : C)
    (hplain : Plain (s.phase c)) :
    Versions.Drops c s.users s.users ∧ Versions.Drops c s.occupancies s.occupancies := by
  constructor
  · refine Versions.drops_self fun pk p hp hc => ?_
    rcases h.userOwners pk p hp with ⟨request, actor, now, row, hphase⟩ | ⟨call, hphase⟩
    · rw [← hc, hphase] at hplain
      exact hplain
    · rw [← hc, hphase] at hplain
      exact hplain
  · refine Versions.drops_self fun pk p hp hc => ?_
    obtain ⟨a, ha⟩ := h.occupancies.kept pk p hp
    obtain ⟨owner, row⟩ := p
    change row = some a at ha
    subst ha
    obtain ⟨call, hphase⟩ := h.occupancyOwners pk owner a hp
    rw [← show owner = c from hc, hphase] at hplain
    exact hplain

omit [DecidableEq C] in
/-- A call that approves nothing has no approved request. -/
theorem RegistrationInv.amends_same (h : RegistrationInv L s) (c : C)
    (hplain : Plain (s.phase c)) : Amends c s.requests s.requests := by
  refine .refl h.requests fun pk a ha hstatus => ?_
  obtain ⟨actor, user, hphase⟩ := h.approvers pk c a ha hstatus
  rw [hphase] at hplain
  exact hplain

/-- **A call amends requests** and moves on. -/
theorem RegistrationInv.amend (h : RegistrationInv L s) (c : C) (phase : RegistrationPhase)
    (requests : Versions C RegistrationRequest) (hrequests : Amends c s.requests requests)
    (hbefore : ∀ call result, s.phase c ≠ .finished call result) (hplain : Plain (s.phase c))
    (hidle : phase ≠ .idle)
    (hstands : RegistrationStands L ({ s with requests := requests }.setPhase c phase) c phase)
    (hafter : Plain phase) :
    RegistrationInv L ({ s with requests := requests }.setPhase c phase) :=
  h.move c phase hrequests (h.drops_same c hplain).1 (h.drops_same c hplain).2 rfl hbefore hidle
    hstands hafter

/-- **A call raises.** -/
theorem RegistrationInv.raise (h : RegistrationInv L s) (c : C) (call : RegistrationCall)
    (result : RegistrationResult) (hbefore : ∀ call result, s.phase c ≠ .finished call result)
    (hresult : ∀ user, result ≠ .approved user) : RegistrationInv L (s.raise c call result) := by
  refine h.move c _ (.rollback h.requests) (Versions.drops_rollback s.users c)
    (Versions.drops_rollback s.occupancies c) rfl hbefore (fun heq => nomatch heq) ?_ ?_
  · cases result with
    | approved user => exact absurd rfl (hresult user)
    | _ => trivial
  · cases result with
    | approved user => exact absurd rfl (hresult user)
    | _ => trivial

/-! ## An approval -/

/-- **The account is made.** -/
theorem RegistrationInv.insertUser (h : RegistrationInv L s) (c : C) (request actor now : ℕ)
    (row : RegistrationRequest) (hphase : s.phase c = .approving request actor now row)
    (hawaits : s.users.awaits c (sameAccount (accountOf L row)) = false)
    (hview : (s.users.view c).any (sameAccount (accountOf L row)) = false) :
    RegistrationInv L ({ s with users := s.users.insert c (accountOf L row) }.setPhase c
      (.enrolled request actor now row s.users.committed.next)) := by
  have hstands : RegistrationStands L s c (.approving request actor now row) := by
    have := h.phases c
    rwa [hphase] at this
  have hself := Function.update_self c
    (RegistrationPhase.enrolled request actor now row s.users.committed.next) s.phase
  have hother : ∀ d, d ≠ c → Function.update s.phase c
      (RegistrationPhase.enrolled request actor now row s.users.committed.next) d = s.phase d :=
    fun d hd => Function.update_of_ne hd _ _
  have hne : ∀ d phase, s.phase d = phase → phase ≠ .approving request actor now row → d ≠ c := by
    rintro d phase hd hneq rfl
    exact hneq (hd.symm.trans hphase)
  have hnot : ∀ d call user, Function.update s.phase c
      (RegistrationPhase.enrolled request actor now row s.users.committed.next) d =
        .finished call (.approved user) → d ≠ c := by
    intro d call user hd hdc
    rw [hdc, hself] at hd
    cases hd
  refine ⟨h.requests, h.users.insert _, ?_, h.occupancies, ?_, ?_, ?_, ?_, ?_, h.occupants,
    h.oneOccupancy, ?_, ?_, ?_⟩
  · refine h.accounts.insert SameAccount.symm _ fun pk b hb hsame => ?_
    have hno := h.users.not_stored _ hawaits hview pk b hb
    exact nomatch hno.symm.trans hsame
  · intro d
    by_cases hd : d = c
    · subst hd
      show RegistrationStands L _ d (Function.update s.phase d _ d)
      rw [hself]
      exact ⟨hstands.1, hstands.2.1, hstands.2.2,
        (s.users.pending_insert d _ _).trans (if_pos rfl)⟩
    · show RegistrationStands L _ d (Function.update s.phase c _ d)
      rw [hother d hd]
      exact (h.phases d).carry (fun _ _ ha _ => ha) (fun _ _ hrow => hrow) (fun _ _ hu => hu)
        (fun pk p hp => (s.users.pending_insert_other c _ pk ⟨d, p⟩ hd).mpr hp) (fun _ _ ha => ha)
        fun _ _ hp => hp
  · intro d hd
    have hdc : d ≠ c := by
      rintro rfl
      exact nomatch hself.symm.trans hd
    exact h.idle d ((hother d hdc).symm.trans hd)
  · intro pk d a ha hstatus
    obtain ⟨x, user, hd⟩ := h.approvers pk d a ha hstatus
    exact ⟨x, user, (hother d (hne d _ hd fun heq => nomatch heq)).trans hd⟩
  · intro pk p hp
    change (s.users.insert c _).pending pk = some p at hp
    rw [Versions.pending_insert] at hp
    split at hp
    · next hpk =>
      cases hp
      exact .inl ⟨request, actor, now, row, by rw [hpk]; exact hself⟩
    · rcases h.userOwners pk p hp with ⟨r, x, y, z, hd⟩ | ⟨call, hd⟩
      · exact .inl ⟨r, x, y, z, (hother _ (hne _ _ hd fun heq => nomatch heq)).trans hd⟩
      · exact .inr ⟨call, (hother _ (hne _ _ hd fun heq => nomatch heq)).trans hd⟩
  · intro pk d a ha
    obtain ⟨call, hd⟩ := h.occupancyOwners pk d a ha
    exact ⟨call, (hother d (hne d _ hd fun heq => nomatch heq)).trans hd⟩
  · intro pk a ha hstatus
    obtain ⟨d, x, user, hd⟩ := h.approved pk a ha hstatus
    exact ⟨d, x, user, (hother d (hne d _ hd fun heq => nomatch heq)).trans hd⟩
  · intro d e r x y user other hd he
    exact h.single d e r x y user other ((hother d (hnot d _ _ hd)).symm.trans hd)
      ((hother e (hnot e _ _ he)).symm.trans he)
  · intro d e call other user hd he
    exact h.singleUser d e call other user ((hother d (hnot d _ _ hd)).symm.trans hd)
      ((hother e (hnot e _ _ he)).symm.trans he)

omit [DecidableEq C] in
/-- No occupancy is stored for an account that is about to be made. -/
theorem RegistrationInv.unoccupied (h : RegistrationInv L s) (c : C) (user : ℕ)
    (account : LoginUser) (hphase : ∀ call, s.phase c ≠ .closing call (.approved user))
    (huser : s.users.pending user = some ⟨c, some account⟩) (pk : ℕ) (a : UnitOccupancy)
    (hstored : s.occupancies.Stored pk a) : user ≠ a.user := by
  rintro rfl
  rcases hstored with hcommitted | ⟨d, hpending⟩
  · obtain ⟨u, hu⟩ := h.occupants pk a hcommitted
    rw [h.users.fresh _ _ huser] at hu
    cases hu
  · obtain ⟨call, hd⟩ := h.occupancyOwners pk d a hpending
    have hstands := h.phases d
    rw [hd] at hstands
    obtain ⟨_, _, _, _, -, -, -, hown, -⟩ := hstands
    cases huser.symm.trans hown
    exact hphase call hd

/-- **The occupancy and the decision are written.** -/
theorem RegistrationInv.settle (h : RegistrationInv L s) (c : C) (request actor now : ℕ)
    (row : RegistrationRequest) (user : ℕ)
    (hphase : s.phase c = .enrolled request actor now row user) :
    RegistrationInv L (s.settle c request actor now row user) := by
  obtain ⟨hrow, hlocked, htime, huser⟩ : RegistrationStands L s c
      (.enrolled request actor now row user) := by
    have := h.phases c
    rwa [hphase] at this
  have hseen := s.requests.seen_own c request _ hlocked
  have hfree : s.requests.locked c request = false := by
    rw [Versions.locked_eq_false]
    intro p hp
    cases hlocked.symm.trans hp
    rfl
  have hpending : row.status = .pending := by
    obtain ⟨a, -, -, hbefore⟩ := h.requests.rewritten request _ hlocked
    exact (hbefore row hrow).1
  have hwritten := s.requests.pending_write c request (some (row.approve actor now))
    (s.requests.seen_bounded c request row hseen)
  have hothers := s.requests.pending_write_other c request (some (row.approve actor now)) hfree
  let phase := RegistrationPhase.closing (.approve request actor) (.approved user)
  have hself : Function.update s.phase c phase c = phase := Function.update_self _ _ _
  have hother : ∀ d, d ≠ c → Function.update s.phase c phase d = s.phase d :=
    fun d hd => Function.update_of_ne hd _ _
  have hne : ∀ d other, s.phase d = other → other ≠ .enrolled request actor now row user →
      d ≠ c := by
    rintro d other hd hneq rfl
    exact hneq (hd.symm.trans hphase)
  have hnot : ∀ d call v, Function.update s.phase c phase d = .finished call (.approved v) →
      d ≠ c := by
    intro d call v hd hdc
    rw [hdc, hself] at hd
    exact nomatch (show RegistrationPhase.closing _ _ = _ from hd)
  refine ⟨?_, h.users, h.accounts, h.occupancies.insert _, ?_, ?_, ?_, ?_, ?_, h.occupants, ?_,
    ?_, ?_, ?_⟩
  · exact h.requests.write request row _ hseen hpending hfree (.approved actor now htime)
  · intro d
    by_cases hd : d = c
    · subst hd
      show RegistrationStands L _ d (Function.update s.phase d _ d)
      rw [hself]
      refine ⟨request, actor, now, row, rfl, ?_, (hwritten request).trans (if_pos rfl), huser,
        s.occupancies.committed.next, (s.occupancies.pending_insert d _ _).trans (if_pos rfl)⟩
      exact (s.requests.get?_write_committed d request _ request).trans hrow
    · show RegistrationStands L _ d (Function.update s.phase c _ d)
      rw [hother d hd]
      exact (h.phases d).carry
        (fun pk a ha _ => (s.requests.get?_write_committed c request _ pk).trans ha)
        (fun pk x hx => (hothers pk _ hd).mpr hx) (fun _ _ hu => hu) (fun _ _ hp => hp)
        (fun _ _ ha => ha)
        fun pk p hp => (s.occupancies.pending_insert_other c _ pk ⟨d, p⟩ hd).mpr hp
  · intro d hd pk p hp hpd
    have hdc : d ≠ c := by
      rintro rfl
      exact nomatch (show RegistrationPhase.closing _ _ = _ from hself.symm.trans hd)
    exact h.idle d ((hother d hdc).symm.trans hd) pk p ((hothers pk p (hpd ▸ hdc)).mp hp) hpd
  · intro pk d a ha hstatus
    change (s.requests.write c request _).pending pk = some _ at ha
    rw [hwritten] at ha
    split at ha
    · next hpk =>
      cases ha
      exact ⟨actor, user, by rw [hpk]; exact hself⟩
    · obtain ⟨x, v, hd⟩ := h.approvers pk d a ha hstatus
      exact ⟨x, v, (hother d (hne d _ hd fun heq => nomatch heq)).trans hd⟩
  · intro pk p hp
    rcases h.userOwners pk p hp with ⟨r, x, y, z, hd⟩ | ⟨call, hd⟩
    · by_cases hpc : p.owner = c
      · rw [hpc, hphase] at hd
        cases hd
        exact .inr ⟨.approve request actor, by rw [hpc]; exact hself⟩
      · exact .inl ⟨r, x, y, z, (hother _ hpc).trans hd⟩
    · exact .inr ⟨call, (hother _ (hne _ _ hd fun heq => nomatch heq)).trans hd⟩
  · intro pk d a ha
    change (s.occupancies.insert c _).pending pk = some _ at ha
    rw [Versions.pending_insert] at ha
    split at ha
    · cases ha
      exact ⟨_, hself⟩
    · obtain ⟨call, hd⟩ := h.occupancyOwners pk d a ha
      exact ⟨call, (hother d (hne d _ hd fun heq => nomatch heq)).trans hd⟩
  · exact h.oneOccupancy.insert (fun _ _ heq => heq.symm) _ fun pk b hb =>
      h.unoccupied c user _ (fun call hcall => nomatch hphase.symm.trans hcall) huser pk b hb
  · intro pk a ha hstatus
    have hbefore := (s.requests.get?_write_committed c request _ pk).symm.trans ha
    obtain ⟨d, x, v, hd⟩ := h.approved pk a hbefore hstatus
    exact ⟨d, x, v, (hother d (hne d _ hd fun heq => nomatch heq)).trans hd⟩
  · intro d e r x y v other hd he
    exact h.single d e r x y v other ((hother d (hnot d _ _ hd)).symm.trans hd)
      ((hother e (hnot e _ _ he)).symm.trans he)
  · intro d e call other v hd he
    exact h.singleUser d e call other v ((hother d (hnot d _ _ hd)).symm.trans hd)
      ((hother e (hnot e _ _ he)).symm.trans he)

/-! ## The commit -/

omit [DecidableEq C] in
/-- A request that is approved is held by nobody. -/
theorem RegistrationInv.approved_free (h : RegistrationInv L s) (pk : ℕ)
    (a : RegistrationRequest) (ha : s.requests.committed.get? pk = some a)
    (hstatus : a.status = .approved) : s.requests.pending pk = none := by
  cases hp : s.requests.pending pk with
  | none => rfl
  | some p =>
    obtain ⟨x, -, -, hbefore⟩ := h.requests.rewritten pk p hp
    rw [(hbefore a ha).1] at hstatus
    cases hstatus

/-- What others rely on is there after a commit. -/
theorem RegistrationInv.kept (h : RegistrationInv L s) (c d : C) (hd : d ≠ c) (pk : ℕ)
    (a : RegistrationRequest) (ha : s.requests.committed.get? pk = some a)
    (hheld : a.status = .approved ∨ ∃ row, s.requests.pending pk = some ⟨d, row⟩) :
    (s.requests.commit c).committed.get? pk = some a := by
  rw [Versions.get?_commit]
  rcases hheld with hstatus | ⟨row, hrow⟩
  · rw [s.requests.seen_of_none c pk (h.approved_free pk a ha hstatus)]
    exact ha
  · rw [s.requests.seen_other c pk _ hrow hd]
    exact ha

/-- **A call commits.** -/
theorem RegistrationInv.commit (h : RegistrationInv L s) (c : C) (call : RegistrationCall)
    (result : RegistrationResult) (hphase : s.phase c = .closing call result) :
    RegistrationInv L ((s.commit c).setPhase c (.finished call result)) := by
  have hstands : RegistrationStands L s c (.closing call result) := by
    have := h.phases c
    rwa [hphase] at this
  have hself := Function.update_self c (RegistrationPhase.finished call result) s.phase
  have hother : ∀ d, d ≠ c →
      Function.update s.phase c (RegistrationPhase.finished call result) d = s.phase d :=
    fun d hd => Function.update_of_ne hd _ _
  have hne : ∀ d phase, s.phase d = phase → phase ≠ .closing call result → d ≠ c := by
    rintro d phase hd hneq rfl
    exact hneq (hd.symm.trans hphase)
  have husers : ∀ pk u, s.users.committed.get? pk = some u →
      (s.users.commit c).committed.get? pk = some u :=
    fun pk u hu => (h.users.get?_commit pk u).mpr (.inl hu)
  have hoccupancies : ∀ pk a, s.occupancies.committed.get? pk = some a →
      (s.occupancies.commit c).committed.get? pk = some a :=
    fun pk a ha => (h.occupancies.get?_commit pk a).mpr (.inl ha)
  -- No other call has finished with the account or the request of this one.
  have hfresh : ∀ user, result = .approved user → ∀ d other,
      s.phase d ≠ .finished other (.approved user) := by
    rintro user rfl d other hd
    obtain ⟨_, _, _, _, -, -, -, huser, -⟩ := hstands
    have hdone := h.phases d
    rw [hd] at hdone
    obtain ⟨_, _, _, _, -, -, hthere, -⟩ := hdone
    exact nomatch (h.users.fresh _ _ huser).symm.trans hthere
  have hundecided : ∀ request actor user, call = .approve request actor →
      result = .approved user → ∀ d other v,
        s.phase d ≠ .finished (.approve request other) (.approved v) := by
    rintro request actor user hcall rfl d other v hd
    obtain ⟨r, x, y, z, hcall', -, hlocked, -⟩ := hstands
    cases hcall.symm.trans hcall'
    have hdone := h.phases d
    rw [hd] at hdone
    obtain ⟨_, _, _, _, hcall'', hrow, -⟩ := hdone
    cases hcall''
    exact nomatch (h.approved_free request _ hrow rfl).symm.trans hlocked
  refine ⟨h.requests.commit, h.users.commit, ?_, h.occupancies.commit, ?_, ?_, ?_, ?_, ?_, ?_, ?_,
    ?_, ?_, ?_⟩
  · exact Versions.unique_of_stored h.accounts h.users.stored_commit
  · intro d
    by_cases hd : d = c
    · subst hd
      show RegistrationStands L _ d (Function.update s.phase d _ d)
      rw [hself]
      cases result with
      | approved user =>
        obtain ⟨request, actor, now, row, hcall, hrow, hlocked, huser, pk, hpk⟩ := hstands
        refine ⟨request, actor, now, row, hcall, ?_, (h.users.get?_commit user _).mpr (.inr huser),
          pk, (h.occupancies.get?_commit pk _).mpr (.inr hpk)⟩
        exact (s.requests.get?_commit d request).trans (s.requests.seen_own d request _ hlocked)
      | _ => trivial
    · show RegistrationStands L _ d (Function.update s.phase c _ d)
      rw [hother d hd]
      exact (h.phases d).carry (h.kept c d hd)
        (fun pk row hrow => (s.requests.pending_commit c pk _).mpr ⟨hrow, hd⟩) husers
        (fun pk row hrow => (s.users.pending_commit c pk _).mpr ⟨hrow, hd⟩) hoccupancies
        fun pk row hrow => (s.occupancies.pending_commit c pk _).mpr ⟨hrow, hd⟩
  · intro d hd pk p hp
    have hdc : d ≠ c := by
      rintro rfl
      exact nomatch hself.symm.trans hd
    exact h.idle d ((hother d hdc).symm.trans hd) pk p ((s.requests.pending_commit c pk _).mp hp).1
  · intro pk d a ha hstatus
    obtain ⟨ha, hd⟩ := (s.requests.pending_commit c pk _).mp ha
    obtain ⟨actor, user, hclosing⟩ := h.approvers pk d a ha hstatus
    exact ⟨actor, user, (hother d hd).trans hclosing⟩
  · intro pk p hp
    obtain ⟨hp, hd⟩ := (s.users.pending_commit c pk _).mp hp
    rcases h.userOwners pk p hp with ⟨r, x, y, z, hown⟩ | ⟨other, hown⟩
    · exact .inl ⟨r, x, y, z, (hother _ hd).trans hown⟩
    · exact .inr ⟨other, (hother _ hd).trans hown⟩
  · intro pk d a ha
    obtain ⟨ha, hd⟩ := (s.occupancies.pending_commit c pk _).mp ha
    obtain ⟨other, hown⟩ := h.occupancyOwners pk d a ha
    exact ⟨other, (hother d hd).trans hown⟩
  · intro pk a ha
    rcases (h.occupancies.get?_commit pk a).mp ha with hbefore | hown
    · obtain ⟨u, hu⟩ := h.occupants pk a hbefore
      exact ⟨u, husers _ _ hu⟩
    · obtain ⟨other, hclosing⟩ := h.occupancyOwners pk c a hown
      cases hphase.symm.trans hclosing
      obtain ⟨_, _, _, row, -, -, -, huser, -⟩ := hstands
      exact ⟨_, (h.users.get?_commit _ _).mpr (.inr huser)⟩
  · exact Versions.unique_of_stored h.oneOccupancy h.occupancies.stored_commit
  · intro pk a ha hstatus
    change (s.requests.commit c).committed.get? pk = some a at ha
    rw [Versions.get?_commit] at ha
    rcases s.requests.seen_cases c pk with ⟨row, hrow, hseen⟩ | ⟨-, hseen⟩
    · rw [hseen] at ha
      subst ha
      obtain ⟨actor, user, hclosing⟩ := h.approvers pk c a hrow hstatus
      cases hphase.symm.trans hclosing
      exact ⟨c, actor, user, hself⟩
    · obtain ⟨d, actor, user, hd⟩ := h.approved pk a (hseen.symm.trans ha) hstatus
      exact ⟨d, actor, user, (hother d (hne d _ hd fun heq => nomatch heq)).trans hd⟩
  · intro d e request x y user other hd he
    by_cases hdc : d = c
    · by_cases hec : e = c
      · rw [hdc, hec]
      · rw [hdc] at hd
        cases hself.symm.trans hd
        exact absurd ((hother e hec).symm.trans he) (hundecided request x user rfl rfl e y other)
    · by_cases hec : e = c
      · rw [hec] at he
        cases hself.symm.trans he
        exact absurd ((hother d hdc).symm.trans hd) (hundecided request y other rfl rfl d x user)
      · exact h.single d e request x y user other ((hother d hdc).symm.trans hd)
          ((hother e hec).symm.trans he)
  · intro d e x y user hd he
    by_cases hdc : d = c
    · by_cases hec : e = c
      · rw [hdc, hec]
      · rw [hdc] at hd
        cases hself.symm.trans hd
        exact absurd ((hother e hec).symm.trans he) (hfresh user rfl e y)
    · by_cases hec : e = c
      · rw [hec] at he
        cases hself.symm.trans he
        exact absurd ((hother d hdc).symm.trans hd) (hfresh user rfl d x)
      · exact h.singleUser d e x y user ((hother d hdc).symm.trans hd)
          ((hother e hec).symm.trans he)

/-! ## Every step -/

/-- The rows that a call may expire: it sees them, they are overdue, and nobody else holds them. -/
structure Expirable (s : RegistrationState C) (c : C) (now : ℕ)
    (requests : List (ℕ × RegistrationRequest)) : Prop where
  rows : ∀ r ∈ requests, s.requests.seen c r.1 = some r.2 ∧ r.2.overdue now = true ∧
    s.requests.locked c r.1 = false
  nodup : (requests.map Prod.fst).Nodup

theorem expirable_expirable (s : RegistrationState C) (c : C) (now limit : ℕ) :
    Expirable s c now (s.expirable c now limit) where
  rows := by
    intro r hr
    have hsorted := List.mem_mergeSort.mp (List.mem_of_mem_take hr)
    obtain ⟨hrow, hboth⟩ := List.mem_filter.mp hsorted
    obtain ⟨hoverdue, hfree⟩ := (Bool.and_eq_true _ _).mp hboth
    refine ⟨?_, hoverdue, by simpa using hfree⟩
    rw [← Versions.get?_view]
    exact (Table.get?_eq_some _ r.1 r.2).mpr hrow
  nodup := by
    have hkeys := (s.requests.view c).keys_nodup
    have hfilter := hkeys.sublist ((List.filter_sublist (p := fun r =>
      r.2.overdue now && !s.requests.locked c r.1)).map Prod.fst)
    have hsorted := ((List.mergeSort_perm _ fun a b : ℕ × RegistrationRequest =>
      decide (a.2.expiresAt ≤ b.2.expiresAt)).map Prod.fst).nodup_iff.mpr hfilter
    exact hsorted.sublist ((List.take_sublist _ _).map Prod.fst)

theorem expirable_stale (s : RegistrationState C) (c : C) (contact : Contact)
    (hfree : ((s.stale c contact).any fun r => s.requests.locked c r.1) = false) :
    Expirable s c s.now (s.stale c contact) where
  rows := by
    intro r hr
    obtain ⟨hrow, hboth⟩ := List.mem_filter.mp hr
    refine ⟨?_, ((Bool.and_eq_true _ _).mp hboth).1, ?_⟩
    · rw [← Versions.get?_view]
      exact (Table.get?_eq_some _ r.1 r.2).mpr hrow
    · rw [List.any_eq_false] at hfree
      simpa using hfree r hr
  nodup := (s.requests.view c).keys_nodup.sublist (List.filter_sublist.map Prod.fst)

/-- **Requests expire**, and the call moves on. -/
theorem RegistrationInv.expire (h : RegistrationInv L s) (c : C) (now : ℕ)
    (rows : List (ℕ × RegistrationRequest)) (phase : RegistrationPhase)
    (hrows : Expirable s c now rows)
    (hbefore : ∀ call result, s.phase c ≠ .finished call result) (hplain : Plain (s.phase c))
    (hidle : phase ≠ .idle)
    (hstands : ∀ requests, RegistrationStands L
      ({ s with requests := requests }.setPhase c phase) c phase) (hafter : Plain phase) :
    RegistrationInv L ((s.expireRequests c now rows).setPhase c phase) :=
  h.amend c phase _ ((h.amends_same c hplain).expire now rows hrows.rows hrows.nodup) hbefore
    hplain hidle (hstands _) hafter

/-- A call that begins sees a request as it is committed. -/
theorem RegistrationInv.seen_committed (h : RegistrationInv L s) (c : C)
    (hphase : s.phase c = .idle) (pk : ℕ) (row : RegistrationRequest)
    (hrow : s.requests.committed.get? pk = some row) : s.requests.seen c pk = some row := by
  rcases s.requests.seen_cases c pk with ⟨x, hx, -⟩ | ⟨-, hseen⟩
  · exact absurd rfl (h.idle c hphase pk _ hx)
  · exact hseen.trans hrow

/-- **A decision** raises, lets the request expire, or holds it. -/
theorem RegistrationInv.decideOn (h : RegistrationInv L s) (c : C) (call : RegistrationCall)
    (request actor : ℕ) (decision : RegistrationRequest → RegistrationState C)
    (hphase : s.phase c = .idle) (hstep : s.decideOn c call request actor decision = some t)
    (hdecision : ∀ row, s.requests.committed.get? request = some row →
      s.requests.seen c request = some row → row.status = .pending → s.now < row.expiresAt →
      s.requests.locked c request = false → RegistrationInv L (decision row)) :
    RegistrationInv L t := by
  have hbefore : ∀ call result, s.phase c ≠ .finished call result := fun _ _ heq =>
    by cases hphase.symm.trans heq
  unfold RegistrationState.decideOn at hstep
  split at hstep
  · cases hstep
    exact h.raise c call _ hbefore fun _ heq => by cases heq
  · next row hrow =>
    have hseen := h.seen_committed c hphase request row hrow
    split at hstep
    · cases hstep
    · next hlocked =>
      have hfree := Bool.eq_false_of_not_eq_true hlocked
      split at hstep
      · cases hstep
        exact h.raise c call _ hbefore fun _ heq => by cases heq
      · split at hstep
        · cases hstep
          exact h.raise c call _ hbefore fun _ heq => by cases heq
        · next hstatus =>
          have hpending : row.status = .pending := not_not.mp hstatus
          split at hstep
          · next htime =>
            cases hstep
            refine h.expire c s.now _ _ ⟨?_, List.nodup_singleton _⟩ hbefore
              (by rw [hphase]; trivial) (fun heq => by cases heq) (fun _ => trivial) trivial
            intro r hr
            obtain rfl := List.mem_singleton.mp hr
            exact ⟨hseen, by simp [RegistrationRequest.overdue, hpending, htime], hfree⟩
          · next htime =>
            cases hstep
            exact hdecision row hrow hseen hpending (Nat.lt_of_not_le htime) hfree

/-- **A call begins.** -/
theorem RegistrationInv.begin (R : RegistrationConfig)
    (h : RegistrationInv R.toLoginConfig s) (c : C) (call : RegistrationCall)
    (hstep : s.begin R c call = some t) : RegistrationInv R.toLoginConfig t := by
  unfold RegistrationState.begin at hstep
  split at hstep
  · next hphase =>
    have hbefore : ∀ call result, s.phase c ≠ .finished call result := fun _ _ heq =>
      by cases hphase.symm.trans heq
    have hplain : Plain (s.phase c) := by
      rw [hphase]
      trivial
    cases call with
    | submit submission =>
      cases hstep
      unfold RegistrationState.beginSubmit
      split
      · exact h.raise c _ _ hbefore fun _ heq => by cases heq
      · split
        · exact h.amend c _ s.requests (h.amends_same c hplain) hbefore hplain
            (fun heq => by cases heq) trivial trivial
        · exact h.raise c _ _ hbefore fun _ heq => by cases heq
    | expire limit now =>
      cases hstep
      exact h.expire c _ _ _ (expirable_expirable s c _ limit) hbefore hplain
        (fun heq => by cases heq) (fun _ => trivial) trivial
    | status token =>
      simp only [RegistrationState.beginStatus] at hstep
      split at hstep
      · cases hstep
        exact h.raise c _ _ hbefore fun _ heq => by cases heq
      · next pk row hfirst =>
        obtain ⟨hrow, -⟩ := Table.first?_eq_some _ _ pk row hfirst
        split at hstep
        · cases hstep
        · next hlocked =>
          split at hstep
          · next hoverdue =>
            cases hstep
            refine h.expire c s.now _ _ ⟨?_, List.nodup_singleton _⟩ hbefore hplain
              (fun heq => by cases heq) (fun _ => trivial) trivial
            intro r hr
            obtain rfl := List.mem_singleton.mp hr
            exact ⟨h.seen_committed c hphase pk row hrow, hoverdue,
              Bool.eq_false_of_not_eq_true hlocked⟩
          · cases hstep
            exact h.amend c _ s.requests (h.amends_same c hplain) hbefore hplain
              (fun heq => by cases heq) trivial trivial
    | approve request actor =>
      refine h.decideOn c _ request actor _ hphase hstep ?_
      intro row hrow hseen hpending htime hfree
      have hwrite := (h.amends_same c hplain).write request row row hseen hpending hfree .same
        fun heq => by cases hpending.symm.trans heq
      refine h.amend c _ _ hwrite hbefore hplain (fun heq => by cases heq) ?_ trivial
      refine ⟨(hwrite.committed request).trans hrow, ?_, htime⟩
      exact (s.requests.pending_write c request (some row)
        (s.requests.seen_bounded c request row hseen) request).trans (if_pos rfl)
    | reject request actor reason =>
      simp only [RegistrationState.beginReject] at hstep
      split at hstep
      · cases hstep
        exact h.raise c _ _ hbefore fun _ heq => by cases heq
      · refine h.decideOn c _ request actor _ hphase hstep ?_
        intro row hrow hseen hpending htime hfree
        exact h.amend c _ _ ((h.amends_same c hplain).write request row _ hseen hpending hfree
          (.rejected actor s.now _ htime) fun heq => by cases heq) hbefore hplain
          (fun heq => by cases heq) trivial trivial
  · cases hstep

theorem requestSound_submittedRow (R : RegistrationConfig) (submission : Submission)
    (contact : Contact) (salt token : Text) (now : ℕ) :
    RequestSound (submittedRow R submission contact salt token now) where
  hash := iff_of_true (R.makePassword_ne salt submission.password) rfl
  inTime := by
    rintro (hstatus | hstatus) <;> cases hstatus

/-- **A request is inserted**, or refused. -/
theorem RegistrationInv.insertRequest (R : RegistrationConfig)
    (h : RegistrationInv R.toLoginConfig s) (c : C) (submission : Submission) (contact : Contact)
    (salt token : Text) (hphase : s.phase c = .inserting submission contact)
    (hstep : s.insertRequest R c submission contact salt token = some t) :
    RegistrationInv R.toLoginConfig t := by
  have hbefore : ∀ call result, s.phase c ≠ .finished call result := fun _ _ heq =>
    by cases hphase.symm.trans heq
  have hplain : Plain (s.phase c) := by
    rw [hphase]
    trivial
  simp only [RegistrationState.insertRequest] at hstep
  split at hstep
  · cases hstep
    exact h.raise c _ _ hbefore fun _ heq => by cases heq
  · split at hstep
    · cases hstep
    · next hawaits =>
      rw [Bool.or_eq_true, not_or] at hawaits
      split at hstep
      · cases hstep
        exact h.raise c _ _ hbefore fun _ heq => by cases heq
      · split at hstep
        · cases hstep
          exact h.raise c _ _ hbefore fun _ heq => by cases heq
        · next hview =>
          cases hstep
          have hinsert := h.requests.insert _
            (requestSound_submittedRow R submission contact salt token s.now)
            (Bool.eq_false_of_not_eq_true hawaits.2) (Bool.eq_false_of_not_eq_true hview)
          refine h.amend c _ _ ⟨hinsert, fun _ => rfl, fun pk p hp =>
            s.requests.pending_insert_other c _ pk p hp, ?_⟩ hbefore hplain
            (fun heq => by cases heq) trivial trivial
          intro pk a ha
          rw [Versions.pending_insert] at ha
          split at ha
          · cases ha
            exact fun heq => by cases heq
          · exact (h.amends_same c hplain).unapproved pk a ha

/-- **A call goes on.** -/
theorem RegistrationInv.next (R : RegistrationConfig) (h : RegistrationInv R.toLoginConfig s)
    (c : C) (salt token : Text) (hstep : s.next R c salt token = some t) :
    RegistrationInv R.toLoginConfig t := by
  unfold RegistrationState.next at hstep
  split at hstep
  · cases hstep
  · cases hstep
  · next submission contact hphase =>
    simp only [RegistrationState.releaseStale] at hstep
    split at hstep
    · cases hstep
    · next hfree =>
      cases hstep
      exact h.expire c s.now _ _ (expirable_stale s c contact (Bool.eq_false_of_not_eq_true hfree))
        (fun _ _ heq => by cases hphase.symm.trans heq) (by rw [hphase]; trivial)
        (fun heq => by cases heq) (fun _ => trivial) trivial
  · next submission contact hphase =>
    cases hstep
    exact h.expire c s.now _ _ (expirable_expirable s c s.now 100)
      (fun _ _ heq => by cases hphase.symm.trans heq) (by rw [hphase]; trivial)
      (fun heq => by cases heq) (fun _ => trivial) trivial
  · next submission contact hphase =>
    have hplain : Plain (s.phase c) := by
      rw [hphase]
      trivial
    cases hstep
    unfold RegistrationState.compare
    split
    · exact h.raise c _ _ (fun _ _ heq => by cases hphase.symm.trans heq) fun _ heq => by cases heq
    · exact h.amend c _ s.requests (h.amends_same c hplain)
        (fun _ _ heq => by cases hphase.symm.trans heq) hplain (fun heq => by cases heq) trivial
        trivial
  · next submission contact hphase =>
    exact h.insertRequest R c submission contact salt token hphase hstep
  · next request actor now row hphase =>
    simp only [RegistrationState.insertUser] at hstep
    split at hstep
    · cases hstep
    · next hawaits =>
      split at hstep
      · cases hstep
        exact h.raise c _ _ (fun _ _ heq => by cases hphase.symm.trans heq)
          fun _ heq => by cases heq
      · next hview =>
        cases hstep
        exact h.insertUser c request actor now row hphase (Bool.eq_false_of_not_eq_true hawaits)
          (Bool.eq_false_of_not_eq_true hview)
  · next request actor now row user hphase =>
    cases hstep
    exact h.settle c request actor now row user hphase
  · next call result hphase =>
    cases hstep
    exact h.commit c call result hphase

omit [DecidableEq C] in
/-- **An account is made elsewhere.** -/
theorem RegistrationInv.otherUser (h : RegistrationInv L s) (user : LoginUser)
    (hcommitted : s.users.committed.any (sameAccount user) = false)
    (hpending : ((List.range s.users.committed.next).any fun pk => (s.users.pending pk).any fun w =>
      w.row.any (sameAccount user)) = false) :
    RegistrationInv L { s with users := s.users.insertNow user } := by
  have hkept : ∀ pk u, s.users.committed.get? pk = some u →
      (s.users.insertNow user).committed.get? pk = some u :=
    fun pk u hu => s.users.committed.get?_insert_of_some user u pk hu
  have hfree : ∀ pk u, s.users.Stored pk u → ¬ SameAccount user u := by
    intro pk u hstored hsame
    rcases hstored with hu | ⟨d, hu⟩
    · have hno := (Table.any_eq_false _ _).mp hcommitted pk u hu
      exact nomatch hno.symm.trans hsame
    · rw [List.any_eq_false] at hpending
      have hno := hpending pk (List.mem_range.mpr (s.users.drawn pk _ hu).2)
      rw [hu] at hno
      exact hno hsame
  refine ⟨h.requests, h.users.insertNow user, ?_, h.occupancies, ?_, h.idle, h.approvers,
    h.userOwners, h.occupancyOwners, ?_, h.oneOccupancy, h.approved, h.single, h.singleUser⟩
  · have hsplit : ∀ pk u, (s.users.insertNow user).Stored pk u →
        s.users.Stored pk u ∨ pk = s.users.committed.next ∧ u = user := by
      intro pk u hstored
      rcases hstored with hu | ⟨d, hu⟩
      · have hget := (s.users.committed.get?_insert user pk).symm.trans hu
        split at hget
        · next hpk =>
          cases hget
          exact .inr ⟨hpk, rfl⟩
        · exact .inl (.inl hget)
      · exact .inl (.inr ⟨d, hu⟩)
    intro pk qk a b ha hb hsame
    rcases hsplit pk a ha with hold | ⟨hpk, rfl⟩
    · rcases hsplit qk b hb with hold' | ⟨hqk, rfl⟩
      · exact h.accounts pk qk a b hold hold' hsame
      · exact absurd (SameAccount.symm _ _ hsame) (hfree pk a hold)
    · rcases hsplit qk b hb with hold' | ⟨hqk, rfl⟩
      · exact absurd hsame (hfree qk b hold')
      · rw [hpk, hqk]
  · intro c
    exact (h.phases c).carry (fun _ _ ha _ => ha) (fun _ _ hrow => hrow) hkept
      (fun _ _ hp => hp) (fun _ _ ha => ha) fun _ _ hp => hp
  · intro pk a ha
    obtain ⟨u, hu⟩ := h.occupants pk a ha
    exact ⟨u, hkept _ u hu⟩

/-- **Every step keeps the invariant.** -/
theorem RegistrationInv.step (R : RegistrationConfig) (h : RegistrationInv R.toLoginConfig s)
    (action : RegistrationAction C) (hstep : s.step R action = some t) :
    RegistrationInv R.toLoginConfig t := by
  cases action with
  | tick elapsed =>
    cases hstep
    exact ⟨h.requests, h.users, h.accounts, h.occupancies, h.phases, h.idle, h.approvers,
      h.userOwners, h.occupancyOwners, h.occupants, h.oneOccupancy, h.approved, h.single,
      h.singleUser⟩
  | setPremises unitBuilding manages =>
    cases hstep
    exact ⟨h.requests, h.users, h.accounts, h.occupancies, h.phases, h.idle, h.approvers,
      h.userOwners, h.occupancyOwners, h.occupants, h.oneOccupancy, h.approved, h.single,
      h.singleUser⟩
  | otherUser user =>
    simp only [RegistrationState.step] at hstep
    split at hstep
    · cases hstep
    · next hno =>
      rw [Bool.or_eq_true, not_or] at hno
      cases hstep
      exact h.otherUser user (Bool.eq_false_of_not_eq_true hno.1)
        (Bool.eq_false_of_not_eq_true hno.2)
  | begin c call => exact h.begin R c call hstep
  | next c salt token => exact h.next R c salt token hstep
  | disconnect c =>
    obtain ⟨call, hcall, rfl⟩ := Option.map_eq_some_iff.mp hstep
    refine h.raise c call _ ?_ fun _ heq => nomatch heq
    intro other result hphase
    rw [hphase] at hcall
    cases hcall

end LamTo.Analysis
