import LamTo.Analysis.AccessSteps

/-!
# Whose tokens are live

Three results about the tokens of residents and the requests that come with them, over every order
of the statements of any number of calls.

* The services that deactivate leave no token behind: outside their own statements every token
  belongs to an active user with an active occupancy. That is so as long as no bulk update goes
  around them, none is broken off, and none is overtaken between its look and its write
  (`orderly`).
* A token that was left behind all the same does not last: once a call has looked at its user, it
  deletes the tokens of the user, unless he moves in again.
* No request of a user is served for a building once he has no active occupancy there, whatever
  tokens and headers it comes with.

SOURCE: src/lamto/api/{services,signals,authentication,occupancy}.py
-/

set_option autoImplicit false

namespace LamTo.Analysis

open LamTo.Library LamTo.Model

variable {C : Type}

/-! ## What the services leave -/

/-- The step goes by the services, ends no cleanup early, and writes what it has looked up:

* a login creates its token while the user still is active and has an active occupancy;
* a bulk deactivation finds only occupancies of the users it has read. -/
def orderly (s : AccessState C) : AccessAction C → Bool
  | .create c =>
    match s.call c with
    | .eligible user => s.isActive user && s.hasOccupancy user
    | _ => true
  | .updateAll c =>
    match s.call c with
    | .collected scope users => s.occupancies.rows.all fun r =>
        !(scope r.1 r.2 && r.2.active) || users.contains r.2.user
    | _ => true
  | .stop c => (s.call c).work.isEmpty
  | .bulkOccupancies _ | .bulkUsers _ => false
  | _ => true

/-- A token is one of an active user with an active occupancy, or some call has it to delete. -/
structure RevokedInv (s : AccessState C) : Prop where
  active : ∀ pk user, s.tokens.get? pk = some user →
    s.isActive user = true ∨ ∃ c, .all user ∈ (s.call c).work
  housed : ∀ pk user, s.tokens.get? pk = some user →
    s.hasOccupancy user = true ∨ ∃ c, ∃ r ∈ (s.call c).work, r.user = user

theorem revokedInv_empty : RevokedInv (AccessState.empty : AccessState C) :=
  ⟨fun _ _ h => (by cases h), fun _ _ h => (by cases h)⟩

variable {s t : AccessState C}

/-- **What a step must see to**: a new token is of an eligible user, who stops being one is put on
a list, and what is taken off a list was deleted or is not due. -/
theorem RevokedInv.next (h : RevokedInv s)
    (htokens : ∀ pk user, t.tokens.get? pk = some user → s.tokens.get? pk = some user ∨
      t.isActive user = true ∧ t.hasOccupancy user = true)
    (hactive : ∀ user, s.isActive user = true →
      t.isActive user = true ∨ ∃ c, .all user ∈ (t.call c).work)
    (hhoused : ∀ user, s.hasOccupancy user = true →
      t.hasOccupancy user = true ∨ ∃ c, ∃ r ∈ (t.call c).work, r.user = user)
    (hwork : ∀ c, ∀ r ∈ (s.call c).work, r ∈ (t.call c).work ∨
      (∃ user, r = .ifWithout user ∧
        (t.hasOccupancy user = true ∨ .all user ∈ (t.call c).work)) ∨
      ∀ pk, t.tokens.get? pk ≠ some r.user) : RevokedInv t := by
  constructor
  · intro pk user htoken
    rcases htokens pk user htoken with hbefore | ⟨hnew, -⟩
    · rcases h.active pk user hbefore with hlive | ⟨c, hc⟩
      · exact hactive user hlive
      · rcases hwork c _ hc with hkept | ⟨other, hother, -⟩ | hnone
        · exact .inr ⟨c, hkept⟩
        · cases hother
        · exact absurd htoken (hnone pk)
    · exact .inl hnew
  · intro pk user htoken
    rcases htokens pk user htoken with hbefore | ⟨-, hnew⟩
    · rcases h.housed pk user hbefore with hlive | ⟨c, r, hr, huser⟩
      · exact hhoused user hlive
      · rcases hwork c r hr with hkept | ⟨other, rfl, hlive | hall⟩ | hnone
        · exact .inr ⟨c, r, hkept, huser⟩
        · cases huser
          exact .inl hlive
        · exact .inr ⟨c, _, hall, huser⟩
        · rw [huser] at hnone
          exact absurd htoken (hnone pk)
    · exact .inl hnew

/-- An active occupancy is found again where the row is as it was. -/
theorem hasOccupancy_of_get? (user : ℕ) (pk : ℕ) (o : Occupancy)
    (h : t.occupancies.get? pk = some o) (huser : o.user = user) (hactive : o.active = true) :
    t.hasOccupancy user = true := (hasOccupancy_iff t user).mpr ⟨pk, o, h, huser, hactive⟩

variable [DecidableEq C] {int : Text → Option ℤ}

/-- A call that has nothing to delete moves on. -/
theorem work_setCall (u : AccessState C) (c d : C) (phase : AccessPhase) (hu : u.call = s.call)
    (hidle : due (s.call c) = []) (r : Revocation) (hr : r ∈ (s.call d).work) :
    r ∈ ((u.setCall c phase).call d).work := by
  rw [call_setCall, hu]
  split
  · next hd =>
    rw [hd] at hr
    have hmem := mem_due _ r hr
    rw [hidle] at hmem
    cases hmem
  · exact hr

theorem revokedInv_step (a : AccessAction C) (h : RevokedInv s) (hok : orderly s a = true)
    (ht : s.step int a = some t) : RevokedInv t := by
  cases effect_of_step a ht with
  | move _ c phase _ hkeeps =>
    refine h.next (fun _ _ => .inl) (fun _ => .inl) (fun _ => .inl) fun d r hr => ?_
    rw [call_setCall]
    split
    · next hd =>
      rw [hd] at hr
      rcases hkeeps with rfl | hkeeps
      · have hnone : (s.call c).work = [] := List.isEmpty_iff.mp hok
        rw [hnone] at hr
        cases hr
      · exact (hkeeps r (mem_due _ r hr)).imp_right .inl
    · exact .inl hr
  | moveIn user building =>
    refine h.next (fun _ _ => .inl) (fun _ => .inl) (fun other hother => .inl ?_)
      (fun _ _ => .inl)
    obtain ⟨pk, o, ho, huser, hactive⟩ := (hasOccupancy_iff s other).mp hother
    exact hasOccupancy_of_get? other pk o (Table.get?_insert_of_some _ _ _ _ ho) huser hactive
  | save c pk o hidle ho =>
    refine h.next (fun _ _ => .inl) (fun _ => .inl) (fun other hother => .inl ?_)
      (fun d r hr => .inl (work_setCall (s.setActive pk true) c d _ rfl hidle r hr))
    obtain ⟨q, row, hrow, huser, hactive⟩ := (hasOccupancy_iff s other).mp hother
    refine hasOccupancy_of_get? other q { row with active := true } ?_ huser rfl
    change (s.occupancies.update pk _).get? q = _
    rw [Table.get?_update, hrow]
    split
    · rfl
    · rw [← hactive]
  | deactivate _ c pk o work hidle ho hwork =>
    refine h.next (fun _ _ => .inl) (fun _ => .inl) (fun other hother => ?_)
      (fun d r hr => .inl (work_setCall (s.setActive pk false) c d _ rfl hidle r hr))
    obtain ⟨q, row, hrow, huser, hactive⟩ := (hasOccupancy_iff s other).mp hother
    by_cases hq : q = pk
    · rw [hq, ho] at hrow
      cases hrow
      refine .inr ⟨c, .ifWithout o.user, ?_, huser⟩
      rw [call_setCall, if_pos rfl]
      exact hwork
    · refine .inl (hasOccupancy_of_get? other q row ?_ huser hactive)
      change (s.occupancies.update pk _).get? q = _
      rw [Table.get?_update_ne _ _ _ _ hq, hrow]
  | updateAll c scope users hcall =>
    have hidle : due (s.call c) = [] := by rw [hcall]; rfl
    refine h.next (fun _ _ => .inl) (fun _ => .inl) (fun other hother => ?_)
      (fun d r hr => .inl (work_setCall (s.deactivateAll scope) c d _ rfl hidle r hr))
    obtain ⟨q, row, hrow, huser, hactive⟩ := (hasOccupancy_iff s other).mp hother
    by_cases hscope : scope q row = true
    · -- The occupancy is one of those the update finds, so its user was read.
      simp only [orderly, hcall, List.all_eq_true] at hok
      have hread := hok (q, row) ((Table.get?_eq_some _ _ _).mp hrow)
      simp only [hscope, hactive, Bool.and_self, Bool.not_true, Bool.false_or,
        List.contains_iff_mem] at hread
      refine .inr ⟨c, .ifWithout row.user, ?_, huser⟩
      rw [AccessState.updateAll, call_setCall, if_pos rfl]
      exact List.mem_map_of_mem hread
    · refine .inl (hasOccupancy_of_get? other q row ?_ huser hactive)
      change (s.deactivateAll scope).occupancies.get? q = _
      rw [AccessState.deactivateAll, Table.get?_mapRows, hrow, Option.map_some,
        if_neg (by simp [hscope])]
  | setUser _ c user active work hidle hwork =>
    refine h.next (fun _ _ => .inl) (fun other hother => ?_) (fun _ => .inl)
      (fun d r hr => .inl (work_setCall (s.setUser user active) c d _ rfl hidle r hr))
    by_cases hother' : other = user
    · subst hother'
      rcases hwork with rfl | hwork
      · exact .inl (Function.update_self _ _ _)
      · refine .inr ⟨c, ?_⟩
        rw [call_setCall, if_pos rfl]
        exact hwork
    · refine .inl ?_
      change Function.update s.isActive user active other = true
      rw [Function.update_of_ne hother', hother]
  | create c user hcall =>
    have hidle : due (s.call c) = [] := by rw [hcall]; rfl
    simp only [orderly, hcall, Bool.and_eq_true] at hok
    refine h.next (fun pk owner htoken => ?_) (fun _ => .inl) (fun _ => .inl)
      (fun d r hr => .inl (work_setCall _ c d _ rfl hidle r hr))
    change (s.tokens.insert user).get? pk = some owner at htoken
    rw [Table.get?_insert] at htoken
    split at htoken
    · cases htoken
      exact .inr hok
    · exact .inl htoken
  | delete _ p =>
    exact h.next (fun pk user htoken => .inl ((Table.get?_remove _ _ _ _).mp htoken).1)
      (fun _ => .inl) (fun _ => .inl) (fun _ _ => .inl)
  | revoke _ c user rest hcall =>
    refine h.next (fun pk owner htoken => .inl ((Table.get?_remove _ _ _ _).mp htoken).1)
      (fun _ => .inl) (fun _ => .inl) fun d r hr => ?_
    rw [call_setCall]
    split
    · next hd =>
      rw [hd, hcall] at hr
      rcases List.mem_cons.mp hr with rfl | hr
      · refine .inr (.inr fun pk htoken => ?_)
        have hgone := ((Table.get?_remove _ _ _ _).mp htoken).2
        simp [Revocation.user] at hgone
      · exact .inl hr
    · exact .inl hr
  | bulkOccupancies scope => cases hok
  | bulkUsers scope => cases hok

/-- **The services leave no token behind**: in every order of their statements, a token belongs to
an active user with an active occupancy, or a call has still to delete it. -/
theorem tokens_revoked (int : Text → Option ℤ) (s : AccessState C)
    (h : Reaches (AccessState.step int) (fun s a => orderly s a = true) .empty s) (pk user : ℕ)
    (htoken : s.tokens.get? pk = some user) :
    (s.isActive user = true ∨ ∃ c, .all user ∈ (s.call c).work) ∧
      (s.hasOccupancy user = true ∨ ∃ c, ∃ r ∈ (s.call c).work, r.user = user) := by
  have hinv := Reaches.preserves RevokedInv
    (fun _ a _ hu hok ha => revokedInv_step a hu hok ha) h revokedInv_empty
  exact ⟨hinv.active pk user htoken, hinv.housed pk user htoken⟩

/-- The last occupancy of a user with a token is deactivated: the call has still to look at him. -/
theorem tokens_revoked_pending : ∃ s : AccessState ℕ,
    Reaches (AccessState.step fun _ => none) (fun s a => orderly s a = true) .empty s ∧
      s.tokens.get? 1 = some 7 ∧ s.hasOccupancy 7 = false ∧
      ((s.isActive 7 = true ∨ ∃ c, .all 7 ∈ (s.call c).work) ∧
        (s.hasOccupancy 7 = true ∨ ∃ c, ∃ r ∈ (s.call c).work, r.user = 7)) := by
  obtain ⟨s, hreach, htoken, hout⟩ := exists_of_run
    (guarded (AccessState.step fun _ => none) fun (s : AccessState ℕ) a => orderly s a = true)
    .empty (fun s => s.tokens.get? 1 = some 7 ∧ s.hasOccupancy 7 = false)
    [.saveUser 0 7 true, .finish 0, .moveIn 7 3, .logIn 0 7, .checkLogin 0, .create 0,
      .deactivateOccupancy 1 1 true] (by decide +kernel)
  have hrun := hreach.of_guarded
  exact ⟨s, hrun, htoken, hout, tokens_revoked (fun _ => none) s hrun 1 7 htoken⟩

/-! ## What is left behind -/

/-- The user has an active occupancy in the building. -/
def housed (s : AccessState C) (user building : ℕ) : Bool :=
  s.occupancies.any fun o => o.user = user && o.building = building && o.active

/-- The step gives the user no active occupancy in the building. -/
def keepsOut (user building : ℕ) (s : AccessState C) : AccessAction C → Bool
  | .moveIn owner home => !(owner = user && home = building)
  | .saveOccupancy _ pk active => !active || (s.occupancies.get? pk).all fun o =>
      !(o.user = user && o.building = building)
  | _ => true

omit [DecidableEq C] in
theorem housed_iff (s : AccessState C) (user building : ℕ) :
    housed s user building = true ↔ ∃ pk o, s.occupancies.get? pk = some o ∧ o.user = user ∧
      o.building = building ∧ o.active = true := by
  simp only [housed, Table.any_eq_true, Bool.and_eq_true, decide_eq_true_eq, and_assoc]

theorem housed_step (a : AccessAction C) (user building : ℕ)
    (h : housed s user building = false) (hok : keepsOut user building s a = true)
    (ht : s.step int a = some t) : housed t user building = false := by
  rw [← Bool.not_eq_true]
  intro hin
  obtain ⟨pk, o, ho, rfl, rfl, hactive⟩ := (housed_iff t user building).mp hin
  rcases active_of_step a ht pk o ho hactive with ⟨before, hbefore, huser, hhome, hwas⟩ | rfl
  · rcases hwas with hwas | ⟨d, rfl⟩
    · have hlive := (housed_iff s _ _).mpr ⟨pk, before, hbefore, huser, hhome, hwas⟩
      exact absurd (hlive.symm.trans h) (by simp)
    · simp [keepsOut, hbefore, huser, hhome] at hok
  · simp [keepsOut] at hok

/-- **No request is served for a building its user has left.** From any state in which the user has
no active occupancy in the building, whatever tokens and headers requests come with, and whatever
other calls do between their statements, a request of the user that is served for the building was
served already, as long as he is not given an occupancy there. -/
theorem served_where_housed (int : Text → Option ℤ) (s t : AccessState C) (user building : ℕ)
    (hout : housed s user building = false)
    (h : Reaches (AccessState.step int) (fun s a => keepsOut user building s a = true) s t)
    (d : C) (tenant : TenantContext) (hserved : t.call d = .served user tenant)
    (hbuilding : tenant.building = building) : s.call d = .served user tenant := by
  have hinv := Reaches.preserves (fun u => housed u user building = false ∧
      ∀ d tenant, u.call d = .served user tenant → tenant.building = building →
        s.call d = .served user tenant)
    (fun u a v hu hok ha => ?_) h ⟨hout, fun _ _ hd _ => hd⟩
  · exact hinv.2 d tenant hserved hbuilding
  · refine ⟨housed_step a user building hu.1 hok ha, fun d tenant hd hhome => ?_⟩
    rcases granted_of_step a ha d with hsame | hgranted
    · exact hu.2 d tenant (hsame ▸ hd) hhome
    · rw [hd] at hgranted
      obtain ⟨pk, o, ho, huser, hactive, rfl⟩ := hgranted
      have hlive := (housed_iff u user building).mpr ⟨pk, o, ho, huser, hhome, hactive⟩
      exact absurd (hlive.symm.trans hu.1) (by simp)

/-- Whom and for what a request is served. -/
def servedFor : AccessPhase → Option (ℕ × TenantContext)
  | .served user tenant => some (user, tenant)
  | _ => none

theorem eq_served (phase : AccessPhase) (user : ℕ) (tenant : TenantContext)
    (h : servedFor phase = some (user, tenant)) : phase = .served user tenant := by
  cases phase with
  | served owner context =>
    cases h
    rfl
  | _ => cases h

/-- A resident of two buildings leaves the first, for which a request of his is being served; the
next one is served for the second. -/
theorem served_where_housed_left : ∃ s t : AccessState ℕ,
    housed s 7 3 = false ∧ t.call 2 = .served 7 ⟨4, .resident, some 2, none⟩ ∧
      t.call 1 = .served 7 ⟨3, .resident, some 1, none⟩ ∧
      s.call 1 = .served 7 ⟨3, .resident, some 1, none⟩ := by
  let int : Text → Option ℤ := fun raw => if raw = ['1'] then some 1 else none
  obtain ⟨s, -, hout, hthen⟩ := exists_of_run (AccessState.step int) (.empty : AccessState ℕ)
    (fun s => housed s 7 3 = false ∧
      (run (guarded (AccessState.step int) fun s a => keepsOut 7 3 s a = true) s
        [.present 2 1, .authenticate 2, .resolve 2 none]).any (fun t =>
          decide (servedFor (t.call 2) = some (7, ⟨4, .resident, some 2, none⟩) ∧
            servedFor (t.call 1) = some (7, ⟨3, .resident, some 1, none⟩))) = true)
    [.saveUser 0 7 true, .finish 0, .moveIn 7 3, .moveIn 7 4, .logIn 0 7, .checkLogin 0, .create 0,
      .present 1 1, .authenticate 1, .resolve 1 (some ['1']), .deactivateOccupancy 0 1 true]
    (by decide +kernel)
  obtain ⟨t, hreach, hsecond, hfirst⟩ := exists_of_run _ s _ _ hthen
  have hserved := eq_served _ _ _ hfirst
  exact ⟨s, t, hout, eq_served _ _ _ hsecond, hserved,
    served_where_housed int s t 7 3 hout hreach.of_guarded 1 _ hserved rfl⟩

end LamTo.Analysis
