import LamTo.Model.ResidentAccess

/-!
# Steps of the resident API

What one statement can do. Most of them only move a call on; `AccessEffect` lists the others, and
says of a move what it may grant and what it must not forget.

* A call comes to be eligible, admitted or served only while the user has an active occupancy, and
  is served for the building of one (`Granted`).
* A call that has something to revoke still has it after a move, unless the user turns out to have
  an active occupancy, or the call is broken off.
* An occupancy is active after a step that was not before only when its user moves in, or it is
  saved as active (`active_of_step`).

SOURCE: src/lamto/api/{services,signals,authentication,occupancy}.py
-/

set_option autoImplicit false

namespace LamTo.Analysis

open LamTo.Library LamTo.Model

variable {C : Type}

theorem hasOccupancy_iff (s : AccessState C) (user : ℕ) :
    s.hasOccupancy user = true ↔
      ∃ pk o, s.occupancies.get? pk = some o ∧ o.user = user ∧ o.active = true := by
  simp only [AccessState.hasOccupancy, Table.any_eq_true, Bool.and_eq_true, decide_eq_true_eq]

theorem mem_activeOccupancies (s : AccessState C) (user pk : ℕ) (o : Occupancy) :
    (pk, o) ∈ s.activeOccupancies user ↔
      s.occupancies.get? pk = some o ∧ o.user = user ∧ o.active = true := by
  simp only [AccessState.activeOccupancies, Table.mem_select, Bool.and_eq_true, decide_eq_true_eq]

/-- What is selected is one of the occupancies, whatever the header says. -/
theorem mem_of_resolve (int : Text → Option ℤ) (occupancies : List (ℕ × Occupancy))
    (header : Option Text) (selected : ℕ × Occupancy)
    (h : resolveApiOccupancy int occupancies header = .ok selected) : selected ∈ occupancies := by
  unfold resolveApiOccupancy at h
  split at h
  · split at h
    · cases h
    · cases h
      exact List.mem_singleton_self _
    · cases h
  · split at h
    · cases h
    · split at h
      · cases h
      · split at h
        · cases h
        · next hfind =>
          cases h
          exact List.mem_of_find?_eq_some hfind

/-- What a phase says about the occupancies of its user. -/
def Granted (s : AccessState C) : AccessPhase → Prop
  | .eligible user | .admitted user => s.hasOccupancy user = true
  | .served user tenant => ∃ pk o, s.occupancies.get? pk = some o ∧ o.user = user ∧
      o.active = true ∧ tenant = .fromOccupancy pk o
  | _ => True

/-- What a call has to delete, or to look into. -/
def due : AccessPhase → List Revocation
  | .revoking work => work
  | .presented user | .loggingIn user => [.ifWithout user]
  | _ => []

theorem mem_due (phase : AccessPhase) (r : Revocation) (h : r ∈ phase.work) : r ∈ due phase := by
  cases phase with
  | revoking work => exact h
  | _ => cases h

/-- The work of a call is kept, or was found not to be due. -/
def KeepsWork (s : AccessState C) (before after : AccessPhase) : Prop :=
  ∀ r ∈ due before, r ∈ after.work ∨
    ∃ user, r = .ifWithout user ∧ (s.hasOccupancy user = true ∨ .all user ∈ after.work)

theorem keepsWork_of_nil (s : AccessState C) (before after : AccessPhase) (h : due before = []) :
    KeepsWork s before after := by
  intro r hr
  rw [h] at hr
  cases hr

variable [DecidableEq C] {int : Text → Option ℤ} {s t : AccessState C}

inductive AccessEffect (s : AccessState C) : AccessAction C → AccessState C → Prop where
  | move (a : AccessAction C) (c : C) (phase : AccessPhase) (hgranted : Granted s phase)
      (hwork : a = .stop c ∨ KeepsWork s (s.call c) phase) : AccessEffect s a (s.setCall c phase)
  | moveIn (user building : ℕ) : AccessEffect s (.moveIn user building)
      { s with occupancies := s.occupancies.insert ⟨user, building, true⟩ }
  | save (c : C) (pk : ℕ) (o : Occupancy) (hidle : due (s.call c) = [])
      (ho : s.occupancies.get? pk = some o) :
      AccessEffect s (.saveOccupancy c pk true) ((s.setActive pk true).setCall c (.revoking []))
  | deactivate (a : AccessAction C) (c : C) (pk : ℕ) (o : Occupancy) (work : List Revocation)
      (hidle : due (s.call c) = []) (ho : s.occupancies.get? pk = some o)
      (hwork : .ifWithout o.user ∈ work) :
      AccessEffect s a ((s.setActive pk false).setCall c (.revoking work))
  | updateAll (c : C) (scope : ℕ → Occupancy → Bool) (users : List ℕ)
      (hcall : s.call c = .collected scope users) :
      AccessEffect s (.updateAll c) (s.updateAll c scope users)
  | setUser (a : AccessAction C) (c : C) (user : ℕ) (active : Bool) (work : List Revocation)
      (hidle : due (s.call c) = []) (hwork : active = true ∨ .all user ∈ work) :
      AccessEffect s a ((s.setUser user active).setCall c (.revoking work))
  | create (c : C) (user : ℕ) (hcall : s.call c = .eligible user) :
      AccessEffect s (.create c) (s.create c user)
  | delete (a : AccessAction C) (p : ℕ → ℕ → Bool) :
      AccessEffect s a { s with tokens := s.tokens.remove p }
  | revoke (a : AccessAction C) (c : C) (user : ℕ) (rest : List Revocation)
      (hcall : s.call c = .revoking (.all user :: rest)) :
      AccessEffect s a ((s.revokeAll user).setCall c (.revoking rest))
  | bulkOccupancies (scope : ℕ → Occupancy → Bool) :
      AccessEffect s (.bulkOccupancies scope) (s.deactivateAll scope)
  | bulkUsers (scope : ℕ → Bool) : AccessEffect s (.bulkUsers scope)
      { s with isActive := fun user => if scope user then false else s.isActive user }

/-! ## Moves -/

/-- The look of a login or of a request at the occupancies of its user. -/
theorem effect_look (a : AccessAction C) (c : C) (user : ℕ) (phase : AccessPhase)
    (hdue : due (s.call c) = [.ifWithout user])
    (hphase : s.hasOccupancy user = true → Granted s phase) :
    AccessEffect s a (if s.hasOccupancy user then s.setCall c phase
      else s.setCall c (.revoking [.ifWithout user])) := by
  split
  · next hoccupancy =>
    refine .move a c phase (hphase hoccupancy) (.inr fun r hr => .inr ⟨user, ?_, .inl hoccupancy⟩)
    rw [hdue] at hr
    exact List.mem_singleton.mp hr
  · refine .move a c _ trivial (.inr fun r hr => .inl ?_)
    rw [hdue] at hr
    exact hr

theorem effect_resolve (a : AccessAction C) (c : C) (user : ℕ) (header : Option Text)
    (hcall : s.call c = .admitted user) : AccessEffect s a (s.resolve int c user header) := by
  have hidle : due (s.call c) = [] := by rw [hcall]; rfl
  unfold AccessState.resolve
  split
  · next selected hselected =>
    have hmem := mem_of_resolve int _ header selected hselected
    obtain ⟨ho, huser, hactive⟩ := (mem_activeOccupancies s user selected.1 selected.2).mp hmem
    exact .move a c _ ⟨selected.1, selected.2, ho, huser, hactive, rfl⟩
      (.inr (keepsWork_of_nil _ _ _ hidle))
  · exact .move a c _ trivial (.inr (keepsWork_of_nil _ _ _ hidle))

theorem effect_revokeNext (a : AccessAction C) (c : C) (next : Revocation)
    (rest : List Revocation) (hcall : s.call c = .revoking (next :: rest)) :
    AccessEffect s a (s.revokeNext c next rest) := by
  cases next with
  | ifWithout user =>
    simp only [AccessState.revokeNext]
    split
    · next hoccupancy =>
      refine .move a c _ trivial (.inr fun r hr => ?_)
      rw [hcall] at hr
      rcases List.mem_cons.mp hr with rfl | hr
      · exact .inr ⟨user, rfl, .inl hoccupancy⟩
      · exact .inl hr
    · refine .move a c _ trivial (.inr fun r hr => ?_)
      rw [hcall] at hr
      rcases List.mem_cons.mp hr with rfl | hr
      · exact .inr ⟨user, rfl, .inr List.mem_cons_self⟩
      · exact .inl (List.mem_cons_of_mem _ hr)
  | all user => exact .revoke a c user rest hcall

/-! ## Steps -/

/-- A statement that an idle call begins with. -/
theorem effect_idle (a : AccessAction C) (c : C) (phase : AccessPhase) (hidle : s.call c = .idle)
    (hgranted : Granted s phase) : AccessEffect s a (s.setCall c phase) :=
  .move a c phase hgranted (.inr (keepsWork_of_nil _ _ _ (by rw [hidle]; rfl)))

theorem effect_saveOccupancy (c : C) (pk : ℕ) (active : Bool) (hidle : s.call c = .idle)
    (h : s.saveOccupancy c pk active = some t) :
    AccessEffect s (.saveOccupancy c pk active) t := by
  have hdue : due (s.call c) = [] := by rw [hidle]; rfl
  obtain ⟨o, ho, rfl⟩ := Option.map_eq_some_iff.mp h
  cases active with
  | true => exact .save c pk o hdue ho
  | false => exact .deactivate _ c pk o _ hdue ho List.mem_cons_self

theorem effect_deactivateOccupancy (a : AccessAction C) (c : C) (pk : ℕ) (loaded : Bool)
    (hidle : s.call c = .idle) (h : s.deactivateOccupancy c pk loaded = some t) :
    AccessEffect s a t := by
  have hdue : due (s.call c) = [] := by rw [hidle]; rfl
  obtain ⟨o, ho, rfl⟩ := Option.map_eq_some_iff.mp h
  cases loaded with
  | true => exact .deactivate a c pk o _ hdue ho List.mem_cons_self
  | false => exact effect_idle a c _ hidle trivial

theorem effect_users (a : AccessAction C) (c : C) (user : ℕ) (loaded : Bool)
    (hidle : s.call c = .idle) : AccessEffect s a (s.deactivateUser c user loaded) := by
  have hdue : due (s.call c) = [] := by rw [hidle]; rfl
  cases loaded with
  | true => exact .setUser a c user false _ hdue (.inr List.mem_cons_self)
  | false => exact effect_idle a c _ hidle trivial

/-- **What one statement can do.** -/
theorem effect_of_step (a : AccessAction C) (h : s.step int a = some t) : AccessEffect s a t := by
  cases a with
  | moveIn user building =>
    cases h
    exact .moveIn user building
  | deleteToken pk =>
    cases h
    exact .delete _ _
  | logoutAll user =>
    cases h
    exact .delete _ _
  | stop c =>
    cases h
    exact .move _ c _ trivial (.inl rfl)
  | bulkOccupancies scope =>
    cases h
    exact .bulkOccupancies scope
  | bulkUsers scope =>
    cases h
    exact .bulkUsers scope
  | logIn c user =>
    simp only [AccessState.step] at h
    split at h
    · next hcall =>
      split at h
      · cases h
        exact effect_idle _ c _ hcall trivial
      · cases h
    · cases h
  | checkLogin c =>
    simp only [AccessState.step] at h
    split at h
    · next user hcall =>
      cases h
      exact effect_look _ c user (.eligible user) (by rw [hcall]; rfl) id
    · cases h
  | create c =>
    simp only [AccessState.step] at h
    split at h
    · next user hcall =>
      cases h
      exact .create c user hcall
    · cases h
  | present c pk =>
    simp only [AccessState.step, AccessState.present] at h
    split at h
    · next hcall =>
      split at h
      · split at h
        · cases h
          exact effect_idle _ c _ hcall trivial
        · cases h
      · cases h
    · cases h
  | authenticate c =>
    simp only [AccessState.step] at h
    split at h
    · next user hcall =>
      cases h
      exact effect_look _ c user (.admitted user) (by rw [hcall]; rfl) id
    · cases h
  | resolve c header =>
    simp only [AccessState.step] at h
    split at h
    · next user hcall =>
      cases h
      exact effect_resolve _ c user header hcall
    · cases h
  | saveOccupancy c pk active =>
    simp only [AccessState.step] at h
    split at h
    · next hcall => exact effect_saveOccupancy c pk active hcall h
    · cases h
  | deactivateOccupancy c pk loaded =>
    simp only [AccessState.step] at h
    split at h
    · next hcall => exact effect_deactivateOccupancy _ c pk loaded hcall h
    · cases h
  | collect c scope users =>
    simp only [AccessState.step, AccessState.collect] at h
    split at h
    · next hcall =>
      split at h
      · cases h
        exact effect_idle _ c _ hcall trivial
      · cases h
    · cases h
  | updateAll c =>
    simp only [AccessState.step] at h
    split at h
    · next scope users hcall =>
      cases h
      exact .updateAll c scope users hcall
    · cases h
  | saveUser c user active =>
    simp only [AccessState.step] at h
    split at h
    · next hcall =>
      cases h
      refine .setUser _ c user active _ (by rw [hcall]; rfl) ?_
      cases active with
      | true => exact .inl rfl
      | false => exact .inr List.mem_cons_self
    · cases h
  | deactivateUser c user loaded =>
    simp only [AccessState.step] at h
    split at h
    · next hcall =>
      cases h
      exact effect_users _ c user loaded hcall
    · cases h
  | revokeIfWithout c user =>
    simp only [AccessState.step] at h
    split at h
    · next hcall =>
      cases h
      exact effect_idle _ c _ hcall trivial
    · cases h
  | revokeNext c =>
    simp only [AccessState.step] at h
    split at h
    · next next rest hcall =>
      cases h
      exact effect_revokeNext _ c next rest hcall
    · cases h
  | finish c =>
    have hmove : due (s.call c) = [] → AccessEffect s (.finish c) (s.setCall c .idle) :=
      fun hidle => .move _ c _ trivial (.inr (keepsWork_of_nil _ _ _ hidle))
    simp only [AccessState.step] at h
    split at h
    · next hcall =>
      cases h
      exact hmove (by rw [hcall]; rfl)
    · next hcall =>
      cases h
      exact hmove (by rw [hcall]; rfl)
    · next hcall =>
      cases h
      exact hmove (by rw [hcall]; rfl)
    · next hcall =>
      cases h
      exact hmove (by rw [hcall]; rfl)
    · cases h

/-! ## What a step brings about -/

theorem call_setCall (s : AccessState C) (c d : C) (phase : AccessPhase) :
    (s.setCall c phase).call d = if d = c then phase else s.call d := Function.update_apply _ _ _ _

/-- A property of phases that a call has before a step and its new phase has. -/
theorem call_of_setCall (P : AccessPhase → Prop) (c d : C) (phase : AccessPhase)
    (hd : P (s.call d)) (hphase : P phase) : P ((s.setCall c phase).call d) := by
  rw [call_setCall]
  split
  · exact hphase
  · exact hd

/-- A call goes to a phase only when it may. -/
theorem granted_of_step (a : AccessAction C) (h : s.step int a = some t) (d : C) :
    t.call d = s.call d ∨ Granted s (t.call d) := by
  have hmove : ∀ (u : AccessState C) (c : C) (phase : AccessPhase), u.call = s.call →
      Granted s phase → (u.setCall c phase).call d = s.call d ∨
        Granted s ((u.setCall c phase).call d) := by
    intro u c phase hu hphase
    rw [call_setCall, hu]
    split
    · exact .inr hphase
    · exact .inl rfl
  cases effect_of_step a h with
  | move _ c phase hgranted _ => exact hmove s c phase rfl hgranted
  | save c pk o _ _ => exact hmove _ c _ rfl trivial
  | deactivate _ c pk o work _ _ _ => exact hmove _ c _ rfl trivial
  | updateAll c scope users _ => exact hmove _ c _ rfl trivial
  | setUser _ c user active work _ _ => exact hmove _ c _ rfl trivial
  | create c user _ => exact hmove _ c _ rfl trivial
  | revoke _ c user rest _ => exact hmove _ c _ rfl trivial
  | _ => exact .inl rfl

/-- An occupancy that is active after a step was active before it, for the same user and building,
or its user moved in, or it was saved as active. -/
theorem active_of_step (a : AccessAction C) (h : s.step int a = some t) (pk : ℕ) (o : Occupancy)
    (ho : t.occupancies.get? pk = some o) (hactive : o.active = true) :
    (∃ before, s.occupancies.get? pk = some before ∧ before.user = o.user ∧
      before.building = o.building ∧
      (before.active = true ∨ ∃ c, a = .saveOccupancy c pk true)) ∨
    a = .moveIn o.user o.building := by
  have hsame : s.occupancies.get? pk = some o → ∃ before, s.occupancies.get? pk = some before ∧
      before.user = o.user ∧ before.building = o.building ∧
      (before.active = true ∨ ∃ c, a = .saveOccupancy c pk true) :=
    fun hbefore => ⟨o, hbefore, rfl, rfl, .inl hactive⟩
  -- What a bulk update leaves active it has not touched.
  have hbulk : ∀ scope, (s.deactivateAll scope).occupancies.get? pk = some o →
      s.occupancies.get? pk = some o := by
    intro scope hafter
    simp only [AccessState.deactivateAll, Table.get?_mapRows, Option.map_eq_some_iff] at hafter
    obtain ⟨before, hbefore, heq⟩ := hafter
    split at heq
    · rw [← heq] at hactive
      cases hactive
    · rw [hbefore, heq]
  cases effect_of_step a h with
  | moveIn user building =>
    change (s.occupancies.insert _).get? pk = some o at ho
    rw [Table.get?_insert] at ho
    split at ho
    · cases ho
      exact .inr rfl
    · exact .inl (hsame ho)
  | save c key row _ hrow =>
    change (s.occupancies.update key _).get? pk = some o at ho
    rw [Table.get?_update] at ho
    split at ho
    · next hpk =>
      obtain ⟨before, hbefore, rfl⟩ := Option.map_eq_some_iff.mp ho
      exact .inl ⟨before, hbefore, rfl, rfl, .inr ⟨c, by rw [hpk]⟩⟩
    · exact .inl (hsame ho)
  | deactivate _ c key row work _ hrow _ =>
    change (s.occupancies.update key _).get? pk = some o at ho
    rw [Table.get?_update] at ho
    split at ho
    · obtain ⟨before, -, rfl⟩ := Option.map_eq_some_iff.mp ho
      cases hactive
    · exact .inl (hsame ho)
  | updateAll c scope users _ => exact .inl (hsame (hbulk scope ho))
  | bulkOccupancies scope => exact .inl (hsame (hbulk scope ho))
  | _ => exact .inl (hsame ho)

end LamTo.Analysis
