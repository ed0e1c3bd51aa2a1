import LamTo.Library.Table
import LamTo.Library.Transition
import LamTo.Model.Database
import Mathlib.Logic.Function.Basic

/-!
# Who the resident API lets in

A request comes with a token; the token names a user, and the user's active occupancies decide
whether the request is let in and for which building it is served. Occupancies and users are
deactivated by services that delete the tokens that are no longer due, by a plain `save()`, whose
signal does, and by bulk updates, which do not; the first request that comes with such a token
deletes the tokens of its user.

* Every statement is a transaction of its own, so that a step is one statement of one call, and
  the statements of any number of calls run in any order. A call may be broken off (`stop`).
* What a call has still to revoke is a list: the tokens of a user, or those of a user who turns
  out to have no active occupancy.
* `TokenAuthentication` of the token library is taken at its word: it answers with the user of a
  token that is there, if the user is active. A token that is found expired is deleted, as by a
  logout.
* A queryset is the predicate of its filter, and `int(text)` is a parameter.
* The password of a login, its throttle and the order its tokens are evicted in are left out.

SOURCE: src/lamto/api/{services,signals,authentication,occupancy}.py, api/views.py:146-190,
accounts/tenancy.py:25-52
-/

set_option autoImplicit false

namespace LamTo.Model

open LamTo.Library

/-! ## Tenants -/

/-- `TenantContext.actor` -/
inductive TenantActor where
  | resident
  | staff
deriving DecidableEq

structure TenantContext where
  building : ℕ
  actor : TenantActor
  occupancy : Option ℕ
  membership : Option ℕ
deriving DecidableEq

/-- `TenantContext.from_occupancy` -/
def TenantContext.fromOccupancy (pk : ℕ) (occupancy : Occupancy) : TenantContext :=
  ⟨occupancy.building, .resident, some pk, none⟩

inductive AccessProblem where
  /-- 403, "An active resident occupancy is required." -/
  | permissionDenied
  /-- 422, `OccupancySelectionRequired` -/
  | selectionRequired
  /-- 404, "Occupancy not found." -/
  | notFound
deriving DecidableEq

/-- `resolve_api_occupancy`, given the active occupancies of the user in the order of their keys
and the header, if it was sent. SOURCE: occupancy.py:33-51 -/
def resolveApiOccupancy (int : Text → Option ℤ) (occupancies : List (ℕ × Occupancy)) :
    Option Text → Except AccessProblem (ℕ × Occupancy)
  | none =>
    match occupancies with
    | [] => .error .permissionDenied
    | [selected] => .ok selected
    | _ => .error .selectionRequired
  | some raw =>
    if occupancies = [] then .error .permissionDenied
    else
      match int raw with
      | none => .error .notFound
      | some wanted =>
        match occupancies.find? fun o => (o.1 : ℤ) = wanted with
        | none => .error .notFound
        | some selected => .ok selected

/-! ## Calls -/

/-- What is still to be deleted. -/
inductive Revocation where
  /-- `revoke_tokens_if_no_active_occupancy`, before its look at the occupancies -/
  | ifWithout (user : ℕ)
  /-- `AuthToken.objects.filter(user=user).delete()` -/
  | all (user : ℕ)
deriving DecidableEq

def Revocation.user : Revocation → ℕ
  | .ifWithout user => user
  | .all user => user

/-- How far a call is. -/
inductive AccessPhase where
  | idle
  /-- A login whose password is right -/
  | loggingIn (user : ℕ)
  /-- A login that has seen an active occupancy -/
  | eligible (user : ℕ)
  /-- A request whose token was found -/
  | presented (user : ℕ)
  /-- A request that is authenticated -/
  | admitted (user : ℕ)
  | served (user : ℕ) (tenant : TenantContext)
  | refused (problem : AccessProblem)
  /-- `deactivate_occupancies` with the users it has read -/
  | collected (scope : ℕ → Occupancy → Bool) (users : List ℕ)
  | revoking (work : List Revocation)

/-- What a call has still to delete. -/
def AccessPhase.work : AccessPhase → List Revocation
  | .revoking work => work
  | _ => []

structure AccessState (C : Type) where
  /-- `User.is_active` -/
  isActive : ℕ → Bool
  occupancies : Table Occupancy
  /-- The users of the tokens -/
  tokens : Table ℕ
  call : C → AccessPhase

inductive AccessAction (C : Type) where
  | moveIn (user building : ℕ)
  | logIn (c : C) (user : ℕ)
  | checkLogin (c : C)
  | create (c : C)
  | deleteToken (pk : ℕ)
  | logoutAll (user : ℕ)
  | present (c : C) (pk : ℕ)
  | authenticate (c : C)
  | resolve (c : C) (header : Option Text)
  | saveOccupancy (c : C) (pk : ℕ) (active : Bool)
  | deactivateOccupancy (c : C) (pk : ℕ) (loaded : Bool)
  | collect (c : C) (scope : ℕ → Occupancy → Bool) (users : List ℕ)
  | updateAll (c : C)
  | saveUser (c : C) (user : ℕ) (active : Bool)
  | deactivateUser (c : C) (user : ℕ) (loaded : Bool)
  | revokeIfWithout (c : C) (user : ℕ)
  | revokeNext (c : C)
  | finish (c : C)
  | stop (c : C)
  | bulkOccupancies (scope : ℕ → Occupancy → Bool)
  | bulkUsers (scope : ℕ → Bool)

namespace AccessState

variable {C : Type} [DecidableEq C]

def empty : AccessState C where
  isActive _ := false
  occupancies := .empty
  tokens := .empty
  call _ := .idle

/-- `active_occupancies(user)` -/
def activeOccupancies (s : AccessState C) (user : ℕ) : List (ℕ × Occupancy) :=
  s.occupancies.select fun o => o.user = user && o.active

/-- `active_occupancies(user).exists()` -/
def hasOccupancy (s : AccessState C) (user : ℕ) : Bool :=
  s.occupancies.any fun o => o.user = user && o.active

def setCall (s : AccessState C) (c : C) (phase : AccessPhase) : AccessState C :=
  { s with call := Function.update s.call c phase }

def setActive (s : AccessState C) (pk : ℕ) (active : Bool) : AccessState C :=
  { s with occupancies := s.occupancies.update pk fun o => { o with active := active } }

/-- `queryset.update(active=False)` -/
def deactivateAll (s : AccessState C) (scope : ℕ → Occupancy → Bool) : AccessState C :=
  { s with occupancies := s.occupancies.mapRows fun pk o =>
      if scope pk o && o.active then { o with active := false } else o }

def setUser (s : AccessState C) (user : ℕ) (active : Bool) : AccessState C :=
  { s with isActive := Function.update s.isActive user active }

/-- `revoke_user_tokens` -/
def revokeAll (s : AccessState C) (user : ℕ) : AccessState C :=
  { s with tokens := s.tokens.remove fun _ u => u = user }

/-! ## Logins -/

/-- The look at the occupancies. SOURCE: api/views.py:160-176 -/
def checkLogin (s : AccessState C) (c : C) (user : ℕ) : AccessState C :=
  if s.hasOccupancy user then s.setCall c (.eligible user)
  else s.setCall c (.revoking [.ifWithout user])

/-- `AuthToken.objects.create(user=user)` -/
def create (s : AccessState C) (c : C) (user : ℕ) : AccessState C :=
  { s with tokens := s.tokens.insert user }.setCall c .idle

/-! ## Requests -/

/-- `super().authenticate(request)` with the token of a key. -/
def present (s : AccessState C) (c : C) (pk : ℕ) : Option (AccessState C) :=
  match s.tokens.get? pk with
  | some user => if s.isActive user then some (s.setCall c (.presented user)) else none
  | none => none

/-- `ResidentTokenAuthentication.authenticate`. SOURCE: authentication.py:25-37 -/
def authenticate (s : AccessState C) (c : C) (user : ℕ) : AccessState C :=
  if s.hasOccupancy user then s.setCall c (.admitted user)
  else s.setCall c (.revoking [.ifWithout user])

def resolve (int : Text → Option ℤ) (s : AccessState C) (c : C) (user : ℕ)
    (header : Option Text) : AccessState C :=
  match resolveApiOccupancy int (s.activeOccupancies user) header with
  | .ok selected => s.setCall c (.served user (.fromOccupancy selected.1 selected.2))
  | .error problem => s.setCall c (.refused problem)

/-! ## Deactivations -/

/-- `occupancy.save()` and its signal. SOURCE: signals.py:29-37 -/
def saveOccupancy (s : AccessState C) (c : C) (pk : ℕ) (active : Bool) :
    Option (AccessState C) :=
  (s.occupancies.get? pk).map fun o =>
    (s.setActive pk active).setCall c (.revoking (if active then [] else [.ifWithout o.user]))

/-- `deactivate_occupancy` on an occupancy that was `loaded` as active or not: the signal of the
save looks first, then the service does. SOURCE: services.py:81-96 -/
def deactivateOccupancy (s : AccessState C) (c : C) (pk : ℕ) (loaded : Bool) :
    Option (AccessState C) :=
  (s.occupancies.get? pk).map fun o =>
    if loaded then
      (s.setActive pk false).setCall c (.revoking [.ifWithout o.user, .ifWithout o.user])
    else s.setCall c (.revoking [.ifWithout o.user])

/-- The users of `deactivate_occupancies`, in any order. SOURCE: services.py:106-107 -/
def collect (s : AccessState C) (c : C) (scope : ℕ → Occupancy → Bool) (users : List ℕ) :
    Option (AccessState C) :=
  if users.Perm ((s.occupancies.rows.filter fun r => scope r.1 r.2 && r.2.active).map
      fun r => r.2.user).dedup then
    some (s.setCall c (.collected scope users))
  else none

/-- The update of `deactivate_occupancies`. SOURCE: services.py:108-111 -/
def updateAll (s : AccessState C) (c : C) (scope : ℕ → Occupancy → Bool) (users : List ℕ) :
    AccessState C :=
  (s.deactivateAll scope).setCall c (.revoking (users.map .ifWithout))

/-- `user.save()` and its signal. SOURCE: signals.py:19-26 -/
def saveUser (s : AccessState C) (c : C) (user : ℕ) (active : Bool) : AccessState C :=
  (s.setUser user active).setCall c (.revoking (if active then [] else [.all user]))

/-- `deactivate_user` on a user who was `loaded` as active or not. SOURCE: services.py:122-133 -/
def deactivateUser (s : AccessState C) (c : C) (user : ℕ) (loaded : Bool) : AccessState C :=
  if loaded then (s.setUser user false).setCall c (.revoking [.all user, .all user])
  else s.setCall c (.revoking [.all user])

/-- The next statement of a call that revokes. SOURCE: services.py:57-78 -/
def revokeNext (s : AccessState C) (c : C) : Revocation → List Revocation → AccessState C
  | .ifWithout user, rest =>
    if s.hasOccupancy user then s.setCall c (.revoking rest)
    else s.setCall c (.revoking (.all user :: rest))
  | .all user, rest => (s.revokeAll user).setCall c (.revoking rest)

/-! ## One statement -/

def step (int : Text → Option ℤ) (s : AccessState C) : AccessAction C → Option (AccessState C)
  | .moveIn user building =>
    some { s with occupancies := s.occupancies.insert ⟨user, building, true⟩ }
  | .logIn c user =>
    match s.call c with
    | .idle => if s.isActive user then some (s.setCall c (.loggingIn user)) else none
    | _ => none
  | .checkLogin c =>
    match s.call c with
    | .loggingIn user => some (s.checkLogin c user)
    | _ => none
  | .create c =>
    match s.call c with
    | .eligible user => some (s.create c user)
    | _ => none
  | .deleteToken pk => some { s with tokens := s.tokens.remove fun q _ => q = pk }
  | .logoutAll user => some (s.revokeAll user)
  | .present c pk =>
    match s.call c with
    | .idle => s.present c pk
    | _ => none
  | .authenticate c =>
    match s.call c with
    | .presented user => some (s.authenticate c user)
    | _ => none
  | .resolve c header =>
    match s.call c with
    | .admitted user => some (s.resolve int c user header)
    | _ => none
  | .saveOccupancy c pk active =>
    match s.call c with
    | .idle => s.saveOccupancy c pk active
    | _ => none
  | .deactivateOccupancy c pk loaded =>
    match s.call c with
    | .idle => s.deactivateOccupancy c pk loaded
    | _ => none
  | .collect c scope users =>
    match s.call c with
    | .idle => s.collect c scope users
    | _ => none
  | .updateAll c =>
    match s.call c with
    | .collected scope users => some (s.updateAll c scope users)
    | _ => none
  | .saveUser c user active =>
    match s.call c with
    | .idle => some (s.saveUser c user active)
    | _ => none
  | .deactivateUser c user loaded =>
    match s.call c with
    | .idle => some (s.deactivateUser c user loaded)
    | _ => none
  | .revokeIfWithout c user =>
    match s.call c with
    | .idle => some (s.setCall c (.revoking [.ifWithout user]))
    | _ => none
  | .revokeNext c =>
    match s.call c with
    | .revoking (next :: rest) => some (s.revokeNext c next rest)
    | _ => none
  | .finish c =>
    match s.call c with
    | .revoking [] | .served _ _ | .refused _ | .admitted _ => some (s.setCall c .idle)
    | _ => none
  | .stop c => some (s.setCall c .idle)
  | .bulkOccupancies scope => some (s.deactivateAll scope)
  | .bulkUsers scope =>
    some { s with isActive := fun user => if scope user then false else s.isActive user }

end AccessState

end LamTo.Model
