import LamTo.Library.Table
import LamTo.Library.Transition
import Mathlib.Logic.Function.Basic

/-!
# The tokens of the resident API

The end of `LoginView.post`, once the password is right: the tokens of the user are read, those
beyond the four newest are deleted one by one, and a token is created. No transaction and no lock
holds these statements together, so a step is one statement of one login, and other logins and
logouts may come between any two.

The order of the tokens is that of their times, newest first; tokens of one time come in any
order. The key of a token and its expiry are left out: a token that is found expired is deleted as
by a logout.

SOURCE: src/lamto/api/views.py:91, 182-200
-/

set_option autoImplicit false

namespace LamTo.Model

open LamTo.Library

structure AuthToken where
  user : ℕ
  created : ℕ
deriving DecidableEq

/-- `TOKEN_CAP_PER_USER` -/
def tokenCapPerUser : ℕ := 5

/-- How far a login is: `order` is the list it read, `stale` what it has still to delete. -/
inductive TokenLogin where
  | idle
  | evicting (user : ℕ) (order stale : List ℕ)
deriving DecidableEq

structure TokenState (C : Type) where
  now : ℕ
  tokens : Table AuthToken
  login : C → TokenLogin

inductive TokenAction (C : Type) where
  | tick (elapsed : ℕ)
  | read (c : C) (user : ℕ) (order : List ℕ)
  | evict (c : C)
  | create (c : C)
  | stop (c : C)
  | logout (pk : ℕ)
  | logoutAll (user : ℕ)

namespace TokenState

variable {C : Type} [DecidableEq C]

def empty : TokenState C where
  now := 0
  tokens := .empty
  login _ := .idle

/-- `AuthToken.objects.filter(user=user)` -/
def tokensOf (s : TokenState C) (user : ℕ) : List (ℕ × AuthToken) :=
  s.tokens.select fun t => t.user = user

/-- `order_by("-created")`: the keys of the tokens of a user, newest first. -/
def newestFirst (s : TokenState C) (user : ℕ) (order : List ℕ) : Prop :=
  order.Perm ((s.tokensOf user).map Prod.fst) ∧
    order.Pairwise fun p q => ((s.tokens.get? q).map (·.created)).getD 0 ≤
      ((s.tokens.get? p).map (·.created)).getD 0

instance (s : TokenState C) (user : ℕ) (order : List ℕ) : Decidable (s.newestFirst user order) :=
  inferInstanceAs (Decidable (_ ∧ _))

def setLogin (s : TokenState C) (c : C) (login : TokenLogin) : TokenState C :=
  { s with login := Function.update s.login c login }

def deleteToken (s : TokenState C) (pk : ℕ) : TokenState C :=
  { s with tokens := s.tokens.remove fun q _ => q = pk }

/-- One statement. SOURCE: api/views.py:182-187 -/
def step (s : TokenState C) : TokenAction C → Option (TokenState C)
  | .tick elapsed => some { s with now := s.now + elapsed }
  | .read c user order =>
    if s.login c = .idle ∧ s.newestFirst user order then
      some (s.setLogin c (.evicting user order (order.drop (tokenCapPerUser - 1))))
    else none
  | .evict c =>
    match s.login c with
    | .evicting user order (pk :: rest) =>
      some ((s.deleteToken pk).setLogin c (.evicting user order rest))
    | _ => none
  | .create c =>
    match s.login c with
    | .evicting user _ [] =>
      some ({ s with tokens := s.tokens.insert ⟨user, s.now⟩ }.setLogin c .idle)
    | _ => none
  -- A request that is broken off leaves what its statements did.
  | .stop c => some (s.setLogin c .idle)
  | .logout pk => some (s.deleteToken pk)
  | .logoutAll user => some { s with tokens := s.tokens.remove fun _ t => t.user = user }

end TokenState

end LamTo.Model
