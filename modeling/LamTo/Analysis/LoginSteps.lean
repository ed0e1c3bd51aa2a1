import LamTo.Analysis.QueuedEvidence
import LamTo.Model.Login

/-!
# What an attempt to log in does

An attempt ends in one of few ways, and each of them leaves all buckets but one as they are. The
lemmas here say so for the three logins; the results on the throttle are case analyses over them.

* a failure is recorded in the bucket of the account as it was typed (workspace) or spelled out
  (API), and a reader has one bucket for each address;
* a login resets the bucket it asked, which was not locked;
* everything else leaves the buckets alone.

SOURCE: src/lamto/accounts/security.py, web/views/security.py, api/views.py:145-190,
gate/devices.py:73-95
-/

set_option autoImplicit false

namespace LamTo.Analysis

open LamTo.Library LamTo.Model

/-! ## Buckets -/

@[simp] theorem recordAuthFailure_self (buckets : Buckets) (digest : Text) (now : ℕ) :
    recordAuthFailure buckets digest now digest =
      some (((buckets digest).getD ⟨0, some now, none⟩).fail now) := Function.update_self _ _ _

theorem recordAuthFailure_other (buckets : Buckets) (digest other : Text) (now : ℕ)
    (h : other ≠ digest) : recordAuthFailure buckets digest now other = buckets other :=
  Function.update_of_ne h _ _

theorem resetAuthThrottle_other (buckets : Buckets) (digest other : Text) (h : other ≠ digest) :
    resetAuthThrottle buckets digest other = buckets other := Function.update_of_ne h _ _

/-! ## The three logins -/

section Logins

variable (L : LoginConfig) (s : LoginState)

/-- The bucket that a failure of the form counts in. -/
def webFailureDigest (client : Client) (request : WebLogin) : Text :=
  throttleDigest L request.account (clientIp L client)

/-- The bucket that the form asks before it logs in. -/
def webAskedDigest (client : Client) (request : WebLogin) : Text :=
  throttleDigest L (cleanedUsername L request.username) (clientIp L client)

/-- The bucket of a login through the API. -/
def apiDigest (client : Client) (request : ApiLogin) : Text :=
  throttleDigest L (canonicalizeLoginIdentifier L (strip L.unicode request.identifier))
    (clientIp L client)

/-- The bucket of a gate reader. -/
def gateDigest (ip : Text) : Text := throttleDigest L gateThrottleAccount ip

/-- **The login of the workspace**: a failure is recorded, or nothing happens, or the visitor is
logged in and the bucket was not locked. -/
theorem webLogin_cases (client : Client) (request : WebLogin) :
    (∃ username password general, webLogin L s client request =
      (.form username password general, s.recordFailure (webFailureDigest L client request))) ∨
    webLogin L s client request = (.serverError, s) ∨
    ∃ user, throttled s.buckets (webAskedDigest L client request) s.now = false ∧
      webLogin L s client request =
        (.loggedIn user, s.reset (webAskedDigest L client request)) := by
  simp only [webLogin]
  split
  · exact .inl ⟨_, _, _, rfl⟩
  · split
    · exact .inr (.inl rfl)
    · exact .inl ⟨_, _, _, rfl⟩
    · next user _ =>
      unfold formValid
      dsimp only
      split
      · exact .inl ⟨_, _, _, rfl⟩
      · next hfree => exact .inr (.inr ⟨user, Bool.not_eq_true _ ▸ hfree, rfl⟩)

/-- **The login of the API** looks at the lock before anything changes. -/
theorem apiLogin_cases (client : Client) (request : ApiLogin) :
    ((apiLogin L s client request).2 = s ∧
      ∀ user, (apiLogin L s client request).1 ≠ .loggedIn user) ∨
    throttled s.buckets (apiDigest L client request) s.now = false ∧
      (apiLogin L s client request =
          (.unauthorized, s.recordFailure (apiDigest L client request)) ∨
        ∃ user, apiLogin L s client request =
          (.loggedIn user, s.reset (apiDigest L client request))) := by
  simp only [apiLogin]
  split
  · exact .inl ⟨rfl, fun user h => nomatch h⟩
  · split
    · exact .inl ⟨rfl, fun user h => nomatch h⟩
    · next hfree =>
      have hopen := Bool.not_eq_true _ ▸ hfree
      split
      · exact .inl ⟨rfl, fun user h => nomatch h⟩
      · exact .inr ⟨hopen, .inl rfl⟩
      · split
        · exact .inr ⟨hopen, .inr ⟨_, rfl⟩⟩
        · exact .inr ⟨hopen, .inl rfl⟩

/-- **A gate reader** is asked for the lock first. -/
theorem authenticateDevice_cases (ip token : Text) :
    authenticateDevice L s ip token = (.throttled, s) ∨
    throttled s.buckets (gateDigest L ip) s.now = false ∧
      ((authenticateDevice L s ip token).2 = s.recordFailure (gateDigest L ip) ∧
          (∀ pk, (authenticateDevice L s ip token).1 ≠ .authenticated pk) ∨
        ∃ pk, authenticateDevice L s ip token =
          (.authenticated pk, s.reset (gateDigest L ip))) := by
  simp only [authenticateDevice]
  split
  · exact .inl rfl
  · next hfree =>
    refine .inr ⟨Bool.not_eq_true _ ▸ hfree, ?_⟩
    split
    · exact .inl ⟨rfl, fun pk h => nomatch h⟩
    · split
      · exact .inl ⟨rfl, fun pk h => nomatch h⟩
      · split
        · exact .inl ⟨rfl, fun pk h => nomatch h⟩
        · split
          · exact .inl ⟨rfl, fun pk h => nomatch h⟩
          · exact .inr ⟨_, rfl⟩

end Logins

/-! ## The tables restricted to ASCII -/

def asciiLower (c : Char) : Char :=
  if 65 ≤ c.toNat ∧ c.toNat ≤ 90 then Char.ofNat (c.toNat + 32) else c

theorem toNat_asciiLower (c : Char) : (asciiLower c).toNat =
    if 65 ≤ c.toNat ∧ c.toNat ≤ 90 then c.toNat + 32 else c.toNat := by
  unfold asciiLower
  split
  · next h =>
    have hvalid : (c.toNat + 32).isValidChar := .inl (by omega)
    rw [Char.ofNat, dif_pos hvalid]
    rfl
  · rfl

theorem isDigit_iff_toNat (c : Char) : c.isDigit = true ↔ 48 ≤ c.toNat ∧ c.toNat ≤ 57 := by
  simp only [Char.isDigit, Bool.and_eq_true, decide_eq_true_eq, ge_iff_le, UInt32.le_iff_toNat_le]
  rfl

theorem eq_iff_toNat (c d : Char) : c = d ↔ c.toNat = d.toNat := Char.toNat_inj.symm

/-- An upper-case letter and what it is lowered to are no digits, no blanks and no `@`. -/
theorem asciiLower_class (c : Char) : (asciiLower c).isDigit = c.isDigit ∧
    (asciiLower c).isWhitespace = c.isWhitespace ∧ (c.isDigit = true → asciiLower c = c) ∧
    asciiLower (asciiLower c) = asciiLower c := by
  have hto := toNat_asciiLower c
  refine ⟨?_, ?_, ?_, ?_⟩
  · rw [Bool.eq_iff_iff, isDigit_iff_toNat, isDigit_iff_toNat, hto]
    split <;> omega
  · rw [Bool.eq_iff_iff]
    simp only [Char.isWhitespace, Bool.or_eq_true, decide_eq_true_eq, eq_iff_toNat, hto,
      Char.reduceToNat]
    split <;> omega
  · intro h
    rw [isDigit_iff_toNat] at h
    rw [eq_iff_toNat, hto, if_neg (by omega)]
  · rw [eq_iff_toNat, toNat_asciiLower]
    refine if_neg ?_
    rw [hto]
    split <;> omega

/-- What the login takes from the tables, on ASCII; a stored password is kept with a mark. -/
def asciiLogin : LoginConfig where
  unicode := asciiUnicode
  hashing := sha256
  lower t := t.map asciiLower
  nfkc t := t
  fold t := t.map Char.toUpper
  checkPassword stored password := stored = '$' :: password
  lower_lower t := by
    rw [List.map_map]
    exact List.map_congr_left fun c _ => (asciiLower_class c).2.2.2
  lower_at a b := by
    rw [List.map_append, List.map_cons]
    rfl
  lower_strip t := by
    have hspace : asciiUnicode.isSpace ∘ asciiLower = asciiUnicode.isSpace := by
      funext c
      exact (asciiLower_class c).2.1
    simp only [strip, List.dropWhile_map, List.rdropWhile, ← List.map_reverse, hspace]
  lower_decimal t h := by
    have hdigit : ∀ c, (asciiUnicode.decimal c).isSome = c.isDigit := by
      intro c
      simp only [asciiUnicode]
      split
      · next h => exact h.symm
      · next h => exact (Bool.not_eq_true _ ▸ h).symm
    have hall : ∀ c ∈ t, c.isDigit = true := by
      simp only [hdigit, List.all_eq_true, List.mem_map, forall_exists_index, and_imp,
        forall_apply_eq_imp_iff₂, (asciiLower_class _).1, or_self] at h
      exact h
    exact (List.map_congr_left fun c hc => (asciiLower_class c).2.2.1 (hall c hc)).trans
      (List.map_id' t)
  decimal_not_space c h := by
    simp only [asciiUnicode] at h ⊢
    split at h
    · next hc =>
      rw [isDigit_iff_toNat] at hc
      simp only [Char.isWhitespace, Bool.or_eq_false_iff, decide_eq_false_iff_not, eq_iff_toNat,
        Char.reduceToNat]
      omega
    · cases h

end LamTo.Analysis
