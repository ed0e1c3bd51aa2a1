import LamTo.Analysis.LoginSteps

/-!
# What a locked login tells

Two passwords are tried on an account whose bucket is locked. The API asks for the lock before it
looks at the password, so both are refused alike. The form of the workspace is validated first,
and validation checks the password: a wrong one is answered as always, a right one by the text
about too many attempts.

* the answer of each login on a locked bucket, as a function of the password;
* the two answers agree exactly when the form takes the passwords alike.

SOURCE: src/lamto/web/views/security.py:64-117, api/views.py:145-190
-/

set_option autoImplicit false

namespace LamTo.Analysis

open LamTo.Library LamTo.Model

section Told

variable (L : LoginConfig) (s : LoginState) (client : Client)

/-- Where the bucket of an identifier is locked, the two passwords are answered alike, and neither
logs in. The form may send an email beside its identifier. -/
def LockedLoginTellsNothing (identifier email p q : Text) : Prop :=
  (throttled s.buckets (webFailureDigest L client ⟨identifier, email, p⟩) s.now = true →
    (webLogin L s client ⟨identifier, email, p⟩).1 =
        (webLogin L s client ⟨identifier, email, q⟩).1 ∧
      ∀ user, (webLogin L s client ⟨identifier, email, p⟩).1 ≠ .loggedIn user) ∧
  (throttled s.buckets (apiDigest L client ⟨identifier, p⟩) s.now = true →
    (apiLogin L s client ⟨identifier, p⟩).1 = (apiLogin L s client ⟨identifier, q⟩).1 ∧
      ∀ user, (apiLogin L s client ⟨identifier, p⟩).1 ≠ .loggedIn user)

/-- The form takes two passwords alike: both fail as fields, or both are right or both wrong,
and a right one meets a locked bucket. -/
def TakenAlike (identifier p q : Text) : Prop :=
  fieldErrors p = fieldErrors q ∧
  (fieldErrors (cleanedUsername L identifier) = [] → fieldErrors p = [] →
    authenticate L s.users (cleanedUsername L identifier) p =
        authenticate L s.users (cleanedUsername L identifier) q ∧
      ∀ user, authenticate L s.users (cleanedUsername L identifier) p = .ok (some user) →
        throttled s.buckets
          (throttleDigest L (cleanedUsername L identifier) (clientIp L client)) s.now = true)

/-- What the form answers once the password has been checked. -/
def checkedResponse (asked : Text) : Except Text (Option ℕ) → WebResponse
  | .error _ => .serverError
  | .ok none => .form [] [] [invalidLoginMessage]
  | .ok (some user) =>
    if throttled s.buckets asked s.now then .form [] [] [tooManyMessage] else .loggedIn user

theorem webLogin_refused (request : WebLogin)
    (h : fieldErrors (cleanedUsername L request.username) ≠ [] ∨
      fieldErrors request.password ≠ []) :
    (webLogin L s client request).1 =
      .form (fieldErrors (cleanedUsername L request.username)) (fieldErrors request.password)
        [] := by
  simp only [webLogin, if_pos h]
  rfl

theorem webLogin_checked (request : WebLogin)
    (husername : fieldErrors (cleanedUsername L request.username) = [])
    (hpassword : fieldErrors request.password = []) :
    (webLogin L s client request).1 =
      checkedResponse s
        (throttleDigest L (cleanedUsername L request.username) (clientIp L client))
        (authenticate L s.users (cleanedUsername L request.username) request.password) := by
  have hfields : ¬ (fieldErrors (cleanedUsername L request.username) ≠ [] ∨
      fieldErrors request.password ≠ []) := by
    rw [husername, hpassword]
    simp
  simp only [webLogin, if_neg hfields]
  cases authenticate L s.users (cleanedUsername L request.username) request.password with
  | error e => rfl
  | ok found =>
    cases found with
    | none => rfl
    | some user =>
      simp only [formValid, checkedResponse]
      split <;> rfl

/-- What authentication says beside the password: the look-up does not depend on it. -/
theorem authenticate_lookUp (users : Table LoginUser) (username p q : Text) :
    (∃ e, authenticate L users username p = .error e ∧
      authenticate L users username q = .error e) ∨
    ∃ pk, (authenticate L users username p = .ok none ∨
        authenticate L users username p = .ok (some pk)) ∧
      (authenticate L users username q = .ok none ∨
        authenticate L users username q = .ok (some pk)) := by
  unfold authenticate
  cases lookUp L users username with
  | error e => exact .inl ⟨e, rfl, rfl⟩
  | ok found =>
    cases found with
    | none => exact .inr ⟨0, .inl rfl, .inl rfl⟩
    | some row =>
      refine .inr ⟨row.1, ?_, ?_⟩
      · dsimp only
        split
        · exact .inr rfl
        · exact .inl rfl
      · dsimp only
        split
        · exact .inr rfl
        · exact .inl rfl

theorem invalid_ne_tooMany : invalidLoginMessage ≠ tooManyMessage := by decide

/-- Checked passwords are answered alike, and none logs in, exactly when both are right or both
are wrong and a right one meets a locked bucket. -/
theorem checkedResponse_eq_iff (asked : Text) (users : Table LoginUser) (username p q : Text) :
    (checkedResponse s asked (authenticate L users username p) =
        checkedResponse s asked (authenticate L users username q) ∧
      ∀ user, checkedResponse s asked (authenticate L users username p) ≠ .loggedIn user) ↔
    authenticate L users username p = authenticate L users username q ∧
      ∀ user, authenticate L users username p = .ok (some user) →
        throttled s.buckets asked s.now = true := by
  have hmessages := invalid_ne_tooMany
  rcases authenticate_lookUp L users username p q with ⟨e, hp, hq⟩ | ⟨pk, hp, hq⟩
  · rw [hp, hq]
    simp [checkedResponse]
  · rcases hp with hp | hp <;> rcases hq with hq | hq <;> rw [hp, hq] <;>
      cases hlocked : throttled s.buckets asked s.now <;>
      simp [checkedResponse, hlocked, hmessages, hmessages.symm]

theorem webLogin_alike_iff (identifier email p q : Text) :
    ((webLogin L s client ⟨identifier, email, p⟩).1 =
        (webLogin L s client ⟨identifier, email, q⟩).1 ∧
      ∀ user, (webLogin L s client ⟨identifier, email, p⟩).1 ≠ .loggedIn user) ↔
    TakenAlike L s client identifier p q := by
  unfold TakenAlike
  by_cases husername : fieldErrors (cleanedUsername L identifier) = []
  · by_cases hp : fieldErrors p = []
    · by_cases hq : fieldErrors q = []
      · rw [webLogin_checked L s client ⟨identifier, email, p⟩ husername hp,
          webLogin_checked L s client ⟨identifier, email, q⟩ husername hq,
          checkedResponse_eq_iff]
        simp [husername, hp, hq]
      · have hne : fieldErrors p ≠ fieldErrors q := by
          rw [hp]
          exact fun h => hq h.symm
        rw [webLogin_refused L s client ⟨identifier, email, q⟩ (.inr hq),
          webLogin_checked L s client ⟨identifier, email, p⟩ husername hp]
        refine iff_of_false ?_ fun h => hne h.1
        rintro ⟨h, -⟩
        unfold checkedResponse at h
        split at h
        · cases h
        · exact hne (hp.trans (WebResponse.form.inj h).2.1)
        · split at h
          · exact hne (hp.trans (WebResponse.form.inj h).2.1)
          · cases h
    · rw [webLogin_refused L s client ⟨identifier, email, p⟩ (.inr hp)]
      constructor
      · rintro ⟨h, -⟩
        refine ⟨?_, fun _ h => absurd h hp⟩
        by_cases hq : fieldErrors q = []
        · rw [webLogin_checked L s client ⟨identifier, email, q⟩ husername hq] at h
          unfold checkedResponse at h
          split at h
          · cases h
          · exact absurd (WebResponse.form.inj h).2.1 hp
          · split at h
            · exact absurd (WebResponse.form.inj h).2.1 hp
            · cases h
        · rw [webLogin_refused L s client ⟨identifier, email, q⟩ (.inr hq)] at h
          exact (WebResponse.form.inj h).2.1
      · rintro ⟨h, -⟩
        have hq : fieldErrors q ≠ [] := h ▸ hp
        rw [webLogin_refused L s client ⟨identifier, email, q⟩ (.inr hq)]
        exact ⟨congrArg (fun errors => WebResponse.form _ errors []) h, fun user h => nomatch h⟩
  · rw [webLogin_refused L s client ⟨identifier, email, p⟩ (.inl husername),
      webLogin_refused L s client ⟨identifier, email, q⟩ (.inl husername)]
    simp [husername]

/-- The answer of the API to a locked bucket. -/
theorem apiLogin_locked (request : ApiLogin)
    (h : throttled s.buckets (apiDigest L client request) s.now = true) :
    (apiLogin L s client request).1 =
      if serializerErrors (strip L.unicode request.identifier) ≠ [] ∨
          serializerErrors request.password ≠ [] then
        .badRequest (serializerErrors (strip L.unicode request.identifier))
          (serializerErrors request.password)
      else .throttled := by
  unfold apiDigest at h
  simp only [apiLogin, h, if_true]
  split <;> rfl

theorem apiLogin_alike_iff (identifier p q : Text)
    (h : throttled s.buckets (apiDigest L client ⟨identifier, p⟩) s.now = true) :
    ((apiLogin L s client ⟨identifier, p⟩).1 = (apiLogin L s client ⟨identifier, q⟩).1 ∧
      ∀ user, (apiLogin L s client ⟨identifier, p⟩).1 ≠ .loggedIn user) ↔
    serializerErrors p = serializerErrors q := by
  have hq : throttled s.buckets (apiDigest L client ⟨identifier, q⟩) s.now = true := h
  rw [apiLogin_locked L s client _ h, apiLogin_locked L s client _ hq]
  dsimp only
  by_cases hid : serializerErrors (strip L.unicode identifier) = []
  · by_cases hperr : serializerErrors p = [] <;> by_cases hqerr : serializerErrors q = [] <;>
      simp [hid, hperr, hqerr, eq_comm]
  · simp [hid]

/-- **A locked login tells nothing exactly when** the form takes the two passwords alike and the
serializer of the API finds the same errors in them. -/
theorem locked_login_tells_nothing_iff (identifier email p q : Text) :
    LockedLoginTellsNothing L s client identifier email p q ↔
      (throttled s.buckets (webFailureDigest L client ⟨identifier, email, p⟩) s.now = true →
        TakenAlike L s client identifier p q) ∧
      (throttled s.buckets (apiDigest L client ⟨identifier, p⟩) s.now = true →
        serializerErrors p = serializerErrors q) := by
  refine and_congr ?_ ?_
  · exact imp_congr_right fun _ => webLogin_alike_iff L s client identifier email p q
  · exact imp_congr_right fun h => apiLogin_alike_iff L s client identifier p q h

end Told

/-! ## A locked form that tells -/

def sampleUser : LoginUser := ⟨some "an@lamto.vn".toList, none, "$secret".toList, true⟩

def sampleLogins : LoginState where
  now := 0
  users := Table.empty.insert sampleUser
  resident _ := true
  credentials := .empty
  buckets _ := none

def sampleClient : Client := ⟨[], "10.0.0.7".toList⟩

def sampleWebLogin (password : String) : WebLogin :=
  ⟨"an@lamto.vn".toList, [], password.toList⟩

/-- Five wrong passwords lock the bucket; the form then answers the right password otherwise than
a wrong one. -/
theorem locked_form_tells : ∃ s, Reaches (loginStep asciiLogin) Always sampleLogins s ∧
    ¬ LockedLoginTellsNothing asciiLogin s sampleClient "an@lamto.vn".toList [] "secret".toList
      "guess".toList := by
  obtain ⟨s, hreach, hlocked, hdiffer⟩ := exists_of_run (loginStep asciiLogin) sampleLogins
    (fun s =>
      throttled s.buckets (webFailureDigest asciiLogin sampleClient (sampleWebLogin "secret"))
          s.now = true ∧
        (webLogin asciiLogin s sampleClient (sampleWebLogin "secret")).1 ≠
          (webLogin asciiLogin s sampleClient (sampleWebLogin "guess")).1)
    (List.replicate 5 (.web sampleClient (sampleWebLogin "guess"))) (by decide +kernel)
  exact ⟨s, hreach, fun h => hdiffer (h.1 hlocked).1⟩

end LamTo.Analysis
