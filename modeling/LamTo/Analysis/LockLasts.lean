import LamTo.Analysis.LockedLogin

/-!
# How long a lock lasts

The window of a bucket opens with its first failure, the lock with its fifth, and both last
fifteen minutes: the window ends first. The API and the gate record no failure while the bucket
is locked. The form of the workspace does, and a failure after the end of the window opens a new
window and drops the lock with the old one.

* a lock never reaches further than one window ahead, so a later failure of the same window only
  moves it on;
* a failure of the form on a locked bucket whose window is over drops the lock;
* without such a failure a lock lasts, and no login gets past it.

SOURCE: src/lamto/accounts/security.py:37-86, web/views/security.py:64-117, gate/devices.py:73-95
-/

set_option autoImplicit false

namespace LamTo.Analysis

open LamTo.Library LamTo.Model

/-! ## One failure -/

/-- A failure of the running window keeps the lock or moves it on. -/
theorem AuthThrottleBucket.fail_kept (b : AuthThrottleBucket) (now u : ℕ)
    (hwindow : b.windowOver now = false) (hlocked : b.lockedUntil = some u)
    (hbound : u ≤ now + throttleWindow) :
    ∃ u', (b.fail now).lockedUntil = some u' ∧ u ≤ u' := by
  unfold AuthThrottleBucket.fail
  simp only [hwindow, Bool.false_eq_true, if_false]
  split
  · exact ⟨now + throttleWindow, rfl, hbound⟩
  · exact ⟨u, hlocked, Nat.le_refl u⟩

/-- A failure after the window drops the lock. -/
theorem AuthThrottleBucket.fail_dropped (b : AuthThrottleBucket) (now : ℕ)
    (hwindow : b.windowOver now = true) : (b.fail now).lockedUntil = none := by
  unfold AuthThrottleBucket.fail
  simp only [hwindow, if_true]
  rw [if_neg (show ¬ throttleMaxFailures ≤ 1 by decide)]

theorem AuthThrottleBucket.fail_locked_le (b : AuthThrottleBucket) (now u : ℕ)
    (hbefore : ∀ u, b.lockedUntil = some u → u ≤ now + throttleWindow)
    (h : (b.fail now).lockedUntil = some u) : u ≤ now + throttleWindow := by
  cases hwindow : b.windowOver now with
  | true =>
    rw [AuthThrottleBucket.fail_dropped b now hwindow] at h
    cases h
  | false =>
    simp only [AuthThrottleBucket.fail, hwindow, Bool.false_eq_true, if_false] at h
    split at h
    · cases h
      exact Nat.le_refl _
    · exact hbefore u h

/-! ## Runs -/

section Runs

variable (L : LoginConfig)

/-- No lock reaches further than one window ahead. -/
def LocksBounded (s : LoginState) : Prop :=
  ∀ digest b u, s.buckets digest = some b → b.lockedUntil = some u → u ≤ s.now + throttleWindow

theorem LocksBounded.recordFailure {s : LoginState} (h : LocksBounded s) (digest : Text) :
    LocksBounded (s.recordFailure digest) := by
  intro other b u hb hu
  by_cases hother : other = digest
  · subst hother
    change recordAuthFailure s.buckets other s.now other = some b at hb
    rw [recordAuthFailure_self] at hb
    cases hb
    refine AuthThrottleBucket.fail_locked_le _ s.now u ?_ hu
    intro u hu
    cases hbucket : s.buckets other with
    | none =>
      rw [hbucket] at hu
      cases hu
    | some b =>
      rw [hbucket] at hu
      exact h other b u hbucket hu
  · have hsame := (recordAuthFailure_other s.buckets digest other s.now hother).symm.trans hb
    exact h other b u hsame hu

theorem LocksBounded.reset {s : LoginState} (h : LocksBounded s) (digest : Text) :
    LocksBounded (s.reset digest) := by
  intro other b u hb hu
  by_cases hother : other = digest
  · subst hother
    have hreset := (Function.update_self _ _ _).symm.trans hb
    obtain ⟨c, -, rfl⟩ := Option.map_eq_some_iff.mp hreset
    cases hu
  · exact h other b u ((resetAuthThrottle_other s.buckets digest other hother).symm.trans hb) hu

theorem locksBounded_step (s t : LoginState) (action : LoginAction) (h : LocksBounded s)
    (hstep : loginStep L s action = some t) : LocksBounded t := by
  cases action with
  | tick elapsed =>
    cases hstep
    intro digest b u hb hu
    have hle := h digest b u hb hu
    show u ≤ s.now + elapsed + throttleWindow
    omega
  | web client request =>
    cases hstep
    rcases webLogin_cases L s client request with ⟨_, _, _, hform⟩ | herror | ⟨_, -, hlogin⟩
    · rw [hform]
      exact h.recordFailure _
    · rw [herror]
      exact h
    · rw [hlogin]
      exact h.reset _
  | api client request =>
    cases hstep
    rcases apiLogin_cases L s client request with ⟨hsame, -⟩ | ⟨-, hfailed | ⟨_, hlogin⟩⟩
    · rw [hsame]
      exact h
    · rw [hfailed]
      exact h.recordFailure _
    · rw [hlogin]
      exact h.reset _
  | gate ip token =>
    cases hstep
    rcases authenticateDevice_cases L s ip token with hlocked | ⟨-, ⟨hfailed, -⟩ | ⟨_, hlogin⟩⟩
    · rw [hlocked]
      exact h
    · rw [hfailed]
      exact h.recordFailure _
    · rw [hlogin]
      exact h.reset _

/-- The form does not log in: a field is wrong, or the password, or the bucket it asks is
locked. -/
def FormFails (s : LoginState) (client : Client) (request : WebLogin) : Prop :=
  fieldErrors (cleanedUsername L request.username) ≠ [] ∨ fieldErrors request.password ≠ [] ∨
    authenticate L s.users (cleanedUsername L request.username) request.password = .ok none ∨
    ∃ user, authenticate L s.users (cleanedUsername L request.username) request.password =
        .ok (some user) ∧
      throttled s.buckets (webAskedDigest L client request) s.now = true

theorem formFails_of_form (s : LoginState) (client : Client) (request : WebLogin)
    (username password general : List Text)
    (h : (webLogin L s client request).1 = .form username password general) :
    FormFails L s client request := by
  by_cases husername : fieldErrors (cleanedUsername L request.username) = []
  · by_cases hpassword : fieldErrors request.password = []
    · rw [webLogin_checked L s client request husername hpassword] at h
      unfold checkedResponse at h
      split at h
      · cases h
      · next hauth => exact .inr (.inr (.inl hauth))
      · next user hauth =>
        split at h
        · next hlocked => exact .inr (.inr (.inr ⟨user, hauth, hlocked⟩))
        · cases h
    · exact .inr (.inl hpassword)
  · exact .inl husername

theorem webLogin_of_formFails (s : LoginState) (client : Client) (request : WebLogin)
    (h : FormFails L s client request) :
    (webLogin L s client request).2 = s.recordFailure (webFailureDigest L client request) := by
  simp only [webLogin]
  split
  · rfl
  · next hfields =>
    simp only [not_or, not_not] at hfields
    rcases h with hu | hp | hauth | ⟨user, hauth, hlocked⟩
    · exact absurd hfields.1 hu
    · exact absurd hfields.2 hp
    · rw [hauth]
      rfl
    · rw [hauth]
      simp only [formValid]
      rw [if_pos (by exact hlocked)]
      rfl

/-- The step is no failure of the form in a locked bucket whose window is over. -/
def NoLateFailure (s : LoginState) : LoginAction → Prop
  | .web client request => FormFails L s client request →
      ∀ b, s.buckets (webFailureDigest L client request) = some b →
        b.locked s.now = true → b.windowOver s.now = false
  | _ => True

/-- The bucket is locked until `u` at least. -/
def LockedUntil (s : LoginState) (digest : Text) (u : ℕ) : Prop :=
  ∃ b u', s.buckets digest = some b ∧ b.lockedUntil = some u' ∧ u ≤ u'

theorem LockedUntil.throttled {s : LoginState} {digest : Text} {u : ℕ}
    (h : LockedUntil s digest u) (hnow : s.now < u) :
    LamTo.Model.throttled s.buckets digest s.now = true := by
  obtain ⟨b, u', hb, hu, hle⟩ := h
  simp only [LamTo.Model.throttled, hb, Option.any_some, AuthThrottleBucket.locked, hu,
    decide_eq_true_eq]
  omega

theorem LockedUntil.recordFailure {s : LoginState} {digest : Text} {u : ℕ}
    (h : LockedUntil s digest u) (hbounded : LocksBounded s) (hnow : s.now < u) (other : Text)
    (hwindow : other = digest → ∀ b, s.buckets digest = some b → b.locked s.now = true →
      b.windowOver s.now = false) : LockedUntil (s.recordFailure other) digest u := by
  obtain ⟨b, u', hb, hu, hle⟩ := h
  by_cases hother : digest = other
  · subst hother
    have hlocked : b.locked s.now = true := by
      simp only [AuthThrottleBucket.locked, hu, Option.any_some, decide_eq_true_eq]
      omega
    obtain ⟨v, hv, hle'⟩ := AuthThrottleBucket.fail_kept b s.now u'
      (hwindow rfl b hb hlocked) hu (hbounded digest b u' hb hu)
    refine ⟨b.fail s.now, v, ?_, hv, Nat.le_trans hle hle'⟩
    show recordAuthFailure s.buckets digest s.now digest = _
    rw [recordAuthFailure_self, hb, Option.getD_some]
  · exact ⟨b, u', (recordAuthFailure_other s.buckets other digest s.now hother).trans hb, hu, hle⟩

theorem LockedUntil.reset {s : LoginState} {digest : Text} {u : ℕ}
    (h : LockedUntil s digest u) (hnow : s.now < u) (other : Text)
    (hopen : LamTo.Model.throttled s.buckets other s.now = false) :
    LockedUntil (s.reset other) digest u := by
  have hother : digest ≠ other := by
    rintro rfl
    rw [h.throttled hnow] at hopen
    cases hopen
  obtain ⟨b, u', hb, hu, hle⟩ := h
  exact ⟨b, u', (resetAuthThrottle_other s.buckets other digest hother).trans hb, hu, hle⟩

/-- **One step keeps a lock** that lies in the future. -/
theorem lockedUntil_step (s t : LoginState) (action : LoginAction) (digest : Text) (u : ℕ)
    (hbounded : LocksBounded s) (h : LockedUntil s digest u) (hnow : s.now < u)
    (hok : NoLateFailure L s action) (hstep : loginStep L s action = some t) :
    LockedUntil t digest u := by
  cases action with
  | tick elapsed =>
    cases hstep
    exact h
  | web client request =>
    cases hstep
    rcases webLogin_cases L s client request with ⟨_, _, _, hform⟩ | herror | ⟨_, hopen, hlogin⟩
    · have hfails : FormFails L s client request :=
        formFails_of_form L s client request _ _ _ (by rw [hform])
      rw [hform]
      refine h.recordFailure hbounded hnow _ ?_
      rintro rfl b hb hlocked
      exact hok hfails b hb hlocked
    · rw [herror]
      exact h
    · rw [hlogin]
      exact h.reset hnow _ hopen
  | api client request =>
    cases hstep
    rcases apiLogin_cases L s client request with ⟨hsame, -⟩ | ⟨hopen, hfailed | ⟨_, hlogin⟩⟩
    · rw [hsame]
      exact h
    · rw [hfailed]
      refine h.recordFailure hbounded hnow _ ?_
      rintro rfl
      rw [h.throttled hnow] at hopen
      cases hopen
    · rw [hlogin]
      exact h.reset hnow _ hopen
  | gate ip token =>
    cases hstep
    rcases authenticateDevice_cases L s ip token with
      hlocked | ⟨hopen, ⟨hfailed, -⟩ | ⟨_, hlogin⟩⟩
    · rw [hlocked]
      exact h
    · rw [hfailed]
      refine h.recordFailure hbounded hnow _ ?_
      rintro rfl
      rw [h.throttled hnow] at hopen
      cases hopen
    · rw [hlogin]
      exact h.reset hnow _ hopen

theorem now_step (s t : LoginState) (action : LoginAction)
    (hstep : loginStep L s action = some t) : s.now ≤ t.now := by
  cases action with
  | tick elapsed =>
    cases hstep
    exact Nat.le_add_right _ _
  | web client request =>
    cases hstep
    rcases webLogin_cases L s client request with ⟨_, _, _, h⟩ | h | ⟨_, -, h⟩ <;> rw [h] <;>
      exact Nat.le_refl _
  | api client request =>
    cases hstep
    rcases apiLogin_cases L s client request with ⟨h, -⟩ | ⟨-, h | ⟨_, h⟩⟩ <;> rw [h] <;>
      exact Nat.le_refl _
  | gate ip token =>
    cases hstep
    rcases authenticateDevice_cases L s ip token with h | ⟨-, ⟨h, -⟩ | ⟨_, h⟩⟩ <;> rw [h] <;>
      exact Nat.le_refl _

/-- No login of any kind gets past a locked bucket. -/
theorem no_login_of_locked (s : LoginState) (digest : Text) (u : ℕ)
    (h : LockedUntil s digest u) (hnow : s.now < u) :
    (∀ client request user, webAskedDigest L client request = digest →
      (webLogin L s client request).1 ≠ .loggedIn user) ∧
    (∀ client request user, apiDigest L client request = digest →
      (apiLogin L s client request).1 ≠ .loggedIn user) ∧
    ∀ ip token credential, gateDigest L ip = digest →
      (authenticateDevice L s ip token).1 ≠ .authenticated credential := by
  have hlocked := h.throttled hnow
  refine ⟨?_, ?_, ?_⟩
  · rintro client request user rfl
    rcases webLogin_cases L s client request with ⟨_, _, _, h⟩ | h | ⟨_, hopen, -⟩
    · rw [h]
      exact fun h => nomatch h
    · rw [h]
      exact fun h => nomatch h
    · rw [hlocked] at hopen
      cases hopen
  · rintro client request user rfl
    rcases apiLogin_cases L s client request with ⟨-, h⟩ | ⟨hopen, -⟩
    · exact h user
    · rw [hlocked] at hopen
      cases hopen
  · rintro ip token credential rfl
    rcases authenticateDevice_cases L s ip token with h | ⟨hopen, -⟩
    · rw [h]
      exact fun h => nomatch h
    · rw [hlocked] at hopen
      cases hopen

/-- **A lock lasts** in every run without a late failure of the form: from a state in which a
failure has locked a bucket until `u`, the bucket is locked until `u` at least, and no login on it
succeeds before. -/
theorem lock_lasts (start s t : LoginState) (hstart : ∀ digest, start.buckets digest = none)
    (hhistory : Reaches (loginStep L) Always start s)
    (hreach : Reaches (loginStep L) (NoLateFailure L) s t) (digest : Text)
    (b : AuthThrottleBucket) (u : ℕ) (hb : s.buckets digest = some b)
    (hu : b.lockedUntil = some u) (hbefore : t.now < u) :
    LockedUntil t digest u ∧
    (∀ client request user, webAskedDigest L client request = digest →
      (webLogin L t client request).1 ≠ .loggedIn user) ∧
    (∀ client request user, apiDigest L client request = digest →
      (apiLogin L t client request).1 ≠ .loggedIn user) ∧
    ∀ ip token credential, gateDigest L ip = digest →
      (authenticateDevice L t ip token).1 ≠ .authenticated credential := by
  have hbounded : LocksBounded s := by
    refine hhistory.preserves LocksBounded
      (fun v action w hv _ hstep => locksBounded_step L v w action hv hstep) ?_
    intro digest b u hb
    rw [hstart] at hb
    cases hb
  have hlasts : LocksBounded t ∧ (t.now < u → LockedUntil t digest u) := by
    refine hreach.preserves (fun v => LocksBounded v ∧ (v.now < u → LockedUntil v digest u)) ?_
      ⟨hbounded, fun _ => ⟨b, u, hb, hu, Nat.le_refl u⟩⟩
    rintro v action w ⟨hv, hlocked⟩ hok hstep
    refine ⟨locksBounded_step L v w action hv hstep, fun hnow => ?_⟩
    have hearlier := Nat.lt_of_le_of_lt (now_step L v w action hstep) hnow
    exact lockedUntil_step L v w action digest u hv (hlocked hearlier) hearlier hok hstep
  exact ⟨hlasts.2 hbefore, no_login_of_locked L t digest u (hlasts.2 hbefore) hbefore⟩

/-- **A late failure of the form drops the lock**: the condition of `lock_lasts` is needed at
every step. -/
theorem late_failure_drops_lock (s : LoginState) (client : Client) (request : WebLogin)
    (hlate : ¬ NoLateFailure L s (.web client request)) :
    ∃ b, (webLogin L s client request).2.buckets (webFailureDigest L client request) = some b ∧
      b.lockedUntil = none := by
  simp only [NoLateFailure, Classical.not_imp, not_forall, Bool.not_eq_false] at hlate
  obtain ⟨hfails, b, hb, -, hwindow⟩ := hlate
  refine ⟨b.fail s.now, ?_, AuthThrottleBucket.fail_dropped b s.now hwindow⟩
  rw [webLogin_of_formFails L s client request hfails]
  show recordAuthFailure s.buckets _ s.now _ = _
  rw [recordAuthFailure_self, hb, Option.getD_some]

end Runs

/-! ## A lock that does not last -/

def sampleApiLogin (password : String) : ApiLogin := ⟨"an@lamto.vn".toList, password.toList⟩

/-- One wrong password, and four more when the window is nearly over. -/
def lockedLate : List LoginAction :=
  .api sampleClient (sampleApiLogin "guess") :: .tick (800 * second) ::
    List.replicate 4 (.api sampleClient (sampleApiLogin "guess"))

def sampleDigest : Text := apiDigest asciiLogin sampleClient (sampleApiLogin "guess")

theorem lock_lasts_sample : ∃ s t, Reaches (loginStep asciiLogin) Always sampleLogins s ∧
    Reaches (loginStep asciiLogin) Always s t ∧ t.now = 850 * second ∧
    LockedUntil t sampleDigest (1700 * second) ∧
    (apiLogin asciiLogin t sampleClient (sampleApiLogin "secret")).1 ≠ .loggedIn 1 := by
  have hrun : ((run (loginStep asciiLogin) sampleLogins lockedLate).any fun s =>
      decide ((s.buckets sampleDigest).any (·.lockedUntil = some (1700 * second)) = true ∧
        ((run (loginStep asciiLogin) s [.api sampleClient (sampleApiLogin "guess"),
          .tick (50 * second)]).any fun t => decide (t.now = 850 * second)) = true)) = true := by
    decide +kernel
  obtain ⟨s, hreach, hlocked, hlater⟩ := exists_of_run (loginStep asciiLogin) sampleLogins _
    lockedLate hrun
  obtain ⟨t, ht, hnow⟩ := (Option.any_eq_true _ _).mp hlater
  obtain ⟨b, hb, hu⟩ := (Option.any_eq_true _ _).mp hlocked
  have hnow : t.now = 850 * second := of_decide_eq_true hnow
  have hreach' : Reaches (loginStep asciiLogin) (NoLateFailure asciiLogin) s t := by
    refine reaches_of_run_where _ ?_ ht
    intro action haction u
    simp only [List.mem_cons, List.not_mem_nil, or_false] at haction
    rcases haction with rfl | rfl <;> trivial
  have hlasts := lock_lasts asciiLogin sampleLogins s t (fun _ => rfl) hreach hreach' sampleDigest b
    (1700 * second) hb (of_decide_eq_true hu) (by rw [hnow]; decide)
  exact ⟨s, t, hreach, hreach'.always, hnow, hlasts.1, hlasts.2.2.1 sampleClient _ 1 rfl⟩

/-- A wrong password in the form, after the window and before the end of the lock, and the right
password is taken at once. -/
theorem late_failure_unlocks : ∃ s t, Reaches (loginStep asciiLogin) Always sampleLogins s ∧
    Reaches (loginStep asciiLogin) Always s t ∧
    (∃ b, s.buckets sampleDigest = some b ∧ b.lockedUntil = some (1700 * second)) ∧
    t.now < 1700 * second ∧
    (apiLogin asciiLogin t sampleClient (sampleApiLogin "secret")).1 = .loggedIn 1 := by
  have hrun : ((run (loginStep asciiLogin) sampleLogins lockedLate).any fun s =>
      decide ((s.buckets sampleDigest).any (·.lockedUntil = some (1700 * second)) = true ∧
        ((run (loginStep asciiLogin) s [.tick (101 * second),
          .web sampleClient (sampleWebLogin "guess")]).any fun t =>
          decide (t.now < 1700 * second ∧
            (apiLogin asciiLogin t sampleClient (sampleApiLogin "secret")).1 =
              .loggedIn 1)) = true)) = true := by
    decide +kernel
  obtain ⟨s, hreach, hlocked, hlater⟩ := exists_of_run (loginStep asciiLogin) sampleLogins _
    lockedLate hrun
  obtain ⟨t, ht, hlogin⟩ := exists_of_run (loginStep asciiLogin) s _ _ hlater
  obtain ⟨b, hb, hu⟩ := (Option.any_eq_true _ _).mp hlocked
  exact ⟨s, t, hreach, ht, ⟨b, hb, of_decide_eq_true hu⟩, hlogin⟩

end LamTo.Analysis
