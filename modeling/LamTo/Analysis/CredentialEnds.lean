import LamTo.Analysis.LoginSteps
import LamTo.Library.Transition
import LamTo.Model.GateDevices

/-!
# Reader credentials end when they are told to

A step does one of four things to a credential (`RowStep`): nothing, a cap of its expiry by a
rotation of its device, a revocation, or it is new. So its expiry only comes closer and a
revocation stays, and what a rotation or a revocation promises is an invariant of everything
that follows:

* after a rotation every older credential of the device is revoked or expires by the end of the
  grace (`EndsBy`);
* after a revocation the credential is revoked;
* a credential without an expiry keeps none until its device is rotated.

SOURCE: src/lamto/gate/devices.py:46-95
-/

set_option autoImplicit false

namespace LamTo.Analysis

open LamTo.Library LamTo.Model

variable {L : LoginConfig} {defaultGrace : ℕ}

/-! ## What a step does to a credential -/

/-- The expiry is no later; having none is the latest. -/
def NoLater (a b : Option ℕ) : Prop := ∀ e, a = some e → ∃ e', b = some e' ∧ e' ≤ e

/-- One step, on one credential. -/
structure RowStep (c c' : GateDeviceCredential) : Prop where
  device : c'.device = c.device
  token : c'.tokenSha256 = c.tokenSha256
  expiry : NoLater c.expiresAt c'.expiresAt
  revoked : c.revokedAt ≠ none → c'.revokedAt ≠ none

theorem NoLater.refl (a : Option ℕ) : NoLater a a := fun e h => ⟨e, h, le_rfl⟩

theorem RowStep.refl (c : GateDeviceCredential) : RowStep c c :=
  ⟨rfl, rfl, NoLater.refl _, fun h => h⟩

/-- A rotation only brings an expiry closer, and leaves revoked credentials alone. -/
theorem capExpiry_step (device expiry : ℕ) (c : GateDeviceCredential) :
    RowStep c (capExpiry device expiry c) ∧ (capExpiry device expiry c).revokedAt = c.revokedAt := by
  unfold capExpiry
  split
  · next h =>
    refine ⟨⟨rfl, rfl, fun e he => ⟨expiry, rfl, ?_⟩, fun h => h⟩, rfl⟩
    have hlater := h.2.2
    rw [he] at hlater
    simp only [Option.all_some, decide_eq_true_eq] at hlater
    omega
  · exact ⟨RowStep.refl c, rfl⟩

/-- After the cap a credential of the device is revoked or expires by then. -/
theorem capExpiry_ends (device expiry : ℕ) (c : GateDeviceCredential) (h : c.device = device) :
    (capExpiry device expiry c).revokedAt ≠ none ∨
      ∃ e, (capExpiry device expiry c).expiresAt = some e ∧ e ≤ expiry := by
  unfold capExpiry
  split
  · exact Or.inr ⟨expiry, rfl, le_rfl⟩
  · next hnot =>
    by_cases hrevoked : c.revokedAt = none
    · right
      have hall : ¬ c.expiresAt.all (expiry < ·) = true := fun hall => hnot ⟨h, hrevoked, hall⟩
      cases he : c.expiresAt with
      | none =>
        rw [he] at hall
        exact absurd rfl hall
      | some e =>
        rw [he] at hall
        simp only [Option.all_some, decide_eq_true_eq] at hall
        exact ⟨e, rfl, by omega⟩
    · exact Or.inl hrevoked

/-- Another device's rotation changes nothing. -/
theorem capExpiry_other (device expiry : ℕ) (c : GateDeviceCredential) (h : c.device ≠ device) :
    capExpiry device expiry c = c := by
  unfold capExpiry
  rw [if_neg fun hmet => h hmet.1]

/-! ## What a call does to the table -/

theorem issueCredential_eq_ok (s s' : ReaderState) (device user pk : ℕ) (token : Text)
    (h : issueCredential L s device user token = .ok (pk, s')) :
    s.credentials.any (fun c => c.tokenSha256 = tokenDigest L token) = false ∧
      pk = s.credentials.next ∧ s' = { s with
        credentials := s.credentials.insert ⟨device, tokenDigest L token, s.now, user, none, none,
          none⟩ } := by
  simp only [issueCredential, bind_eq_ok, require_eq_ok, pure_eq_ok, Prod.mk.injEq] at h
  obtain ⟨_, hfresh, rfl, rfl⟩ := h
  exact ⟨hfresh, rfl, rfl⟩

theorem rotateCredential_eq_ok (s s' : ReaderState) (device user pk : ℕ) (graceHours : Option ℕ)
    (token : Text)
    (h : rotateCredential L defaultGrace s device user graceHours token = .ok (pk, s')) :
    issueCredential L { s with
      credentials := s.credentials.mapRows fun _ =>
        capExpiry device (s.now + graceHours.getD defaultGrace * hour) } device user token =
      .ok (pk, s') := by
  simp only [rotateCredential, rotationExpiry, bind_eq_ok, require_eq_ok, pure_eq_ok] at h
  obtain ⟨expiry, ⟨_, -, rfl⟩, h⟩ := h
  exact h

theorem authenticateReader_credentials (s : ReaderState) (ip token : Text) :
    (authenticateReader L s ip token).2.credentials = s.credentials ∧
      (authenticateReader L s ip token).2.now = s.now := by
  unfold authenticateReader
  dsimp only
  repeat' split
  all_goals exact ⟨rfl, rfl⟩

/-- The action is no rotation of the device. -/
def NotRotated (device : ℕ) (a : ReaderAction) : Prop :=
  ∀ user graceHours token, a ≠ .rotate device user graceHours token

/-- The action is no revocation of the credential. -/
def NotRevoked (pk : ℕ) (a : ReaderAction) : Prop := ∀ user, a ≠ .revoke pk user

/-- **What a step does to a credential that exists.** -/
theorem rows_step (s s' : ReaderState) (a : ReaderAction)
    (h : readerStep L defaultGrace s a = some s') (pk : ℕ) (c : GateDeviceCredential)
    (hc : s.credentials.get? pk = some c) :
    ∃ c', s'.credentials.get? pk = some c' ∧ RowStep c c' ∧
      (NotRotated c.device a → c'.expiresAt = c.expiresAt) ∧
      (NotRevoked pk a → c'.revokedAt = c.revokedAt) := by
  have hsame : ∃ c', s.credentials.get? pk = some c' ∧ RowStep c c' ∧
      (NotRotated c.device a → c'.expiresAt = c.expiresAt) ∧
      (NotRevoked pk a → c'.revokedAt = c.revokedAt) :=
    ⟨c, hc, RowStep.refl c, fun _ => rfl, fun _ => rfl⟩
  cases a with
  | tick elapsed =>
    cases h
    exact hsame
  | setActive device active =>
    cases h
    exact hsame
  | authenticate ip token =>
    cases h
    rw [(authenticateReader_credentials s ip token).1]
    exact hsame
  | issue device user token =>
    obtain ⟨⟨new, s₁⟩, hok, rfl⟩ := Option.map_eq_some_iff.mp h
    obtain ⟨-, -, rfl⟩ := issueCredential_eq_ok s s₁ device user new token
      (eq_ok_of_toOption _ _ hok)
    exact ⟨c, Table.get?_insert_of_some _ _ _ pk hc, RowStep.refl c, fun _ => rfl, fun _ => rfl⟩
  | rotate device user graceHours token =>
    obtain ⟨⟨new, s₁⟩, hok, rfl⟩ := Option.map_eq_some_iff.mp h
    have hissue := rotateCredential_eq_ok s s₁ device user new graceHours token
      (eq_ok_of_toOption _ _ hok)
    obtain ⟨-, -, rfl⟩ := issueCredential_eq_ok _ s₁ device user new token hissue
    obtain ⟨hstep, hrevoked⟩ := capExpiry_step device
      (s.now + graceHours.getD defaultGrace * hour) c
    refine ⟨_, Table.get?_insert_of_some _ _ _ pk (by rw [Table.get?_mapRows, hc]; rfl), hstep,
      fun hother => ?_, fun _ => hrevoked⟩
    have hne : c.device ≠ device := by
      rintro rfl
      exact hother user graceHours token rfl
    rw [capExpiry_other _ _ c hne]
  | revoke credential user =>
    cases h
    by_cases heq : pk = credential
    · subst heq
      refine ⟨{ c with revokedAt := some s.now, revokedBy := some user }, ?_, ?_, fun _ => rfl,
        fun hnot => absurd rfl (hnot user)⟩
      · rw [revokeCredential, Table.get?_update_self, hc]
        rfl
      · exact ⟨rfl, rfl, NoLater.refl _, fun _ => by simp⟩
    · refine ⟨c, ?_, RowStep.refl c, fun _ => rfl, fun _ => rfl⟩
      rw [revokeCredential, Table.get?_update_ne _ _ _ _ heq, hc]

/-- A digest that one credential has is nobody else's, ever after. -/
def OwnsDigest (s : ReaderState) (pk : ℕ) (digest : Text) : Prop :=
  (∃ c, s.credentials.get? pk = some c ∧ c.tokenSha256 = digest) ∧
    ∀ q c, s.credentials.get? q = some c → c.tokenSha256 = digest → q = pk

theorem OwnsDigest.issue {s s' : ReaderState} {pk : ℕ} {digest : Text}
    (h : OwnsDigest s pk digest) (device user new : ℕ) (token : Text)
    (hissue : issueCredential L s device user token = .ok (new, s')) : OwnsDigest s' pk digest := by
  obtain ⟨hfresh, -, rfl⟩ := issueCredential_eq_ok s s' device user new token hissue
  obtain ⟨⟨c, hc, hdigest⟩, hunique⟩ := h
  refine ⟨⟨c, Table.get?_insert_of_some _ _ _ pk hc, hdigest⟩, fun q b hb hbd => ?_⟩
  rw [Table.get?_insert] at hb
  split at hb
  · cases hb
    have hnot := (Table.any_eq_false _ _).mp hfresh pk c hc
    rw [hdigest] at hnot
    exact absurd hbd.symm (of_decide_eq_false hnot)
  · exact hunique q b hb hbd

/-- The credential that a call issues owns the digest of its token. -/
theorem OwnsDigest.of_issue (s s' : ReaderState) (device user pk : ℕ) (token : Text)
    (h : issueCredential L s device user token = .ok (pk, s')) :
    OwnsDigest s' pk (tokenDigest L token) := by
  obtain ⟨hfresh, rfl, rfl⟩ := issueCredential_eq_ok s s' device user pk token h
  refine ⟨⟨_, Table.get?_insert_self _ _, rfl⟩, fun q b hb hbd => ?_⟩
  rw [Table.get?_insert] at hb
  split at hb
  · next hq => exact hq
  · exact absurd hbd (of_decide_eq_false ((Table.any_eq_false _ _).mp hfresh q b hb))

/-- A change of the table that keeps keys and digests. -/
theorem OwnsDigest.of_map {s s' : ReaderState} {pk : ℕ} {digest : Text}
    (h : OwnsDigest s pk digest)
    (hsame : ∀ q, (s'.credentials.get? q).map (fun c => c.tokenSha256) =
      (s.credentials.get? q).map fun c => c.tokenSha256) : OwnsDigest s' pk digest := by
  obtain ⟨⟨c, hc, hdigest⟩, hunique⟩ := h
  have hpk := hsame pk
  rw [hc, Option.map_some] at hpk
  obtain ⟨c', hc', hdigest'⟩ := Option.map_eq_some_iff.mp hpk
  refine ⟨⟨c', hc', hdigest'.trans hdigest⟩, fun q b hb hbd => ?_⟩
  have hq := hsame q
  rw [hb, Option.map_some] at hq
  obtain ⟨b', hb', hdigest''⟩ := Option.map_eq_some_iff.mp hq.symm
  exact hunique q b' hb' (hdigest''.trans hbd)

theorem OwnsDigest.step {s s' : ReaderState} {pk : ℕ} {digest : Text}
    (h : OwnsDigest s pk digest) (a : ReaderAction)
    (hstep : readerStep L defaultGrace s a = some s') : OwnsDigest s' pk digest := by
  cases a with
  | tick elapsed =>
    cases hstep
    exact h
  | setActive device active =>
    cases hstep
    exact h
  | authenticate ip token =>
    cases hstep
    exact h.of_map fun q => by rw [(authenticateReader_credentials s ip token).1]
  | issue device user token =>
    obtain ⟨⟨new, s₁⟩, hok, rfl⟩ := Option.map_eq_some_iff.mp hstep
    exact h.issue device user new token (eq_ok_of_toOption _ _ hok)
  | rotate device user graceHours token =>
    obtain ⟨⟨new, s₁⟩, hok, rfl⟩ := Option.map_eq_some_iff.mp hstep
    have hissue := rotateCredential_eq_ok s s₁ device user new graceHours token
      (eq_ok_of_toOption _ _ hok)
    refine OwnsDigest.issue (h.of_map fun q => ?_) device user new token hissue
    rw [Table.get?_mapRows, Option.map_map]
    cases s.credentials.get? q with
    | none => rfl
    | some c => exact congrArg some (capExpiry_step device _ c).1.token
  | revoke credential user =>
    cases hstep
    exact h.of_map fun q => Table.get?_update_map s.credentials credential
      (fun c => { c with revokedAt := some s.now, revokedBy := some user })
      (fun c => c.tokenSha256) (fun _ => rfl) q

/-! ## What an authentication says -/

theorem authenticated_cases (s : ReaderState) (ip token : Text) (pk : ℕ)
    (h : (authenticateReader L s ip token).1 = .authenticated pk) :
    ∃ c, s.credentials.get? pk = some c ∧
      (s.devices.get? c.device).any (fun d => d.active) = true ∧ c.revokedAt = none ∧
      ∀ e, c.expiresAt = some e → s.now < e := by
  unfold authenticateReader at h
  dsimp only at h
  split at h
  · cases h
  split at h
  · cases h
  next found c hfirst =>
  split at h
  · cases h
  next hactive =>
  split at h
  · cases h
  next hrevoked =>
  split at h
  · cases h
  next hvalid =>
  have hpk : found = pk := by
    split at h <;> exact GateResponse.authenticated.inj h
  subst hpk
  have hget := (Table.first?_eq_some _ _ _ _ hfirst).1
  rw [not_not] at hrevoked
  refine ⟨c, hget, by simpa using hactive, hrevoked, fun e he => ?_⟩
  simp only [GateDeviceCredential.isValid, hrevoked, he] at hvalid
  simpa using hvalid

/-- A credential that is not revoked and has no expiry is taken, outside the throttle. -/
theorem authenticates_of_usable (s : ReaderState) (ip token : Text) (pk : ℕ)
    (c : GateDeviceCredential) (hc : s.credentials.get? pk = some c)
    (howns : OwnsDigest s pk (tokenDigest L token)) (hdigest : c.tokenSha256 = tokenDigest L token)
    (hfree : throttled s.buckets (throttleDigest L gateThrottleAccount ip) s.now = false)
    (hactive : (s.devices.get? c.device).any (fun d => d.active) = true)
    (hrevoked : c.revokedAt = none) (hexpiry : c.expiresAt = none) :
    (authenticateReader L s ip token).1 = .authenticated pk := by
  have hfirst := Table.first?_eq_of_unique s.credentials
    (fun c => decide (c.tokenSha256 = tokenDigest L token)) pk c hc (decide_eq_true hdigest)
    fun q b hb htest => howns.2 q b hb (of_decide_eq_true htest)
  have hvalid : c.isValid s.now = true := by
    simp [GateDeviceCredential.isValid, hrevoked, hexpiry]
  unfold authenticateReader
  simp only [hfree, hfirst, hactive, hrevoked, hvalid, Bool.false_eq_true, if_false, Bool.not_true,
    ne_eq, not_true_eq_false]
  split <;> rfl

/-! ## Histories -/

/-- The credential is revoked, or expires by a time. -/
def EndsBy (s : ReaderState) (pk deadline : ℕ) : Prop :=
  ∃ c, s.credentials.get? pk = some c ∧
    (c.revokedAt ≠ none ∨ ∃ e, c.expiresAt = some e ∧ e ≤ deadline)

theorem EndsBy.step {s s' : ReaderState} {pk deadline : ℕ} (h : EndsBy s pk deadline)
    (a : ReaderAction) (hstep : readerStep L defaultGrace s a = some s') : EndsBy s' pk deadline := by
  obtain ⟨c, hc, hends⟩ := h
  obtain ⟨c', hc', hrow, -, -⟩ := rows_step s s' a hstep pk c hc
  refine ⟨c', hc', ?_⟩
  rcases hends with hrevoked | ⟨e, he, hle⟩
  · exact Or.inl (hrow.revoked hrevoked)
  · obtain ⟨e', he', hearlier⟩ := hrow.expiry e he
    exact Or.inr ⟨e', he', by omega⟩

theorem EndsBy.before {s : ReaderState} {pk deadline : ℕ} (h : EndsBy s pk deadline)
    (ip token : Text) (hauth : (authenticateReader L s ip token).1 = .authenticated pk) :
    s.now < deadline := by
  obtain ⟨c, hc, hends⟩ := h
  obtain ⟨c', hc', -, hlive, hexpiry⟩ := authenticated_cases s ip token pk hauth
  cases hc.symm.trans hc'
  rcases hends with hrevoked | ⟨e, he, hle⟩
  · exact absurd hlive hrevoked
  · have hnow := hexpiry e he
    omega

/-- The credential is revoked. -/
def IsRevoked (s : ReaderState) (pk : ℕ) : Prop :=
  ∃ c, s.credentials.get? pk = some c ∧ c.revokedAt ≠ none

theorem IsRevoked.step {s s' : ReaderState} {pk : ℕ} (h : IsRevoked s pk) (a : ReaderAction)
    (hstep : readerStep L defaultGrace s a = some s') : IsRevoked s' pk := by
  obtain ⟨c, hc, hrevoked⟩ := h
  obtain ⟨c', hc', hrow, -, -⟩ := rows_step s s' a hstep pk c hc
  exact ⟨c', hc', hrow.revoked hrevoked⟩

/-- The credential of a device is neither revoked nor given an expiry, and has its digest for
itself. -/
def Lasting (device pk : ℕ) (digest : Text) (s : ReaderState) : Prop :=
  OwnsDigest s pk digest ∧ ∃ c, s.credentials.get? pk = some c ∧ c.device = device ∧
    c.tokenSha256 = digest ∧ c.revokedAt = none ∧ c.expiresAt = none

theorem Lasting.of_issue (s s' : ReaderState) (device user pk : ℕ) (token : Text)
    (h : issueCredential L s device user token = .ok (pk, s')) :
    Lasting device pk (tokenDigest L token) s' := by
  refine ⟨OwnsDigest.of_issue s s' device user pk token h, ?_⟩
  obtain ⟨-, rfl, rfl⟩ := issueCredential_eq_ok s s' device user pk token h
  exact ⟨_, Table.get?_insert_self _ _, rfl, rfl, rfl, rfl⟩

theorem Lasting.step {s s' : ReaderState} {device pk : ℕ} {digest : Text}
    (h : Lasting device pk digest s) (a : ReaderAction) (hrotated : NotRotated device a)
    (hrevoked : NotRevoked pk a) (hstep : readerStep L defaultGrace s a = some s') :
    Lasting device pk digest s' := by
  obtain ⟨howns, c, hc, rfl, rfl, hlive, hexpiry⟩ := h
  obtain ⟨c', hc', hrow, hkept, hlives⟩ := rows_step s s' a hstep pk c hc
  exact ⟨howns.step a hstep, c', hc', hrow.device, hrow.token, (hlives hrevoked).trans hlive,
    (hkept hrotated).trans hexpiry⟩

/-- **Reader credentials end when told**: no later than the end of any rotation's grace, never
later by a rotation, at once by a revocation or with their device; and the newest one of a
device lasts until then. -/
theorem credentials_end_when_told (L : LoginConfig) (defaultGrace : ℕ) :
    (∀ (s s₁ s₂ : ReaderState) (device user new old : ℕ) (graceHours : Option ℕ)
        (token ip shown : Text) (c : GateDeviceCredential),
      rotateCredential L defaultGrace s device user graceHours token = .ok (new, s₁) →
      s.credentials.get? old = some c → c.device = device →
      Reaches (readerStep L defaultGrace) Always s₁ s₂ →
      (authenticateReader L s₂ ip shown).1 = .authenticated old →
      s₂.now < s.now + graceHours.getD defaultGrace * hour) ∧
    (∀ (s s₁ : ReaderState) (device user new pk : ℕ) (graceHours : Option ℕ) (token : Text)
        (c : GateDeviceCredential),
      rotateCredential L defaultGrace s device user graceHours token = .ok (new, s₁) →
      s.credentials.get? pk = some c →
      ∃ c', s₁.credentials.get? pk = some c' ∧ NoLater c.expiresAt c'.expiresAt ∧
        c'.revokedAt = c.revokedAt) ∧
    (∀ (s s₂ : ReaderState) (pk user : ℕ) (ip shown : Text),
      (s.credentials.get? pk).isSome = true →
      Reaches (readerStep L defaultGrace) Always (revokeCredential s pk user) s₂ →
      (authenticateReader L s₂ ip shown).1 ≠ .authenticated pk) ∧
    (∀ (s : ReaderState) (pk : ℕ) (ip shown : Text),
      (authenticateReader L s ip shown).1 = .authenticated pk →
      ∃ c, s.credentials.get? pk = some c ∧
        (s.devices.get? c.device).any (fun d => d.active) = true) ∧
    (∀ (s s₁ s₂ : ReaderState) (device user pk : ℕ) (graceHours : Option ℕ) (token ip : Text),
      (issueCredential L s device user token = .ok (pk, s₁) ∨
        rotateCredential L defaultGrace s device user graceHours token = .ok (pk, s₁)) →
      Reaches (readerStep L defaultGrace) (fun _ a => NotRotated device a ∧ NotRevoked pk a) s₁ s₂ →
      (s₂.devices.get? device).any (fun d => d.active) = true →
      throttled s₂.buckets (throttleDigest L gateThrottleAccount ip) s₂.now = false →
      (authenticateReader L s₂ ip token).1 = .authenticated pk) := by
  refine ⟨?_, ?_, ?_, ?_, ?_⟩
  · intro s s₁ s₂ device user new old graceHours token ip shown c hrotate hc hdevice hreach hauth
    have hends : EndsBy s₁ old (s.now + graceHours.getD defaultGrace * hour) := by
      have hissue := rotateCredential_eq_ok s s₁ device user new graceHours token hrotate
      obtain ⟨-, -, rfl⟩ := issueCredential_eq_ok _ s₁ device user new token hissue
      exact ⟨_, Table.get?_insert_of_some _ _ _ old (by rw [Table.get?_mapRows, hc]; rfl),
        capExpiry_ends device _ c hdevice⟩
    have hlater := hreach.preserves
      (fun u => EndsBy u old (s.now + graceHours.getD defaultGrace * hour))
      (fun _ a _ hu _ hstep => hu.step a hstep) hends
    exact hlater.before ip shown hauth
  · intro s s₁ device user new pk graceHours token c hrotate hc
    have hissue := rotateCredential_eq_ok s s₁ device user new graceHours token hrotate
    obtain ⟨-, -, rfl⟩ := issueCredential_eq_ok _ s₁ device user new token hissue
    obtain ⟨hstep, hrevoked⟩ := capExpiry_step device
      (s.now + graceHours.getD defaultGrace * hour) c
    exact ⟨_, Table.get?_insert_of_some _ _ _ pk (by rw [Table.get?_mapRows, hc]; rfl),
      hstep.expiry, hrevoked⟩
  · intro s s₂ pk user ip shown hsome hreach hauth
    have hrevoked : IsRevoked (revokeCredential s pk user) pk := by
      obtain ⟨c, hc⟩ := Option.isSome_iff_exists.mp hsome
      refine ⟨{ c with revokedAt := some s.now, revokedBy := some user }, ?_, by simp⟩
      rw [revokeCredential, Table.get?_update_self, hc]
      rfl
    obtain ⟨c, hc, hset⟩ := hreach.preserves (fun u => IsRevoked u pk)
      (fun _ a _ hu _ hstep => hu.step a hstep) hrevoked
    obtain ⟨c', hc', -, hlive, -⟩ := authenticated_cases s₂ ip shown pk hauth
    cases hc.symm.trans hc'
    exact hset hlive
  · intro s pk ip shown hauth
    obtain ⟨c, hc, hactive, -, -⟩ := authenticated_cases s ip shown pk hauth
    exact ⟨c, hc, hactive⟩
  · intro s s₁ s₂ device user pk graceHours token ip hissued hreach hactive hfree
    have hfresh : Lasting device pk (tokenDigest L token) s₁ := by
      rcases hissued with hissue | hrotate
      · exact Lasting.of_issue s s₁ device user pk token hissue
      · exact Lasting.of_issue _ s₁ device user pk token
          (rotateCredential_eq_ok s s₁ device user pk graceHours token hrotate)
    obtain ⟨howns, c, hc, hdevice, hdigest, hlive, hexpiry⟩ := hreach.preserves
      (Lasting device pk (tokenDigest L token))
      (fun _ a _ hu hok hstep => hu.step a hok.1 hok.2 hstep) hfresh
    exact authenticates_of_usable s₂ ip token pk c hc howns hdigest hfree (hdevice ▸ hactive) hlive
      hexpiry

/-- A gate reader in service, with the credential it got first. -/
def sampleReaders : ReaderState where
  now := 1000000 * second
  devices := Table.empty.insert ⟨true, none⟩
  credentials := Table.empty.insert
    ⟨1, tokenDigest asciiLogin "first".toList, 1000000 * second, 7, none, none, none⟩
  buckets _ := none

/-- After a rotation with a day of grace both credentials are taken, the old one for a day. -/
theorem credentials_end_when_told_day : ∃ s, ∃ new : ℕ,
    rotateCredential asciiLogin 48 sampleReaders 1 7 (some 24) "second".toList = .ok (new, s) ∧
    (authenticateReader asciiLogin s "10.0.0.9".toList "second".toList).1 = .authenticated new ∧
    s.now < sampleReaders.now + 24 * hour := by
  have hrun : (rotateCredential asciiLogin 48 sampleReaders 1 7 (some 24)
      "second".toList).toOption.any (fun p =>
        (p.2.devices.get? 1).any (fun d => d.active) &&
        !throttled p.2.buckets (throttleDigest asciiLogin gateThrottleAccount "10.0.0.9".toList)
          p.2.now &&
        (authenticateReader asciiLogin p.2 "10.0.0.9".toList "first".toList).1 =
          .authenticated 1) = true := by
    decide +kernel
  obtain ⟨⟨new, s⟩, hok, hfacts⟩ := (Option.any_eq_true _ _).mp hrun
  have hrotate := eq_ok_of_toOption _ _ hok
  simp only [Bool.and_eq_true, Bool.not_eq_true', decide_eq_true_eq] at hfacts
  obtain ⟨⟨hactive, hfree⟩, hold⟩ := hfacts
  obtain ⟨hends, -, -, -, hnewest⟩ := credentials_end_when_told asciiLogin 48
  exact ⟨s, new, hrotate,
    hnewest _ s s 1 7 new (some 24) _ _ (Or.inr hrotate) Relation.ReflTransGen.refl hactive hfree,
    hends _ s s 1 7 new 1 (some 24) _ _ _ _ hrotate rfl rfl Relation.ReflTransGen.refl hold⟩

end LamTo.Analysis
