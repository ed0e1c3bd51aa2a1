import LamTo.Model.Registry
import Mathlib.Tactic.Basic

/-!
# What the registry keeps

One lemma says what a transaction can do to the storage (`apply_cases`); everything else
is read off it. A record is written once, by a call whose signer was authorised and whose
signature recovered to that signer, and never changes; authorisations change by the
owner's hand only.

SOURCE: chain/src/EvidenceRegistry.sol
-/

set_option autoImplicit false

namespace LamTo.Analysis

open LamTo.Library LamTo.Model

variable (E : Evm)

/-! ## One transaction -/

/-- What `recordEvidence` checked before it wrote `r` under `eventId`: the whole guard of
the function, the signature included. -/
structure Accepted (s : Registry) (tx : Transaction) (eventId : Bytes32) (r : Record)
    (signature : Bytes) : Prop where
  call : tx.call = .recordEvidence eventId r.payloadHash r.previousHash r.eventType r.signer
    signature
  eventId_ne : eventId ≠ 0
  payloadHash_ne : r.payloadHash ≠ 0
  eventType_mem : 1 ≤ r.eventType.toNat ∧ r.eventType.toNat ≤ 11
  absent : ¬ s.Present eventId
  authorised : s.authorizedSigners r.signer = true
  recovered : recover E (hashEvidence E eventId r.payloadHash r.previousHash r.eventType)
    signature = .ok r.signer
  recordedAt : r.recordedAt = BitVec.ofNat 64 tx.time.seconds

theorem recordEvidence_eq_ok (s t : Registry) (time : BlockTime)
    (eventId payloadHash previousHash : Bytes32) (eventType : BitVec 8) (signer : Address)
    (signature : Bytes)
    (h : s.recordEvidence E time eventId payloadHash previousHash eventType signer signature
      = .ok t) :
    eventId ≠ 0 ∧ payloadHash ≠ 0 ∧ (1 ≤ eventType.toNat ∧ eventType.toNat ≤ 11) ∧
      (s.records eventId).recordedAt = 0 ∧ s.authorizedSigners signer = true ∧
      recover E (hashEvidence E eventId payloadHash previousHash eventType) signature
        = .ok signer ∧
      t = { s with
        records := Function.update s.records eventId
          ⟨payloadHash, previousHash, eventType, signer, BitVec.ofNat 64 time.seconds⟩ } := by
  simp only [Registry.recordEvidence, bind_eq_ok, require_eq_ok, pure_eq_ok] at h
  obtain ⟨_, hid, _, hpayload, _, htype, _, habsent, _, hauth, recovered, hrec, _, hsigner, ht⟩ := h
  subst hsigner
  exact ⟨hid, hpayload, htype, habsent, hauth, hrec, ht.symm⟩

theorem setAuthorizedSigner_eq_ok (s t : Registry) (sender signer : Address) (authorized : Bool)
    (h : s.setAuthorizedSigner sender signer authorized = .ok t) :
    s.owner = sender ∧ signer ≠ 0 ∧
      t = { s with
        authorizedSigners := Function.update s.authorizedSigners signer authorized } := by
  simp only [Registry.setAuthorizedSigner, Registry.checkOwner, bind_eq_ok, require_eq_ok,
    pure_eq_ok] at h
  obtain ⟨_, howner, _, hsigner, ht⟩ := h
  exact ⟨howner, hsigner, ht.symm⟩

/-- The two calls of `Ownable` write the owner and nothing else. -/
theorem ownable_eq_ok (s t : Registry) (sender newOwner : Address)
    (h : s.transferOwnership sender newOwner = .ok t ∨ s.renounceOwnership sender = .ok t) :
    t = { s with owner := t.owner } := by
  rcases h with h | h
  · simp only [Registry.transferOwnership, Registry.checkOwner, bind_eq_ok, require_eq_ok,
      pure_eq_ok] at h
    obtain ⟨_, _, _, _, rfl⟩ := h
    rfl
  · simp only [Registry.renounceOwnership, Registry.checkOwner, bind_eq_ok, require_eq_ok,
      pure_eq_ok] at h
    obtain ⟨_, _, rfl⟩ := h
    rfl

/-- The owner authorises or revokes a signer. -/
def Authorises (s : Registry) (tx : Transaction) (signer : Address) (authorized : Bool) : Prop :=
  tx.call = .setAuthorizedSigner signer authorized ∧ tx.sender = s.owner ∧ signer ≠ 0

/-- **Everything a transaction can do**: write one absent record that passed every check,
set one authorisation by the owner's hand, or leave both mappings alone. -/
theorem apply_cases (s : Registry) (tx : Transaction) :
    (∃ eventId r signature, Accepted E s tx eventId r signature ∧
      s.apply E tx = { s with records := Function.update s.records eventId r }) ∨
    (∃ signer authorized, Authorises s tx signer authorized ∧
      s.apply E tx = { s with
        authorizedSigners := Function.update s.authorizedSigners signer authorized }) ∨
    s.apply E tx = { s with owner := (s.apply E tx).owner } := by
  unfold Registry.apply
  split
  · next t ht =>
    unfold Registry.exec at ht
    split at ht
    · next signer authorized hcall =>
      obtain ⟨howner, hsigner, rfl⟩ := setAuthorizedSigner_eq_ok s t _ _ _ ht
      exact .inr (.inl ⟨signer, authorized, ⟨hcall, howner.symm, hsigner⟩, rfl⟩)
    · next eventId payloadHash previousHash eventType signer signature hcall =>
      obtain ⟨hid, hpayload, htype, habsent, hauth, hrec, rfl⟩ :=
        recordEvidence_eq_ok E s t _ _ _ _ _ _ _ ht
      refine .inl ⟨eventId, _, signature, ?_, rfl⟩
      exact ⟨hcall, hid, hpayload, htype, by simpa [Registry.Present] using habsent, hauth, hrec,
        rfl⟩
    · next newOwner hcall => exact .inr (.inr (ownable_eq_ok s t _ newOwner (.inl ht)))
    · exact .inr (.inr (ownable_eq_ok s t _ 0 (.inr ht)))
  · exact .inr (.inr rfl)

/-- What was accepted is present afterwards: the block's time is not zero in 64 bits. -/
theorem Accepted.recordedAt_ne {s : Registry} {tx : Transaction} {eventId : Bytes32}
    {r : Record} {signature : Bytes} (h : Accepted E s tx eventId r signature) :
    r.recordedAt ≠ 0 := by
  rw [h.recordedAt]
  intro hzero
  have hmod := congrArg BitVec.toNat hzero
  rw [BitVec.toNat_ofNat, Nat.mod_eq_of_lt tx.time.bounded] at hmod
  exact absurd hmod (Nat.ne_of_gt tx.time.positive)

/-- **A present record survives a transaction unchanged.** -/
theorem apply_records_of_present (s : Registry) (tx : Transaction) (eventId : Bytes32)
    (h : s.Present eventId) : (s.apply E tx).records eventId = s.records eventId := by
  rcases apply_cases E s tx with ⟨id, r, signature, haccepted, heq⟩ | ⟨_, _, _, heq⟩ | heq
  · have hne : eventId ≠ id := by
      rintro rfl
      exact haccepted.absent h
    rw [heq]
    exact Function.update_of_ne hne _ _
  · rw [heq]
  · rw [heq]

/-- A record that appears was accepted by that transaction. -/
theorem accepted_of_apply_present (s : Registry) (tx : Transaction) (eventId : Bytes32)
    (habsent : ¬ s.Present eventId) (hpresent : (s.apply E tx).Present eventId) :
    ∃ signature, Accepted E s tx eventId ((s.apply E tx).records eventId) signature := by
  rcases apply_cases E s tx with ⟨id, r, signature, haccepted, heq⟩ | ⟨_, _, _, heq⟩ | heq
  · by_cases hid : eventId = id
    · subst hid
      refine ⟨signature, ?_⟩
      rw [heq]
      simpa using haccepted
    · rw [heq] at hpresent
      simp only [Registry.Present, Function.update_of_ne hid] at hpresent
      exact absurd hpresent habsent
  · rw [heq] at hpresent
    exact absurd hpresent habsent
  · rw [heq] at hpresent
    exact absurd hpresent habsent

/-- **Authorisations change by the owner's call only.** -/
theorem authorises_of_apply_ne (s : Registry) (tx : Transaction) (signer : Address)
    (h : (s.apply E tx).authorizedSigners signer ≠ s.authorizedSigners signer) :
    Authorises s tx signer ((s.apply E tx).authorizedSigners signer) := by
  rcases apply_cases E s tx with ⟨_, _, _, _, heq⟩ | ⟨a, authorized, hauth, heq⟩ | heq
  · rw [heq] at h
    exact absurd rfl h
  · by_cases ha : signer = a
    · subst ha
      rw [heq]
      simpa using hauth
    · rw [heq] at h
      exact absurd (Function.update_of_ne ha _ _) h
  · rw [heq] at h
    exact absurd rfl h

/-! ## Sequences of transactions -/

theorem applyAll_append (s : Registry) (txs more : List Transaction) :
    s.applyAll E (txs ++ more) = (s.applyAll E txs).applyAll E more := by
  induction txs generalizing s with
  | nil => rfl
  | cons tx txs ih => exact ih (s.apply E tx)

/-- **Records are permanent.** -/
theorem applyAll_records_of_present (s : Registry) (txs : List Transaction) (eventId : Bytes32)
    (h : s.Present eventId) : (s.applyAll E txs).records eventId = s.records eventId := by
  induction txs generalizing s with
  | nil => rfl
  | cons tx txs ih =>
    have hstep := apply_records_of_present E s tx eventId h
    have hpresent : (s.apply E tx).Present eventId := by
      rw [Registry.Present, hstep]
      exact h
    rw [Registry.applyAll, ih _ hpresent, hstep]

theorem applyAll_present (s : Registry) (txs : List Transaction) (eventId : Bytes32)
    (h : s.Present eventId) : (s.applyAll E txs).Present eventId := by
  rw [Registry.Present, applyAll_records_of_present E s txs eventId h]
  exact h

/-- **Every new record has its accepting transaction**, and is what that call wrote. -/
theorem accepted_of_applyAll_present (s : Registry) (txs : List Transaction)
    (eventId : Bytes32) (habsent : ¬ s.Present eventId)
    (hpresent : (s.applyAll E txs).Present eventId) :
    ∃ before tx after signature, txs = before ++ tx :: after ∧
      Accepted E (s.applyAll E before) tx eventId ((s.applyAll E txs).records eventId)
        signature := by
  induction txs generalizing s with
  | nil => exact absurd hpresent habsent
  | cons tx txs ih =>
    by_cases hnow : (s.apply E tx).Present eventId
    · obtain ⟨signature, haccepted⟩ := accepted_of_apply_present E s tx eventId habsent hnow
      refine ⟨[], tx, txs, signature, rfl, ?_⟩
      have hkept := applyAll_records_of_present E _ txs eventId hnow
      show Accepted E s tx eventId (((s.apply E tx).applyAll E txs).records eventId) signature
      rw [hkept]
      exact haccepted
    · obtain ⟨before, tx', after, signature, rfl, haccepted⟩ := ih _ hnow hpresent
      exact ⟨tx :: before, tx', after, signature, rfl, haccepted⟩

/-- A signer that became authorised was authorised by the owner of that moment. -/
theorem authorises_of_applyAll (s : Registry) (txs : List Transaction) (signer : Address)
    (hbefore : s.authorizedSigners signer = false)
    (hafter : (s.applyAll E txs).authorizedSigners signer = true) :
    ∃ before tx after, txs = before ++ tx :: after ∧
      Authorises (s.applyAll E before) tx signer true := by
  induction txs generalizing s with
  | nil =>
    rw [Registry.applyAll, hbefore] at hafter
    cases hafter
  | cons tx txs ih =>
    cases hnow : (s.apply E tx).authorizedSigners signer with
    | true =>
      have hne : (s.apply E tx).authorizedSigners signer ≠ s.authorizedSigners signer := by
        rw [hnow, hbefore]
        decide
      have hauth := authorises_of_apply_ne E s tx signer hne
      rw [hnow] at hauth
      exact ⟨[], tx, txs, rfl, hauth⟩
    | false =>
      obtain ⟨before, tx', after, rfl, hauth⟩ := ih _ hnow hafter
      exact ⟨tx :: before, tx', after, rfl, hauth⟩

/-- **A revoked signer gets no new record** before the owner authorises it again. -/
theorem reauthorised_of_new_record (s : Registry) (txs : List Transaction) (eventId : Bytes32)
    (habsent : ¬ s.Present eventId) (hpresent : (s.applyAll E txs).Present eventId)
    (hrevoked : s.authorizedSigners ((s.applyAll E txs).records eventId).signer = false) :
    ∃ before tx after, txs = before ++ tx :: after ∧
      Authorises (s.applyAll E before) tx ((s.applyAll E txs).records eventId).signer true ∧
      ¬ (s.applyAll E before).Present eventId := by
  obtain ⟨before, tx, after, signature, htxs, haccepted⟩ :=
    accepted_of_applyAll_present E s txs eventId habsent hpresent
  obtain ⟨earlier, tx', later, rfl, hauth⟩ :=
    authorises_of_applyAll E s before _ hrevoked haccepted.authorised
  refine ⟨earlier, tx', later ++ tx :: after, by simpa using htxs, hauth, ?_⟩
  intro hearly
  have hlate := applyAll_present E _ (tx' :: later) eventId hearly
  rw [← applyAll_append] at hlate
  exact haccepted.absent hlate

theorem applyAll_authorizedSigners_zero (s : Registry) (txs : List Transaction)
    (h : s.authorizedSigners 0 = false) : (s.applyAll E txs).authorizedSigners 0 = false := by
  cases hafter : (s.applyAll E txs).authorizedSigners 0 with
  | false => rfl
  | true =>
    obtain ⟨_, _, _, _, hauth⟩ := authorises_of_applyAll E s txs 0 h hafter
    exact absurd rfl hauth.2.2

/-! ## A deployed registry -/

theorem deploy_eq_ok (initialOwner : Address) (s : Registry)
    (h : deploy initialOwner = .ok s) :
    (∀ signer, s.authorizedSigners signer = false) ∧ ∀ eventId, ¬ s.Present eventId := by
  simp only [deploy, bind_eq_ok, require_eq_ok, pure_eq_ok] at h
  obtain ⟨_, _, rfl⟩ := h
  refine ⟨fun _ => rfl, fun eventId hpresent => hpresent rfl⟩

/-- **The history of a deployed registry.** After any transactions `txs`:
whatever follows, a present record stays as it is; a present record is well formed and was
written by one of the transactions, from a signer then authorised and with a signature
that recovered to it; a signer that is not authorised gets no new record before the owner
authorises it; and authorisations change by the owner's calls only, never for the zero
address. SOURCE: EvidenceRegistry.sol:12-63 -/
theorem deployed_registry_history (initialOwner : Address) (s₀ : Registry)
    (hdeploy : deploy initialOwner = .ok s₀) (txs : List Transaction) :
    (∀ eventId more, (s₀.applyAll E txs).Present eventId →
      (s₀.applyAll E (txs ++ more)).records eventId = (s₀.applyAll E txs).records eventId) ∧
    (∀ eventId, (s₀.applyAll E txs).Present eventId →
      eventId ≠ 0 ∧ ((s₀.applyAll E txs).records eventId).payloadHash ≠ 0 ∧
      1 ≤ ((s₀.applyAll E txs).records eventId).eventType.toNat ∧
      ((s₀.applyAll E txs).records eventId).eventType.toNat ≤ 11) ∧
    (∀ eventId, (s₀.applyAll E txs).Present eventId →
      ∃ before tx after signature, txs = before ++ tx :: after ∧
        Accepted E (s₀.applyAll E before) tx eventId ((s₀.applyAll E txs).records eventId)
          signature) ∧
    (∀ eventId more, ¬ (s₀.applyAll E txs).Present eventId →
      (s₀.applyAll E (txs ++ more)).Present eventId →
      (s₀.applyAll E txs).authorizedSigners
        ((s₀.applyAll E (txs ++ more)).records eventId).signer = false →
      ∃ before tx after, more = before ++ tx :: after ∧
        Authorises (s₀.applyAll E (txs ++ before)) tx
          ((s₀.applyAll E (txs ++ more)).records eventId).signer true ∧
        ¬ (s₀.applyAll E (txs ++ before)).Present eventId) ∧
    (∀ tx signer, ((s₀.applyAll E txs).apply E tx).authorizedSigners signer
        ≠ (s₀.applyAll E txs).authorizedSigners signer →
      tx.sender = (s₀.applyAll E txs).owner ∧ ∃ b, tx.call = .setAuthorizedSigner signer b) ∧
    (s₀.applyAll E txs).authorizedSigners 0 = false := by
  obtain ⟨hsigners, hempty⟩ := deploy_eq_ok initialOwner s₀ hdeploy
  have hwritten := fun eventId =>
    accepted_of_applyAll_present E s₀ txs eventId (hempty eventId)
  refine ⟨?_, ?_, hwritten, ?_, ?_, ?_⟩
  · intro eventId more hpresent
    rw [applyAll_append]
    exact applyAll_records_of_present E _ more eventId hpresent
  · intro eventId hpresent
    obtain ⟨_, _, _, _, _, haccepted⟩ := hwritten eventId hpresent
    exact ⟨haccepted.eventId_ne, haccepted.payloadHash_ne, haccepted.eventType_mem⟩
  · intro eventId more habsent hpresent hrevoked
    rw [applyAll_append] at hpresent hrevoked ⊢
    simp only [applyAll_append]
    exact reauthorised_of_new_record E _ more eventId habsent hpresent hrevoked
  · intro tx signer hne
    have hauth := authorises_of_apply_ne E _ tx signer hne
    exact ⟨hauth.2.1, _, hauth.1⟩
  · exact applyAll_authorizedSigners_zero E s₀ txs (hsigners 0)

/-! ## A sample history -/

def firstBlock : BlockTime := ⟨1, by decide, by decide⟩

def secondBlock : BlockTime := ⟨2, by decide, by decide⟩

/-- The owner `1` of a fresh registry authorises the signer `5` and revokes it. -/
def authoriseAndRevoke : List Transaction :=
  [⟨1, .setAuthorizedSigner 5 true, firstBlock⟩,
   ⟨1, .setAuthorizedSigner 5 false, secondBlock⟩]

/-- A machine that recovers no signer; the two transactions above do not ask it to. -/
def silentEvm : Evm := ⟨fun _ => 0, fun _ _ _ _ => 0, 1, 0⟩

/-- The history applies to a deployment: neither transaction of the owner reverts, and the
zero address is not authorised after them. -/
theorem deployed_registry_history_authoriseAndRevoke :
    ∃ s₀, deploy 1 = .ok s₀ ∧
      (s₀.applyAll silentEvm (authoriseAndRevoke.take 1)).authorizedSigners 5 = true ∧
      (s₀.applyAll silentEvm authoriseAndRevoke).authorizedSigners 5 = false ∧
      (s₀.applyAll silentEvm authoriseAndRevoke).authorizedSigners 0 = false := by
  refine ⟨_, rfl, rfl, rfl, ?_⟩
  exact (deployed_registry_history silentEvm 1 _ rfl authoriseAndRevoke).2.2.2.2.2

end LamTo.Analysis
