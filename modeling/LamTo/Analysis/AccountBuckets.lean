import LamTo.Analysis.LockLasts

/-!
# The buckets of one account

Three functions spell an identifier: the throttle strips and lowers it, the API first brings a
phone into its local form, and the look-up of the account does the same. The form of the workspace
counts its failures under the identifier as it was typed.

* the key of the API is the local form of a phone, and for an email the key of the form;
* so two identifiers share one bucket through both logins exactly when both are the local form of
  one phone, blanks around it apart, or neither is a phone and they agree in lower case;
* whatever the bucket says, the form tries every password.

SOURCE: src/lamto/accounts/security.py:21-30, accounts/backends.py, api/services.py:25-37,
web/views/security.py:64-117
-/

set_option autoImplicit false

namespace LamTo.Analysis

open LamTo.Library LamTo.Model

section Spellings

variable (L : LoginConfig)

/-! ## Phones -/

/-- Blanks at the ends are separators like others. -/
theorem filter_strip (U : Unicode) (p : Char → Bool) (hp : ∀ c, U.isSpace c = true → p c = false)
    (t : Text) : (strip U t).filter p = t.filter p := by
  have hdrop : ∀ l : Text, (l.dropWhile U.isSpace).filter p = l.filter p := by
    intro l
    induction l with
    | nil => rfl
    | cons c l ih =>
      by_cases hc : U.isSpace c = true
      · rw [List.dropWhile_cons_of_pos hc, ih, List.filter_cons_of_neg (by rw [hp c hc]; simp)]
      · rw [List.dropWhile_cons_of_neg hc]
  unfold strip List.rdropWhile
  rw [List.filter_reverse, hdrop, ← List.filter_reverse, List.reverse_reverse, hdrop]

theorem normalizePhone_strip (t : Text) :
    normalizePhone L (strip L.unicode t) = normalizePhone L t := by
  unfold normalizePhone
  rw [filter_strip]
  intro c hc
  simp [isSeparator, hc]

/-- A decimal digit is none of the separators. -/
theorem isSeparator_of_isDecimal (c : Char) (h : L.isDecimal c = true) :
    isSeparator L c = false := by
  have hspace := L.decimal_not_space c h
  have hascii : ∀ d : Char, d.toNat < 128 → d.isDigit = false → c ≠ d := by
    rintro d hd hdigit rfl
    unfold LoginConfig.isDecimal at h
    rw [L.unicode.decimal_ascii c hd, hdigit] at h
    cases h
  simp [isSeparator, hspace, hascii '.' (by decide) rfl, hascii '-' (by decide) rfl,
    hascii '(' (by decide) rfl, hascii ')' (by decide) rfl]

theorem isDecimal_zero : L.isDecimal '0' = true := by
  unfold LoginConfig.isDecimal
  rw [L.unicode.decimal_ascii '0' (by decide)]
  rfl

/-- A phone in its local form consists of decimal digits and begins with a zero. -/
theorem isLocalPhone_decimal (p : Text) (h : isLocalPhone L p = true) :
    (p.all L.isDecimal) = true ∧ p.head? = some '0' := by
  cases p with
  | nil => cases h
  | cons c rest =>
    simp only [isLocalPhone, Bool.and_eq_true, decide_eq_true_eq] at h
    obtain ⟨⟨rfl, -⟩, hrest⟩ := h
    exact ⟨by rw [List.all_cons, isDecimal_zero, hrest]; rfl, rfl⟩

theorem isLocalPhone_of_normalizePhone (raw p : Text) (h : normalizePhone L raw = some p) :
    isLocalPhone L p = true := by
  unfold normalizePhone at h
  dsimp only at h
  split at h
  · next hlocal =>
    cases h
    exact hlocal
  · cases h

/-- The local form is its own local form. -/
theorem normalizePhone_self (p : Text) (h : isLocalPhone L p = true) :
    normalizePhone L p = some p := by
  obtain ⟨hdecimal, hhead⟩ := isLocalPhone_decimal L p h
  have hfilter : (p.filter fun c => !isSeparator L c) = p := by
    rw [List.filter_eq_self]
    intro c hc
    rw [isSeparator_of_isDecimal L c (List.all_eq_true.mp hdecimal c hc)]
    rfl
  have hlocal : localPrefix p = p := by
    cases p with
    | nil => cases hhead
    | cons c rest =>
      cases hhead
      simp [localPrefix, List.isPrefixOf]
  unfold normalizePhone
  rw [hfilter, hlocal, if_pos h]

/-! ## Keys -/

/-- What the throttle makes of an account. -/
def accountKey (account : Text) : Text := L.lower (strip L.unicode account)

theorem throttleKey_eq_iff (a b ip : Text) :
    throttleKey L a ip = throttleKey L b ip ↔ accountKey L a = accountKey L b := by
  unfold throttleKey accountKey
  exact List.append_left_inj _

theorem strip_of_decimal (p : Text) (h : (p.all L.isDecimal) = true) : strip L.unicode p = p := by
  have hspace : ∀ c ∈ p, ¬ L.unicode.isSpace c = true := by
    intro c hc
    rw [L.decimal_not_space c (List.all_eq_true.mp h c hc)]
    simp
  have hfront : p.dropWhile L.unicode.isSpace = p := by
    cases p with
    | nil => rfl
    | cons c rest => exact List.dropWhile_cons_of_neg (hspace c List.mem_cons_self)
  unfold strip
  rw [hfront, List.rdropWhile_eq_self_iff]
  exact fun hne => hspace _ (List.getLast_mem hne)

theorem accountKey_of_decimal (p : Text) (h : (p.all L.isDecimal) = true) : accountKey L p = p := by
  unfold accountKey
  rw [strip_of_decimal L p h]
  exact L.lower_decimal p (.inl h)

theorem strip_strip (t : Text) : strip L.unicode (strip L.unicode t) = strip L.unicode t := by
  unfold strip
  have hfront : ((t.dropWhile L.unicode.isSpace).rdropWhile L.unicode.isSpace).dropWhile
      L.unicode.isSpace = (t.dropWhile L.unicode.isSpace).rdropWhile L.unicode.isSpace := by
    rw [List.dropWhile_eq_self_iff]
    intro hne
    have hlocal := List.rdropWhile_prefix L.unicode.isSpace (t.dropWhile L.unicode.isSpace)
    have hlen : 0 < (t.dropWhile L.unicode.isSpace).length :=
      Nat.lt_of_lt_of_le hne hlocal.length_le
    have hhead : ¬ L.unicode.isSpace (t.dropWhile L.unicode.isSpace)[0] = true :=
      List.dropWhile_get_zero_not L.unicode.isSpace t hlen
    rw [← hlocal.getElem hne] at hhead
    exact hhead
  rw [hfront, List.rdropWhile_idempotent]

/-- Bringing the domain of an email into lower case changes nothing once all of it is. -/
theorem lower_normalizeEmail (t : Text) :
    L.lower (normalizeEmail L t) = L.lower (strip L.unicode t) := by
  unfold normalizeEmail
  dsimp only
  generalize strip L.unicode t = email
  split
  · next hat =>
    have hsplit : ∃ name domain, email = name ++ '@' :: domain ∧
        (email.reverse.takeWhile (· ≠ '@')).reverse = domain := by
      have hmem : '@' ∈ email.reverse := by simpa using hat
      have hdrop : email.reverse.dropWhile (· ≠ '@') ≠ [] := by
        rw [Ne, List.dropWhile_eq_nil_iff]
        intro hall
        have := hall '@' hmem
        simp at this
      cases hrest : email.reverse.dropWhile (· ≠ '@') with
      | nil => exact absurd hrest hdrop
      | cons c front =>
        have hc : c = '@' := by
          have hfirst := List.head_dropWhile_not (· ≠ '@') hdrop
          simp only [hrest, List.head_cons] at hfirst
          simpa using hfirst
        have hwhole := List.takeWhile_append_dropWhile (p := (· ≠ '@')) (l := email.reverse)
        refine ⟨front.reverse, (email.reverse.takeWhile (· ≠ '@')).reverse, ?_, rfl⟩
        rw [hrest, hc] at hwhole
        have hreversed := congrArg List.reverse hwhole
        simp only [List.reverse_append, List.reverse_cons, List.reverse_reverse,
          List.append_assoc, List.cons_append, List.nil_append] at hreversed
        exact hreversed.symm
    obtain ⟨name, domain, hemail, hdomain⟩ := hsplit
    rw [hdomain]
    have htake : email.take (email.length - domain.length) = name ++ ['@'] := by
      have hlength : email.length - domain.length = name.length + 1 := by
        rw [hemail, List.length_append, List.length_cons]
        omega
      rw [hlength, hemail, List.take_length_add_append]
      rfl
    rw [htake, List.append_assoc, List.cons_append, List.nil_append, L.lower_at, L.lower_lower,
      ← L.lower_at, ← hemail]
  · rfl

/-- The key of the API: the local form of a phone, and for an email the key of the form. -/
theorem accountKey_canonicalize (raw : Text) :
    accountKey L (canonicalizeLoginIdentifier L (strip L.unicode raw)) =
      (normalizePhone L raw).getD (accountKey L raw) := by
  unfold canonicalizeLoginIdentifier
  dsimp only
  rw [strip_strip, normalizePhone_strip]
  cases h : normalizePhone L raw with
  | some p =>
    have hlocal := isLocalPhone_of_normalizePhone L raw p h
    exact accountKey_of_decimal L p (isLocalPhone_decimal L p hlocal).1
  | none =>
    show accountKey L (L.lower (normalizeEmail L (strip L.unicode raw))) = accountKey L raw
    unfold accountKey
    rw [L.lower_strip, L.lower_lower, ← L.lower_strip, lower_normalizeEmail, L.lower_strip,
      strip_strip, strip_strip]

/-! ## One bucket -/

/-- The failures of both identifiers, through both logins, count in one bucket. -/
def OneBucket (client : Client) (u v : Text) : Prop :=
  ∀ p q, webFailureDigest L client ⟨u, [], p⟩ = webFailureDigest L client ⟨v, [], q⟩ ∧
    apiDigest L client ⟨u, p⟩ = webFailureDigest L client ⟨u, [], p⟩ ∧
    apiDigest L client ⟨v, q⟩ = webFailureDigest L client ⟨v, [], q⟩

/-- Both identifiers are the local form of one phone, blanks around it apart, or neither is a phone
and they agree in lower case. -/
def OneSpelling (u v : Text) : Prop :=
  match normalizePhone L u, normalizePhone L v with
  | some p, some _ => strip L.unicode u = p ∧ strip L.unicode v = p
  | none, none => L.lower (strip L.unicode u) = L.lower (strip L.unicode v)
  | _, _ => False

/-- The accounts the two logins count failures under. -/
def countedAccounts (u v : Text) : List Text :=
  [u, v, canonicalizeLoginIdentifier L (strip L.unicode u),
    canonicalizeLoginIdentifier L (strip L.unicode v)]

/-- The digest tells the accounts apart. -/
def DigestsApart (client : Client) (u v : Text) : Prop :=
  ∀ a ∈ countedAccounts L u v, ∀ b ∈ countedAccounts L u v,
    throttleDigest L a (clientIp L client) = throttleDigest L b (clientIp L client) →
      throttleKey L a (clientIp L client) = throttleKey L b (clientIp L client)

theorem webFailureDigest_eq (client : Client) (u p : Text) :
    webFailureDigest L client ⟨u, [], p⟩ = throttleDigest L u (clientIp L client) := by
  cases u with
  | nil => rfl
  | cons c u => rfl

theorem throttleDigest_congr (a b ip : Text) (h : accountKey L a = accountKey L b) :
    throttleDigest L a ip = throttleDigest L b ip := by
  unfold throttleDigest
  rw [(throttleKey_eq_iff L a b ip).mpr h]

theorem oneBucket_iff_keys (client : Client) (u v : Text) (hapart : DigestsApart L client u v) :
    OneBucket L client u v ↔ accountKey L u = accountKey L v ∧
      (normalizePhone L u).getD (accountKey L u) = accountKey L u ∧
      (normalizePhone L v).getD (accountKey L v) = accountKey L v := by
  have hkey : ∀ a ∈ countedAccounts L u v, ∀ b ∈ countedAccounts L u v,
      (throttleDigest L a (clientIp L client) = throttleDigest L b (clientIp L client) ↔
        accountKey L a = accountKey L b) := by
    intro a ha b hb
    refine ⟨fun h => ?_, throttleDigest_congr L a b _⟩
    exact (throttleKey_eq_iff L a b _).mp (hapart a ha b hb h)
  unfold OneBucket apiDigest
  simp only [webFailureDigest_eq, forall_const]
  rw [hkey u (by simp [countedAccounts]) v (by simp [countedAccounts]),
    hkey _ (by simp [countedAccounts]) u (by simp [countedAccounts]),
    hkey _ (by simp [countedAccounts]) v (by simp [countedAccounts]),
    accountKey_canonicalize, accountKey_canonicalize]

/-- An identifier whose key is a phone is the phone, blanks around it apart. -/
theorem strip_eq_of_accountKey (u p : Text) (hp : isLocalPhone L p = true)
    (h : accountKey L u = p) : strip L.unicode u = p := by
  have hdecimal := (isLocalPhone_decimal L p hp).1
  rw [← h] at hdecimal
  exact (L.lower_decimal _ (.inr hdecimal)).symm.trans h

theorem accountKey_of_strip (u p : Text) (hp : isLocalPhone L p = true)
    (h : strip L.unicode u = p) : accountKey L u = p := by
  unfold accountKey
  rw [h]
  exact L.lower_decimal p (.inl (isLocalPhone_decimal L p hp).1)

/-- **When two identifiers share one bucket.** -/
theorem oneBucket_iff (client : Client) (u v : Text) (hapart : DigestsApart L client u v) :
    OneBucket L client u v ↔ OneSpelling L u v := by
  rw [oneBucket_iff_keys L client u v hapart]
  -- The phone that a key is would be the phone of the identifier.
  have hphone : ∀ w p, isLocalPhone L p = true → accountKey L w = p →
      normalizePhone L w = some p := by
    intro w p hp hw
    rw [← normalizePhone_strip, strip_eq_of_accountKey L w p hp hw]
    exact normalizePhone_self L p hp
  unfold OneSpelling
  cases hu : normalizePhone L u with
  | none =>
    cases hv : normalizePhone L v with
    | none => simp [accountKey]
    | some q =>
      have hq := isLocalPhone_of_normalizePhone L v q hv
      refine iff_of_false ?_ id
      rintro ⟨hsame, -, hkey⟩
      rw [hphone u q hq (hsame.trans hkey.symm)] at hu
      cases hu
  | some p =>
    have hp := isLocalPhone_of_normalizePhone L u p hu
    cases hv : normalizePhone L v with
    | none =>
      refine iff_of_false ?_ id
      rintro ⟨hsame, hkey, -⟩
      rw [hphone v p hp (hsame.symm.trans hkey.symm)] at hv
      cases hv
    | some q =>
      simp only [Option.getD_some]
      constructor
      · rintro ⟨hsame, hkey, -⟩
        exact ⟨strip_eq_of_accountKey L u p hp hkey.symm,
          strip_eq_of_accountKey L v p hp (hsame.symm.trans hkey.symm)⟩
      · rintro ⟨hu', hv'⟩
        have hku := accountKey_of_strip L u p hp hu'
        have hkv := accountKey_of_strip L v p hp hv'
        have hq := hphone v p hp hkv
        rw [hv] at hq
        cases hq
        exact ⟨hku.trans hkv.symm, hku.symm, hkv.symm⟩

/-! ## Passwords that are tried -/

/-- The answers of the form to a list of passwords, one after another at one time. -/
def formAnswers (s : LoginState) (client : Client) (identifier : Text) : List Text → List WebResponse
  | [] => []
  | p :: ps =>
    (webLogin L s client ⟨identifier, [], p⟩).1 ::
      formAnswers (webLogin L s client ⟨identifier, [], p⟩).2 client identifier ps

/-- **The form tries every password**: however many wrong ones came before, each is looked up
against the account and answered as wrong. -/
theorem formAnswers_wrong (s : LoginState) (client : Client) (identifier : Text) (pk : ℕ)
    (user : LoginUser)
    (hfound : lookUp L s.users (cleanedUsername L identifier) = .ok (some (pk, user)))
    (hfield : fieldErrors (cleanedUsername L identifier) = []) (ps : List Text)
    (hwrong : ∀ p ∈ ps, fieldErrors p = [] ∧ L.checkPassword user.password p = false) :
    formAnswers L s client identifier ps = ps.map fun _ => .form [] [] [invalidLoginMessage] := by
  induction ps generalizing s with
  | nil => rfl
  | cons p ps ih =>
    obtain ⟨hp, hcheck⟩ := hwrong p List.mem_cons_self
    have hauth : authenticate L s.users (cleanedUsername L identifier) p = .ok none := by
      unfold authenticate
      rw [hfound]
      simp only [hcheck, Bool.false_and, Bool.false_eq_true, if_false]
    have hanswer : (webLogin L s client ⟨identifier, [], p⟩).1 =
        .form [] [] [invalidLoginMessage] := by
      rw [webLogin_checked L s client ⟨identifier, [], p⟩ hfield hp, hauth]
      rfl
    have hstate : (webLogin L s client ⟨identifier, [], p⟩).2 =
        s.recordFailure (webFailureDigest L client ⟨identifier, [], p⟩) :=
      webLogin_of_formFails L s client _ (.inr (.inr (.inl hauth)))
    rw [formAnswers, hanswer, hstate, List.map_cons]
    congr 1
    exact ih _ hfound fun q hq => hwrong q (List.mem_cons_of_mem p hq)

/-- **One account, one bucket** holds exactly for the spellings of `OneSpelling`, and does not
bound the passwords: the form tries any number of them against the account it finds. -/
theorem account_buckets (client : Client) (u v : Text) (hapart : DigestsApart L client u v) :
    (OneBucket L client u v ↔ OneSpelling L u v) ∧
    ∀ (s : LoginState) (identifier : Text) (pk : ℕ) (user : LoginUser),
      lookUp L s.users (cleanedUsername L identifier) = .ok (some (pk, user)) →
      fieldErrors (cleanedUsername L identifier) = [] →
      ∀ ps, (∀ p ∈ ps, fieldErrors p = [] ∧ L.checkPassword user.password p = false) →
        formAnswers L s client identifier ps =
          ps.map fun _ => .form [] [] [invalidLoginMessage] :=
  ⟨oneBucket_iff L client u v hapart, fun s identifier pk user hfound hfield ps hwrong =>
    formAnswers_wrong L s client identifier pk user hfound hfield ps hwrong⟩

end Spellings

/-- An email in two letter cases counts in one bucket. -/
theorem account_buckets_email : OneBucket asciiLogin sampleClient "an@lamto.vn".toList
    " An@LamTo.vn".toList := by
  refine (account_buckets asciiLogin sampleClient _ _ ?_).1.mpr ?_
  · unfold DigestsApart
    decide +kernel
  · show asciiLogin.lower _ = asciiLogin.lower _
    decide

def samplePhoneUser : LoginUser := ⟨none, some "0901234567".toList, "$secret".toList, true⟩

/-- Two spellings of one phone find one account and count in two buckets. -/
theorem phone_spellings_two_buckets :
    lookUp asciiLogin (Table.empty.insert samplePhoneUser) "0901234567".toList =
        .ok (some (1, samplePhoneUser)) ∧
      lookUp asciiLogin (Table.empty.insert samplePhoneUser) "+84 901-234-567".toList =
        .ok (some (1, samplePhoneUser)) ∧
      ¬ OneBucket asciiLogin sampleClient "0901234567".toList "+84 901-234-567".toList := by
  refine ⟨by rfl, by rfl, fun h => ?_⟩
  have hsame := (h [] []).1
  revert hsame
  decide +kernel

end LamTo.Analysis
