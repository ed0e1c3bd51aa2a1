import LamTo.Analysis.QueuedEvidence

/-!
# The timestamps that are accepted

`_is_valid_utc_timestamp` reads a text the regular expression has passed. Both take any Unicode
decimal for most of the digits. Among ASCII texts the accepted ones are those `utc_rfc3339`
writes, no more and no less.

* **Written is accepted** (`isValidUtcTimestamp_utcRfc3339`).
* **Accepted is written** (`utcRfc3339_of_valid`): the digits read make a date and a time of
  day, whose text has the same digits.

SOURCE: src/lamto/evidence/services.py:20, 47-50, 103-119
-/

set_option autoImplicit false

namespace LamTo.Analysis

open LamTo.Library LamTo.Model

/-! ## Digits -/

theorem decimal_digitChar (U : Unicode) (d : ℕ) (h : d < 10) :
    U.decimal (Nat.digitChar d) = some d := by
  have htoNat := Nat.toNat_digitChar_of_lt_ten h
  rw [U.decimal_ascii _ (by omega), if_pos (Date.isDigit_digitChar d h), htoNat]
  exact congrArg some (Nat.add_sub_cancel_left 48 d)

/-- An ASCII decimal is the digit of its value. -/
theorem digit_of_decimal (U : Unicode) (c : Char) (d : ℕ) (hascii : c.toNat < 128)
    (h : U.decimal c = some d) : d < 10 ∧ c = Nat.digitChar d := by
  have hvalue := U.decimal_ascii c hascii
  rw [h] at hvalue
  split at hvalue
  · next hdigit =>
    obtain ⟨e, he, rfl⟩ := Date.exists_digit_of_isDigit c hdigit
    have hsame := decimal_digitChar U e he
    rw [h] at hsame
    cases hsame
    exact ⟨he, rfl⟩
  · cases hvalue

theorem twoDigits_eq_some (U : Unicode) (tens : List Char) (a b : Char) (n : ℕ) :
    twoDigits U tens a b = some n ↔
      ∃ x y, U.decimal a = some x ∧ U.decimal b = some y ∧ a ∈ tens ∧ n = 10 * x + y := by
  simp only [twoDigits, Option.bind_eq_bind, Option.bind_eq_some_iff, Option.ite_none_right_eq_some,
    Option.some.injEq]
  constructor
  · rintro ⟨x, hx, y, hy, hmem, rfl⟩
    exact ⟨x, y, hx, hy, hmem, rfl⟩
  · rintro ⟨x, y, hx, hy, hmem, rfl⟩
    exact ⟨x, hx, y, hy, hmem, rfl⟩

/-- Two ASCII digits that are read are the text of their number. -/
theorem zeroFilled_of_twoDigits (U : Unicode) (tens : List Char) (a b : Char) (n : ℕ)
    (ha : a.toNat < 128) (hb : b.toNat < 128) (h : twoDigits U tens a b = some n) :
    Date.zeroFilled 2 n = [a, b] := by
  obtain ⟨x, y, hx, hy, _, rfl⟩ := (twoDigits_eq_some U tens a b n).mp h
  obtain ⟨hx10, rfl⟩ := digit_of_decimal U a x ha hx
  obtain ⟨hy10, rfl⟩ := digit_of_decimal U b y hb hy
  exact Date.zeroFilled_digits x [y] hx10 (by simpa using hy10)

/-- Minutes and seconds are below sixty. -/
theorem lt_sixty_of_twoDigits (U : Unicode) (a b : Char) (n : ℕ) (ha : a.toNat < 128)
    (hb : b.toNat < 128) (h : twoDigits U ['0', '1', '2', '3', '4', '5'] a b = some n) : n < 60 := by
  obtain ⟨x, y, hx, hy, htens, rfl⟩ := (twoDigits_eq_some U _ a b n).mp h
  obtain ⟨hx10, rfl⟩ := digit_of_decimal U a x ha hx
  obtain ⟨hy10, rfl⟩ := digit_of_decimal U b y hb hy
  have hsix : ∀ x < 10, Nat.digitChar x ∈ ['0', '1', '2', '3', '4', '5'] → x < 6 := by decide
  have hx6 := hsix x hx10 htens
  omega

/-- A number whose tens are below `k` reads as it is written. -/
theorem twoDigits_of_lt (U : Unicode) (k n : ℕ) (hk : k ≤ 10) (h : n < 10 * k) :
    twoDigits U ((List.range k).map Nat.digitChar) (Nat.digitChar (n / 10)) (Nat.digitChar (n % 10))
      = some n := by
  rw [twoDigits_eq_some]
  have hunits : n % 10 < 10 := Nat.mod_lt n (by decide)
  refine ⟨n / 10, n % 10, decimal_digitChar U _ (by omega), decimal_digitChar U _ hunits, ?_, ?_⟩
  · exact List.mem_map_of_mem (List.mem_range.mpr (by omega))
  · omega

/-- Four ASCII digits that are read are the text of their number. -/
theorem zeroFilled_of_year (U : Unicode) (y₁ y₂ y₃ y₄ : Char) (year : ℕ)
    (hascii : ∀ c ∈ [y₁, y₂, y₃, y₄], c.toNat < 128)
    (h : [y₁, y₂, y₃, y₄].foldlM (fun n c => (U.decimal c).map (10 * n + ·)) 0 = some year) :
    year < 10000 ∧ Date.zeroFilled 4 year = [y₁, y₂, y₃, y₄] := by
  simp only [List.foldlM_cons, List.foldlM_nil, Option.bind_eq_bind, Option.bind_eq_some_iff,
    Option.map_eq_some_iff, Option.pure_def, Option.some.injEq] at h
  obtain ⟨_, ⟨a, ha, rfl⟩, _, ⟨b, hb, rfl⟩, _, ⟨c, hc, rfl⟩, _, ⟨d, hd, rfl⟩, rfl⟩ := h
  simp only [List.forall_mem_cons] at hascii
  obtain ⟨ha', hb', hc', hd', _⟩ := hascii
  obtain ⟨ha10, rfl⟩ := digit_of_decimal U y₁ a ha' ha
  obtain ⟨hb10, rfl⟩ := digit_of_decimal U y₂ b hb' hb
  obtain ⟨hc10, rfl⟩ := digit_of_decimal U y₃ c hc' hc
  obtain ⟨hd10, rfl⟩ := digit_of_decimal U y₄ d hd' hd
  refine ⟨by omega, ?_⟩
  rw [Nat.mul_zero, Nat.zero_add]
  exact Date.zeroFilled_digits a [b, c, d] ha10 (by simp [hb10, hc10, hd10])

/-- Six digits are the text of a number of microseconds. -/
theorem zeroFilled_of_digits (f₁ f₂ f₃ f₄ f₅ f₆ : Char)
    (h : ∀ c ∈ [f₁, f₂, f₃, f₄, f₅, f₆], c.isDigit = true) :
    ∃ n, n < 1000000 ∧ Date.zeroFilled 6 n = [f₁, f₂, f₃, f₄, f₅, f₆] := by
  simp only [List.forall_mem_cons] at h
  obtain ⟨h₁, h₂, h₃, h₄, h₅, h₆, _⟩ := h
  obtain ⟨a, ha, rfl⟩ := Date.exists_digit_of_isDigit f₁ h₁
  obtain ⟨b, hb, rfl⟩ := Date.exists_digit_of_isDigit f₂ h₂
  obtain ⟨c, hc, rfl⟩ := Date.exists_digit_of_isDigit f₃ h₃
  obtain ⟨d, hd, rfl⟩ := Date.exists_digit_of_isDigit f₄ h₄
  obtain ⟨e, he, rfl⟩ := Date.exists_digit_of_isDigit f₅ h₅
  obtain ⟨f, hf, rfl⟩ := Date.exists_digit_of_isDigit f₆ h₆
  refine ⟨[b, c, d, e, f].foldl (fun n e => 10 * n + e) a, ?_,
    Date.zeroFilled_digits a [b, c, d, e, f] ha (by simp [hb, hc, hd, he, hf])⟩
  simp only [List.foldl_cons, List.foldl_nil]
  omega

/-! ## Texts -/

theorem getD_false_eq_true (o : Option Bool) : o.getD false = true ↔ o = some true := by
  cases o with
  | none => simp
  | some b => simp

/-- What the tests read: the numbers of the text, and the digits that have to be ASCII. -/
theorem isValidUtcTimestamp_iff (U : Unicode)
    (y₁ y₂ y₃ y₄ m₁ m₂ d₁ d₂ h₁ h₂ i₁ i₂ s₁ s₂ f₁ f₂ f₃ f₄ f₅ f₆ : Char) :
    isValidUtcTimestamp U [y₁, y₂, y₃, y₄, '-', m₁, m₂, '-', d₁, d₂, 'T', h₁, h₂, ':', i₁, i₂, ':',
      s₁, s₂, '.', f₁, f₂, f₃, f₄, f₅, f₆, 'Z'] = true ↔
    ∃ year month day hour minute second,
      [y₁, y₂, y₃, y₄].foldlM (fun n c => (U.decimal c).map (10 * n + ·)) 0 = some year ∧
      twoDigits U ['0', '1'] m₁ m₂ = some month ∧
      twoDigits U ['0', '1', '2', '3'] d₁ d₂ = some day ∧
      twoDigits U ['0', '1', '2'] h₁ h₂ = some hour ∧
      twoDigits U ['0', '1', '2', '3', '4', '5'] i₁ i₂ = some minute ∧
      twoDigits U ['0', '1', '2', '3', '4', '5'] s₁ s₂ = some second ∧
      (1 ≤ year ∧ 1 ≤ month ∧ month ≤ 12 ∧ 1 ≤ day ∧ day ≤ daysInMonth year month ∧ hour ≤ 23) ∧
      m₂.isDigit = true ∧ ((d₁ = '1' ∨ d₁ = '2') ∨ d₂.isDigit = true) ∧
      (h₁ ≠ '2' ∨ h₂.isDigit = true) ∧ ∀ c ∈ [f₁, f₂, f₃, f₄, f₅, f₆], c.isDigit = true := by
  simp only [isValidUtcTimestamp, getD_false_eq_true, Option.bind_eq_bind, Option.bind_eq_some_iff,
    Option.some.injEq, Bool.and_eq_true, Bool.or_eq_true, decide_eq_true_eq, List.all_eq_true,
    and_assoc]
  constructor
  · rintro ⟨year, hyear, month, hmonth, day, hday, hour, hhour, minute, hminute, second, hsecond,
      hrest⟩
    exact ⟨year, month, day, hour, minute, second, hyear, hmonth, hday, hhour, hminute, hsecond,
      hrest⟩
  · rintro ⟨year, month, day, hour, minute, second, hyear, hmonth, hday, hhour, hminute, hsecond,
      hrest⟩
    exact ⟨year, hyear, month, hmonth, day, hday, hour, hhour, minute, hminute, second, hsecond,
      hrest⟩

/-- **The texts the services write are accepted.** -/
theorem isValidUtcTimestamp_utcRfc3339 (U : Unicode) (t : UtcTime) :
    isValidUtcTimestamp U (utcRfc3339 t) = true := by
  obtain ⟨⟨year, month, day, ⟨hy, hy'⟩, ⟨hm, hm'⟩, hd, hd'⟩, hour, minute, second, micro,
    hhour, hminute, hsecond, hmicro⟩ := t
  have hdays := daysInMonth_le year month
  simp only [utcRfc3339, UtcTime.isoformat, Date.isoformat, Date.zeroFilled_four year (by omega),
    Date.zeroFilled_two month (by omega), Date.zeroFilled_two day (by omega),
    Date.zeroFilled_two hour (by omega), Date.zeroFilled_two minute (by omega),
    Date.zeroFilled_two second (by omega), Date.zeroFilled_six micro hmicro, List.cons_append,
    List.nil_append]
  rw [isValidUtcTimestamp_iff]
  refine ⟨year, month, day, hour, minute, second, ?_,
    twoDigits_of_lt U 2 month (by omega) (by omega), twoDigits_of_lt U 4 day (by omega) (by omega),
    twoDigits_of_lt U 3 hour (by omega) (by omega),
    twoDigits_of_lt U 6 minute (by omega) (by omega),
    twoDigits_of_lt U 6 second (by omega) (by omega), ⟨hy, hm, hm', hd, hd', by omega⟩,
    Date.isDigit_digitChar _ (by omega), .inr (Date.isDigit_digitChar _ (by omega)),
    .inr (Date.isDigit_digitChar _ (by omega)), ?_⟩
  · simp only [List.foldlM_cons, List.foldlM_nil, decimal_digitChar U (year / 1000) (by omega),
      decimal_digitChar U (year / 100 % 10) (by omega),
      decimal_digitChar U (year / 10 % 10) (by omega), decimal_digitChar U (year % 10) (by omega),
      Option.map_some, Option.bind_eq_bind, Option.bind_some]
    show some _ = some _
    congr 1
    omega
  · simp only [List.forall_mem_cons, List.not_mem_nil, false_imp_iff, implies_true, and_true]
    exact ⟨Date.isDigit_digitChar _ (by omega), Date.isDigit_digitChar _ (by omega),
      Date.isDigit_digitChar _ (by omega), Date.isDigit_digitChar _ (by omega),
      Date.isDigit_digitChar _ (by omega), Date.isDigit_digitChar _ (by omega)⟩

/-- **An accepted ASCII text is one the services write.** -/
theorem utcRfc3339_of_valid (U : Unicode) (s : Text) (hascii : Ascii s)
    (h : isValidUtcTimestamp U s = true) : ∃ t : UtcTime, s = utcRfc3339 t := by
  unfold isValidUtcTimestamp at h
  split at h
  · next y₁ y₂ y₃ y₄ m₁ m₂ d₁ d₂ h₁ h₂ i₁ i₂ s₁ s₂ f₁ f₂ f₃ f₄ f₅ f₆ =>
    obtain ⟨year, month, day, hour, minute, second, hyear, hmonth, hday, hhour, hminute, hsecond,
      ⟨hy, hm, hm', hd, hd', hh⟩, _, _, _, hmicro⟩ :=
      (isValidUtcTimestamp_iff U y₁ y₂ y₃ y₄ m₁ m₂ d₁ d₂ h₁ h₂ i₁ i₂ s₁ s₂ f₁ f₂ f₃ f₄ f₅ f₆).mp h
    unfold Ascii at hascii
    simp only [List.forall_mem_cons] at hascii
    obtain ⟨hy₁, hy₂, hy₃, hy₄, _, hm₁, hm₂, _, hd₁, hd₂, _, hh₁, hh₂, _, hi₁, hi₂, _, hs₁, hs₂, _⟩ :=
      hascii
    have hyascii : ∀ c ∈ [y₁, y₂, y₃, y₄], c.toNat < 128 := by simp [hy₁, hy₂, hy₃, hy₄]
    obtain ⟨hy', hyeartext⟩ := zeroFilled_of_year U y₁ y₂ y₃ y₄ year hyascii hyear
    obtain ⟨micro, hlt, hmicrotext⟩ := zeroFilled_of_digits f₁ f₂ f₃ f₄ f₅ f₆ hmicro
    refine ⟨⟨⟨year, month, day, ⟨hy, by omega⟩, ⟨hm, hm'⟩, hd, hd'⟩, hour, minute, second, micro,
      by omega, lt_sixty_of_twoDigits U i₁ i₂ minute hi₁ hi₂ hminute,
      lt_sixty_of_twoDigits U s₁ s₂ second hs₁ hs₂ hsecond, hlt⟩, ?_⟩
    simp only [utcRfc3339, UtcTime.isoformat, Date.isoformat, hyeartext, hmicrotext,
      zeroFilled_of_twoDigits U _ m₁ m₂ month hm₁ hm₂ hmonth,
      zeroFilled_of_twoDigits U _ d₁ d₂ day hd₁ hd₂ hday,
      zeroFilled_of_twoDigits U _ h₁ h₂ hour hh₁ hh₂ hhour,
      zeroFilled_of_twoDigits U _ i₁ i₂ minute hi₁ hi₂ hminute,
      zeroFilled_of_twoDigits U _ s₁ s₂ second hs₁ hs₂ hsecond,
      List.cons_append, List.nil_append]
  · cases h

/-- The characters of a timestamp. -/
theorem mem_utcRfc3339 (t : UtcTime) (c : Char) (hc : c ∈ utcRfc3339 t) :
    c.isDigit = true ∨ c ∈ ['-', 'T', ':', '.', 'Z'] := by
  have hdigit := fun width n => Date.isDigit_of_mem_zeroFilled width n c
  simp only [utcRfc3339, UtcTime.isoformat, Date.isoformat, List.mem_append, List.mem_cons,
    List.not_mem_nil, or_false] at hc ⊢
  by_contra hneither
  rw [not_or] at hneither
  simp only [mt (hdigit _ _) hneither.1, or_false, false_or] at hc
  apply hneither.2
  tauto

theorem ascii_utcRfc3339 (t : UtcTime) : Ascii (utcRfc3339 t) := by
  intro c hc
  rcases mem_utcRfc3339 t c hc with hdigit | hmark
  · obtain ⟨d, hd, rfl⟩ := Date.exists_digit_of_isDigit c hdigit
    rw [Nat.toNat_digitChar_of_lt_ten hd]
    omega
  · simp only [List.mem_cons, List.not_mem_nil, or_false] at hmark
    rcases hmark with rfl | rfl | rfl | rfl | rfl
    all_goals decide

end LamTo.Analysis
