import Mathlib.Data.List.Basic
import Mathlib.Data.List.Infix

/-!
# What follows a marker is struck out

A text is read from left to right; where the marker stands and token characters follow it, the
whole run of these is replaced by a constant, and reading goes on after the run.

* The result is clean: behind every marker in it stands the constant, or no token.
* A text is left alone exactly when it is clean, so that doing it twice is doing it once.
* What is struck out does not show: two texts that differ in one token have one result.

The marker must not begin with a token character, nor fall on itself and the constant in another
place; both are fields of a `Redaction`.
-/

set_option autoImplicit false

namespace LamTo.Library

section Lists

variable {α : Type}

theorem take_cons_congr (n : ℕ) (a : α) (t u : List α) (h : t.take n = u.take n) :
    (a :: t).take n = (a :: u).take n := by
  cases n with
  | zero => rfl
  | succ n =>
    have hshort := congrArg (List.take n) h
    rw [List.take_take, List.take_take, min_eq_left (Nat.le_succ n)] at hshort
    rw [List.take_succ_cons, List.take_succ_cons, hshort]

theorem takeWhile_of_head? (p : α → Bool) (t : List α) (h : ∀ a ∈ t.head?, p a = false) :
    t.takeWhile p = [] := by
  cases t with
  | nil => rfl
  | cons a t => rw [List.takeWhile_cons_of_neg (by rw [h a rfl]; exact Bool.false_ne_true)]

end Lists

structure Redaction (α : Type) [DecidableEq α] where
  marker : List α
  replacement : List α
  isToken : α → Bool
  marker_ne : marker ≠ []
  begins : ∀ a ∈ marker.head?, isToken a = false
  replacement_ne : replacement ≠ []
  token : ∀ a ∈ replacement, isToken a = true
  apart : ∀ i, 0 < i → i < marker.length → ¬ marker <+: (marker ++ replacement).drop i ∧
    ¬ (marker ++ replacement).drop i <+: marker

namespace Redaction

variable {α : Type} [DecidableEq α] (R : Redaction α)

/-- The marker stands at the beginning, and a token character follows. -/
def Matches (t : List α) : Prop :=
  R.marker <+: t ∧ (t.drop R.marker.length).head?.any R.isToken = true

instance (t : List α) : Decidable (R.Matches t) := inferInstanceAs (Decidable (_ ∧ _))

def redact : List α → List α
  | [] => []
  | a :: t =>
    if R.Matches (a :: t) then
      R.marker ++ (R.replacement ++
        redact (((a :: t).drop R.marker.length).dropWhile R.isToken))
    else a :: redact t
termination_by t => t.length
decreasing_by
  · have hpos := List.length_pos_iff.mpr R.marker_ne
    have hdrop := (List.dropWhile_suffix (l := (a :: t).drop R.marker.length) R.isToken).length_le
    rw [List.length_drop] at hdrop
    simp only [List.length_cons] at hdrop ⊢
    omega
  · exact Nat.lt_succ_self _

/-- Behind every marker stands the constant, or no token. -/
def Clean (t : List α) : Prop :=
  ∀ before after, t = before ++ R.marker ++ after →
    after.takeWhile R.isToken = [] ∨ after.takeWhile R.isToken = R.replacement

theorem redact_nil : R.redact [] = [] := by rw [redact]

theorem redact_cons (a : α) (t : List α) :
    R.redact (a :: t) = if R.Matches (a :: t) then
      R.marker ++ (R.replacement ++
        R.redact (((a :: t).drop R.marker.length).dropWhile R.isToken))
    else a :: R.redact t := by rw [redact]

variable {R}

theorem Clean.suffix {a b : List α} (h : R.Clean (a ++ b)) : R.Clean b := by
  rintro before after rfl
  exact h (a ++ before) after (by simp only [List.append_assoc])

/-- A match is a marker, a token and what follows it. -/
theorem Matches.split {t : List α} (h : R.Matches t) :
    ∃ token rest, t = R.marker ++ (token ++ rest) ∧ token ≠ [] ∧
      (∀ a ∈ token, R.isToken a = true) ∧ (∀ a ∈ rest.head?, R.isToken a = false) ∧
      (t.drop R.marker.length).takeWhile R.isToken = token ∧
      (t.drop R.marker.length).dropWhile R.isToken = rest := by
  obtain ⟨⟨tail, rfl⟩, htoken⟩ := h
  rw [List.drop_left] at htoken ⊢
  refine ⟨tail.takeWhile R.isToken, tail.dropWhile R.isToken,
    by rw [List.takeWhile_append_dropWhile], ?_, List.all_eq_true.mp List.all_takeWhile, ?_, rfl,
    rfl⟩
  · cases tail with
    | nil => cases htoken
    | cons a tail =>
      have ha : R.isToken a = true := htoken
      rw [List.takeWhile_cons_of_pos ha]
      exact List.cons_ne_nil _ _
  · intro a ha
    cases hrest : tail.dropWhile R.isToken with
    | nil =>
      rw [hrest] at ha
      cases ha
    | cons b rest =>
      rw [hrest] at ha
      cases ha
      have hhead := List.head?_dropWhile_not R.isToken tail
      rw [hrest] at hhead
      exact hhead

/-! ## What is unchanged -/

/-- A text keeps as many characters at its beginning as the marker has. -/
theorem take_redact (t : List α) :
    (R.redact t).take R.marker.length = t.take R.marker.length := by
  induction t using Redaction.redact.induct (R := R) with
  | case1 => rw [redact_nil]
  | case2 a t hmatch _ =>
    obtain ⟨tail, htail⟩ := hmatch.1
    rw [redact_cons, if_pos hmatch, List.take_left, ← htail, List.take_left]
  | case3 a t hmatch ih =>
    rw [redact_cons, if_neg hmatch]
    exact take_cons_congr _ a _ _ ih

theorem head?_redact (t : List α) : (R.redact t).head? = t.head? := by
  have hpos := List.length_pos_iff.mpr R.marker_ne
  have htake := congrArg List.head? (take_redact (R := R) t)
  rw [List.head?_take, List.head?_take, if_neg (Nat.ne_of_gt hpos),
    if_neg (Nat.ne_of_gt hpos)] at htake
  exact htake

/-- With one character in front, the character behind a marker is unchanged too. -/
theorem matches_cons_redact (a : α) (t : List α) :
    R.Matches (a :: R.redact t) ↔ R.Matches (a :: t) := by
  have htake := take_cons_congr _ a _ _ (take_redact (R := R) t)
  obtain ⟨n, hn⟩ : ∃ n, R.marker.length = n + 1 :=
    ⟨_, (Nat.succ_pred_eq_of_pos (List.length_pos_iff.mpr R.marker_ne)).symm⟩
  have hget := congrArg (fun l => l[n]?) (take_redact (R := R) t)
  simp only [List.getElem?_take, hn, Nat.lt_succ_self, if_true] at hget
  rw [Matches, Matches, List.prefix_iff_eq_take, List.prefix_iff_eq_take, htake, hn,
    List.drop_succ_cons, List.drop_succ_cons, List.head?_drop, List.head?_drop, hget]

/-! ## Clean texts -/

theorem takeWhile_token (token rest : List α) (htoken : ∀ a ∈ token, R.isToken a = true)
    (hrest : ∀ a ∈ rest.head?, R.isToken a = false) :
    (token ++ rest).takeWhile R.isToken = token := by
  rw [List.takeWhile_append_of_pos htoken, takeWhile_of_head? _ _ hrest, List.append_nil]

/-- A clean text stays so behind a character at which no token follows a marker. -/
theorem Clean.cons {a : α} {t : List α} (h : R.Clean t) (hno : ¬ R.Matches (a :: t)) :
    R.Clean (a :: t) := by
  intro before after heq
  cases before with
  | nil =>
    left
    rw [List.nil_append] at heq
    refine takeWhile_of_head? _ _ fun b hb => ?_
    by_contra htrue
    refine hno ⟨⟨after, heq.symm⟩, ?_⟩
    rw [heq, List.drop_left, hb]
    simpa using htrue
  | cons b before =>
    rw [List.cons_append, List.cons_append] at heq
    exact h before after (List.cons.inj heq).2

/-- A marker does not stand across the marker and the constant. -/
theorem not_prefix_drop (rest : List α) (i : ℕ) (hi : 0 < i) (hlt : i < R.marker.length) :
    ¬ R.marker <+: (R.marker ++ (R.replacement ++ rest)).drop i := by
  intro hstart
  have hle : i ≤ (R.marker ++ R.replacement).length := by
    rw [List.length_append]
    omega
  rw [← List.append_assoc, List.drop_append_of_le_length hle] at hstart
  obtain ⟨hno, hno'⟩ := R.apart i hi hlt
  exact (List.prefix_or_prefix_of_prefix hstart (List.prefix_append _ rest)).elim hno hno'

/-- No marker begins in a run of token characters. -/
theorem not_prefix_token (a : α) (t : List α) (ha : R.isToken a = true) :
    ¬ R.marker <+: a :: t := by
  intro hstart
  cases hmarker : R.marker with
  | nil => exact R.marker_ne hmarker
  | cons b marker =>
    rw [hmarker] at hstart
    have hb := R.begins b (by rw [hmarker]; rfl)
    rw [(List.cons_prefix_cons.mp hstart).1, ha] at hb
    cases hb

theorem clean_struck (rest : List α) (hrest : ∀ a ∈ rest.head?, R.isToken a = false)
    (h : R.Clean rest) : R.Clean (R.marker ++ (R.replacement ++ rest)) := by
  intro before after heq
  rw [List.append_assoc] at heq
  have hstart : R.marker <+: (R.marker ++ (R.replacement ++ rest)).drop before.length := by
    rw [heq, List.drop_left]
    exact List.prefix_append _ _
  rcases Nat.eq_zero_or_pos before.length with hzero | hpos
  · -- The marker itself.
    right
    obtain rfl := List.length_eq_zero_iff.mp hzero
    obtain rfl := List.append_cancel_left heq
    exact takeWhile_token R.replacement rest R.token hrest
  · rcases Nat.lt_or_ge before.length R.marker.length with hlt | hge
    · exact absurd hstart (not_prefix_drop rest before.length hpos hlt)
    · -- Behind the marker: in the constant, or in the rest.
      obtain ⟨k, hk⟩ := Nat.exists_eq_add_of_le hge
      rw [hk, ← List.drop_drop, List.drop_left] at hstart
      rcases Nat.lt_or_ge k R.replacement.length with hlt | hge
      · rw [List.drop_append_of_le_length (Nat.le_of_lt hlt),
          List.drop_eq_getElem_cons hlt, List.cons_append] at hstart
        exact absurd hstart (not_prefix_token _ _ (R.token _ (List.getElem_mem hlt)))
      · obtain ⟨j, hj⟩ := Nat.exists_eq_add_of_le hge
        have hdrop := congrArg (List.drop (R.marker.length + R.replacement.length)) heq
        rw [← List.drop_drop, List.drop_left, List.drop_left,
          List.drop_append_of_le_length (by omega)] at hdrop
        refine h (before.drop (R.marker.length + R.replacement.length)) after ?_
        rw [List.append_assoc]
        exact hdrop

/-- **The result is clean.** -/
theorem clean_redact (t : List α) : R.Clean (R.redact t) := by
  induction t using Redaction.redact.induct (R := R) with
  | case1 =>
    rw [redact_nil]
    intro before after heq
    have hlength := congrArg List.length heq
    have hpos := List.length_pos_iff.mpr R.marker_ne
    simp only [List.length_nil, List.length_append] at hlength
    omega
  | case2 a t hmatch ih =>
    rw [redact_cons, if_pos hmatch]
    obtain ⟨token, rest, -, -, -, hrest, -, hdrop⟩ := hmatch.split
    refine clean_struck _ ?_ ih
    rw [head?_redact, hdrop]
    exact hrest
  | case3 a t hmatch ih =>
    rw [redact_cons, if_neg hmatch]
    exact ih.cons fun hafter => hmatch ((matches_cons_redact a t).mp hafter)

/-- **Exactly the clean texts are left alone.** -/
theorem redact_eq_self (t : List α) : R.redact t = t ↔ R.Clean t := by
  constructor
  · intro h
    rw [← h]
    exact clean_redact t
  · intro h
    induction t using Redaction.redact.induct (R := R) with
    | case1 => exact redact_nil R
    | case2 a t hmatch ih =>
      obtain ⟨token, rest, heq, hne, htoken, hrest, -, hdrop⟩ := hmatch.split
      have hafter := h [] (token ++ rest) heq
      rw [takeWhile_token token rest htoken hrest] at hafter
      have hsame : token = R.replacement := hafter.resolve_left hne
      rw [hdrop] at ih
      have hclean : R.Clean rest := by
        rw [heq, ← List.append_assoc] at h
        exact h.suffix
      rw [redact_cons, if_pos hmatch, hdrop, ih hclean, heq, hsame]
    | case3 a t hmatch ih =>
      have htail : R.Clean t := Clean.suffix (a := [a]) h
      rw [redact_cons, if_neg hmatch, ih htail]

/-! ## What does not show -/

/-- A marker that stands in the text before a further one does not reach into it. -/
def EndsApart (R : Redaction α) (before : List α) : Prop :=
  ∀ u v, before ++ R.marker = u ++ R.marker ++ v → v = [] ∨ R.marker.length ≤ v.length

theorem EndsApart.suffix {a before : List α} (h : R.EndsApart (a ++ before)) :
    R.EndsApart before := by
  intro u v heq
  exact h (a ++ u) v (by rw [List.append_assoc, heq, List.append_assoc, List.append_assoc,
    List.append_assoc])

/-- A marker that falls on itself in one character only reaches into another one only where that
one without its last character stands in front. -/
theorem endsApart_of_border (before : List α)
    (hborder : ∀ k, 0 < k → k < R.marker.length →
      R.marker.drop (R.marker.length - k) = R.marker.take k → k = 1)
    (h : ¬ R.marker.dropLast <:+ before) : R.EndsApart before := by
  intro u v heq
  by_contra hno
  obtain ⟨hne, hlt⟩ := not_or.mp hno
  have hv := List.length_pos_iff.mpr hne
  have hlength := congrArg List.length heq
  simp only [List.length_append] at hlength
  -- `x` is what of the marker behind `u` stands in `before`.
  obtain ⟨x, rfl⟩ : u <+: before := List.prefix_of_prefix_length_le
    ⟨R.marker ++ v, by rw [← List.append_assoc, ← heq]⟩ (List.prefix_append _ _) (by omega)
  rw [List.append_assoc, List.append_assoc] at heq
  have hoverlap := List.append_cancel_left heq
  have hx : x.length = v.length := by
    have := congrArg List.length hoverlap
    simp only [List.length_append] at this
    omega
  have hstart : x = R.marker.take v.length := by
    have htake := congrArg (List.take v.length) hoverlap
    rwa [← hx, List.take_left, hx, List.take_append_of_le_length (by omega)] at htake
  have hdrop : R.marker = R.marker.drop v.length ++ v := by
    have := congrArg (List.drop v.length) hoverlap
    rwa [← hx, List.drop_left, hx, List.drop_append_of_le_length (by omega)] at this
  have hone := hborder (R.marker.length - v.length) (by omega) (by omega) (by
    rw [Nat.sub_sub_self (by omega)]
    have htake := congrArg (List.take (R.marker.length - v.length)) hdrop
    rw [← List.length_drop, List.take_left, List.length_drop] at htake
    exact htake.symm)
  refine h ⟨u, ?_⟩
  rw [hstart, List.dropLast_eq_take, ← hone, Nat.sub_sub_self (by omega)]

theorem redact_marker (token after : List α) (hne : token ≠ [])
    (htoken : ∀ a ∈ token, R.isToken a = true) (hafter : ∀ a ∈ after.head?, R.isToken a = false) :
    R.redact (R.marker ++ (token ++ after)) =
      R.marker ++ (R.replacement ++ R.redact after) := by
  have hmatch : R.Matches (R.marker ++ (token ++ after)) := by
    refine ⟨List.prefix_append _ _, ?_⟩
    rw [List.drop_left]
    cases token with
    | nil => exact absurd rfl hne
    | cons a token => exact htoken a List.mem_cons_self
  have hdrop : (token ++ after).dropWhile R.isToken = after := by
    rw [List.dropWhile_append_of_pos htoken]
    cases after with
    | nil => rfl
    | cons a after =>
      have ha := hafter a rfl
      rw [List.dropWhile_cons_of_neg (by rw [ha]; exact Bool.false_ne_true)]
  cases hwhole : R.marker ++ (token ++ after) with
  | nil => exact absurd (List.append_eq_nil_iff.mp hwhole).1 R.marker_ne
  | cons a t =>
    rw [hwhole] at hmatch
    rw [redact_cons, if_pos hmatch, ← hwhole, List.drop_left, hdrop]

/-- Whether a text matches shows in its first characters, one more than the marker has. -/
theorem matches_append (t more : List α) (h : R.marker.length < t.length) :
    R.Matches (t ++ more) ↔ R.Matches t := by
  have hne : t.drop R.marker.length ≠ [] := by
    intro hnil
    exact Nat.not_le.mpr h (List.drop_eq_nil_iff.mp hnil)
  rw [Matches, Matches, List.prefix_iff_eq_take, List.prefix_iff_eq_take,
    List.take_append_of_le_length (Nat.le_of_lt h), List.drop_append_of_le_length (Nat.le_of_lt h),
    List.head?_append_of_ne_nil _ hne]

/-- A run of token characters ends at the marker. -/
theorem dropWhile_append_marker (before more : List α) :
    (before ++ (R.marker ++ more)).dropWhile R.isToken =
      before.dropWhile R.isToken ++ (R.marker ++ more) := by
  induction before with
  | nil =>
    cases hmarker : R.marker with
    | nil => exact absurd hmarker R.marker_ne
    | cons a marker =>
      have ha := R.begins a (by rw [hmarker]; rfl)
      rw [List.nil_append, List.cons_append,
        List.dropWhile_cons_of_neg (by rw [ha]; exact Bool.false_ne_true)]
      rfl
  | cons a before ih =>
    rw [List.cons_append, List.dropWhile_cons, List.dropWhile_cons]
    split
    · exact ih
    · rfl

/-- A match that does not end in the marker behind it leaves a shorter text before that marker. -/
theorem EndsApart.split {before : List α} (hapart : R.EndsApart before)
    (hmatch : R.Matches (before ++ R.marker)) : ∃ tail, before = R.marker ++ tail := by
  obtain ⟨token, rest, heq, hne, -⟩ := hmatch.split
  have hlength := congrArg List.length heq
  rw [List.length_append, List.length_append] at hlength
  rcases hapart [] (token ++ rest) heq with hnil | hle
  · exact absurd (List.append_eq_nil_iff.mp hnil).1 hne
  · have hstart : R.marker <+: before ++ R.marker := ⟨_, heq.symm⟩
    obtain ⟨tail, htail⟩ := List.prefix_of_prefix_length_le hstart (List.prefix_append _ _)
      (by omega)
    exact ⟨tail, htail.symm⟩

/-- **What is struck out does not show**: which token follows a marker makes no difference, unless
a marker in front of it reaches into that one. -/
theorem redact_token (before token token' after : List α) (hne : token ≠ []) (hne' : token' ≠ [])
    (htoken : ∀ a ∈ token, R.isToken a = true) (htoken' : ∀ a ∈ token', R.isToken a = true)
    (hafter : ∀ a ∈ after.head?, R.isToken a = false) (hapart : R.EndsApart before) :
    R.redact (before ++ (R.marker ++ (token ++ after))) =
      R.redact (before ++ (R.marker ++ (token' ++ after))) := by
  induction hlength : before.length using Nat.strong_induction_on generalizing before with
  | _ n ih =>
    cases before with
    | nil =>
      rw [List.nil_append, List.nil_append, redact_marker token after hne htoken hafter,
        redact_marker token' after hne' htoken' hafter]
    | cons a before =>
      have hwhole : ∀ more, a :: before ++ (R.marker ++ more) = (a :: before ++ R.marker) ++ more :=
        fun more => by rw [List.append_assoc]
      have hmatches : ∀ more, R.Matches (a :: (before ++ (R.marker ++ more))) ↔
          R.Matches (a :: before ++ R.marker) := by
        intro more
        rw [← List.cons_append, hwhole]
        refine matches_append _ _ ?_
        rw [List.length_append, List.length_cons]
        omega
      rw [List.cons_append, List.cons_append, redact_cons, redact_cons]
      by_cases hmatch : R.Matches (a :: before ++ R.marker)
      · -- The text begins with a match of its own; what is left of it is shorter.
        obtain ⟨tail, htail⟩ := hapart.split hmatch
        have hdrop : ∀ more, (a :: (before ++ (R.marker ++ more))).drop R.marker.length =
            tail ++ (R.marker ++ more) := by
          intro more
          rw [← List.cons_append, htail, List.append_assoc, List.drop_left]
        have hsplit := List.takeWhile_append_dropWhile (p := R.isToken) (l := tail)
        have hrest : R.EndsApart (tail.dropWhile R.isToken) := by
          rw [htail, ← hsplit, ← List.append_assoc] at hapart
          exact hapart.suffix
        have hshort : (tail.dropWhile R.isToken).length < n := by
          have hle := (List.dropWhile_suffix (l := tail) R.isToken).length_le
          have hpos := List.length_pos_iff.mpr R.marker_ne
          have hall := congrArg List.length htail
          rw [List.length_append] at hall
          omega
        rw [if_pos ((hmatches _).mpr hmatch), if_pos ((hmatches _).mpr hmatch), hdrop, hdrop,
          dropWhile_append_marker, dropWhile_append_marker, ih _ hshort _ hrest rfl]
      · have hshort : before.length < n := by
          rw [← hlength, List.length_cons]
          exact Nat.lt_succ_self _
        rw [if_neg fun h => hmatch ((hmatches _).mp h), if_neg fun h => hmatch ((hmatches _).mp h),
          ih _ hshort before (EndsApart.suffix (a := [a]) hapart) rfl]

end Redaction

end LamTo.Library
