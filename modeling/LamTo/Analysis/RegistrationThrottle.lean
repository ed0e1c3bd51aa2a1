import LamTo.Model.Login

/-!
# How many registrations a key is admitted

A registration attempt is admitted or refused by the bucket of its key. The window of the bucket
opens with an admission and lasts fifteen minutes, the fifth admission of a window locks the
bucket for fifteen minutes from then on, and a refused attempt leaves the bucket as it was.

* the attempts of one key are decided by its bucket alone, so a run over many keys is, for each
  of them, a run of one bucket (`registrationTimes`);
* the window over at an attempt ended before it, so fifteen minutes meet at most two windows;
* of the earlier of the two they see at most three admissions, since its first lies before them
  and a fifth would have locked the later one out; of the later at most five.

Three and five make eight: three late in a window, five at once when the next one opens.

SOURCE: src/lamto/accounts/security.py:17-18, 89-123
-/

set_option autoImplicit false

namespace LamTo.Analysis

open LamTo.Library LamTo.Model

/-! ## Runs -/

/-- One call of `record_registration_attempt`. -/
structure RegistrationAttempt where
  account : Text
  ip : Text
  time : ℕ
deriving DecidableEq

def RegistrationAttempt.digest (L : LoginConfig) (call : RegistrationAttempt) : Text :=
  throttleDigest L call.account call.ip

/-- The call as it changes the buckets: a refusal leaves them. -/
def RegistrationAttempt.result (L : LoginConfig) (buckets : Buckets)
    (call : RegistrationAttempt) : Option Buckets :=
  recordRegistrationAttempt buckets (call.digest L) call.time

/-- The buckets after the calls. -/
def afterAttempts (L : LoginConfig) : Buckets → List RegistrationAttempt → Buckets
  | buckets, [] => buckets
  | buckets, call :: calls => afterAttempts L ((call.result L buckets).getD buckets) calls

/-- The times at which one bucket admits. -/
def registrationTimes : Option AuthThrottleBucket → List ℕ → List ℕ
  | _, [] => []
  | bucket, now :: times =>
    match registrationAttempt bucket now with
    | some next => now :: registrationTimes (some next) times
    | none => registrationTimes bucket times

/-- How many of the times lie in `[a, b)`. -/
def countIn (times : List ℕ) (a b : ℕ) : ℕ := times.countP fun t => a ≤ t ∧ t < b

/-- How many of the times are `a` or later. -/
def countFrom (times : List ℕ) (a : ℕ) : ℕ := times.countP fun t => a ≤ t

theorem countIn_concat (times : List ℕ) (now a b : ℕ) :
    countIn (times ++ [now]) a b =
      countIn times a b + if a ≤ now ∧ now < b then 1 else 0 := by
  simp only [countIn, List.countP_append, List.countP_singleton, decide_eq_true_eq]

theorem countFrom_concat (times : List ℕ) (now a : ℕ) :
    countFrom (times ++ [now]) a = countFrom times a + if a ≤ now then 1 else 0 := by
  simp only [countFrom, List.countP_append, List.countP_singleton, decide_eq_true_eq]

theorem countIn_le_countFrom (times : List ℕ) (a b : ℕ) :
    countIn times a b ≤ countFrom times a :=
  List.countP_mono_left fun t _ h => by
    simp only [decide_eq_true_eq] at h ⊢
    exact h.1

theorem countFrom_split (times : List ℕ) (a w : ℕ) (h : a ≤ w) :
    countFrom times a = countIn times a w + countFrom times w := by
  induction times with
  | nil => rfl
  | cons t times ih =>
    simp only [countFrom, countIn, List.countP_cons, decide_eq_true_eq] at ih ⊢
    split_ifs <;> omega

theorem countFrom_eq_zero (times : List ℕ) (a : ℕ) (h : ∀ t ∈ times, t < a) :
    countFrom times a = 0 := by
  rw [countFrom, List.countP_eq_zero]
  intro t ht hle
  exact absurd (h t ht) (Nat.not_lt.mpr (of_decide_eq_true hle))

/-! ## What a bucket keeps of its admissions -/

/-- The bucket, its window opened at `w`, after it admitted at the times. -/
structure Counts (b : AuthThrottleBucket) (w : ℕ) (times : List ℕ) : Prop where
  window : b.windowStartedAt = some w
  opened : 1 ≤ b.failureCount
  ended : ∀ t ∈ times, t ≤ w + throttleWindow
  before : ∀ a, w < a + throttleWindow → countIn times a w ≤ 3
  inside : countFrom times w ≤ b.failureCount
  later : ∀ a, w < a → countFrom times a + 1 ≤ b.failureCount
  locked : throttleMaxFailures ≤ b.failureCount →
    ∃ u, b.lockedUntil = some u ∧ ∀ t ∈ times, t + throttleWindow ≤ u

/-- A bucket that counted five and admits again last admitted a whole window ago. -/
theorem Counts.past {b : AuthThrottleBucket} {w : ℕ} {times : List ℕ} (h : Counts b w times)
    {now a : ℕ} (hfree : b.locked now = false) (hfull : throttleMaxFailures ≤ b.failureCount)
    (ha : now < a + throttleWindow) : countFrom times a = 0 := by
  obtain ⟨u, hu, hpast⟩ := h.locked hfull
  simp only [AuthThrottleBucket.locked, hu, Option.any_some, decide_eq_false_iff_not] at hfree
  refine countFrom_eq_zero times a fun t ht => ?_
  have hlast := hpast t ht
  omega

/-- **At most seven before an admission**: three of the window before and four of this one. -/
theorem Counts.room {b : AuthThrottleBucket} {w : ℕ} {times : List ℕ} (h : Counts b w times)
    {now a : ℕ} (hfree : b.locked now = false) (hwindow : w ≤ now)
    (ha : now < a + throttleWindow) : countFrom times a ≤ 7 := by
  by_cases hfull : throttleMaxFailures ≤ b.failureCount
  · rw [h.past hfree hfull ha]
    exact Nat.zero_le 7
  · have hcount : b.failureCount ≤ 4 := by
      simp only [throttleMaxFailures] at hfull
      omega
    rcases Nat.lt_or_ge w a with haw | haw
    · have hlater := h.later a haw
      omega
    · have hbefore := h.before a (by omega)
      have hinside := h.inside
      rw [countFrom_split times a w haw]
      omega

/-- The attempt that opens the next window. -/
theorem Counts.reopen {b : AuthThrottleBucket} {w : ℕ} {times : List ℕ} (h : Counts b w times)
    {now : ℕ} (hfree : b.locked now = false) (hover : w + throttleWindow < now) :
    Counts ⟨1, some now, none⟩ now (times ++ [now]) where
  window := rfl
  opened := Nat.le_refl 1
  ended := by
    intro t ht
    rcases List.mem_append.mp ht with ht | ht
    · have hended := h.ended t ht
      omega
    · obtain rfl := List.mem_singleton.mp ht
      exact Nat.le_add_right t _
  before := by
    intro a ha
    rw [countIn_concat, if_neg (fun hin => absurd hin.2 (Nat.lt_irrefl now))]
    refine Nat.le_trans (countIn_le_countFrom times a now) ?_
    by_cases hfull : throttleMaxFailures ≤ b.failureCount
    · rw [h.past hfree hfull ha]
      exact Nat.zero_le 3
    · -- the first admission of the old window lies before `a`
      have hlater := h.later a (by omega)
      simp only [throttleMaxFailures] at hfull
      omega
  inside := by
    rw [countFrom_concat, if_pos (Nat.le_refl now),
      countFrom_eq_zero times now fun t ht => Nat.lt_of_le_of_lt (h.ended t ht) hover]
  later := by
    intro a ha
    rw [countFrom_concat, if_neg (Nat.not_le.mpr ha), countFrom_eq_zero times a fun t ht => by
      have hended := h.ended t ht
      omega]
  locked := fun hfull => absurd hfull (show ¬ throttleMaxFailures ≤ 1 by decide)

/-- One more attempt in the running window. -/
theorem Counts.more {b : AuthThrottleBucket} {w : ℕ} {times : List ℕ} (h : Counts b w times)
    {now : ℕ} (hwindow : w ≤ now) (hrunning : now ≤ w + throttleWindow)
    (hlast : ∀ t ∈ times, t ≤ now) {locked : Option ℕ}
    (hlocked : throttleMaxFailures ≤ b.failureCount + 1 → locked = some (now + throttleWindow)) :
    Counts ⟨b.failureCount + 1, b.windowStartedAt, locked⟩ w (times ++ [now]) where
  window := h.window
  opened := Nat.le_add_left 1 b.failureCount
  ended := by
    intro t ht
    rcases List.mem_append.mp ht with ht | ht
    · exact h.ended t ht
    · obtain rfl := List.mem_singleton.mp ht
      exact hrunning
  before := by
    intro a ha
    rw [countIn_concat, if_neg (fun hin => absurd hin.2 (Nat.not_lt.mpr hwindow))]
    exact h.before a ha
  inside := by
    rw [countFrom_concat, if_pos hwindow]
    exact Nat.add_le_add_right h.inside 1
  later := by
    intro a ha
    have hlater := h.later a ha
    show countFrom (times ++ [now]) a + 1 ≤ b.failureCount + 1
    rw [countFrom_concat]
    split <;> omega
  locked := by
    intro hfull
    refine ⟨now + throttleWindow, hlocked hfull, ?_⟩
    intro t ht
    rcases List.mem_append.mp ht with ht | ht
    · exact Nat.add_le_add_right (hlast t ht) _
    · obtain rfl := List.mem_singleton.mp ht
      exact Nat.le_refl _

theorem all_lt_iff (start : Option ℕ) (window w now : ℕ) (h : start = some w) :
    start.all (· + window < now) = true ↔ w + window < now := by
  subst h
  exact decide_eq_true_iff

theorem windowOver_iff (b : AuthThrottleBucket) (w now : ℕ) (h : b.windowStartedAt = some w) :
    b.windowOver now = true ↔ w + throttleWindow < now :=
  all_lt_iff b.windowStartedAt throttleWindow w now h

/-- **An admission is counted.** -/
theorem Counts.fail {b : AuthThrottleBucket} {w : ℕ} {times : List ℕ} (h : Counts b w times)
    {now : ℕ} (hfree : b.locked now = false) (hwindow : w ≤ now)
    (hlast : ∀ t ∈ times, t ≤ now) :
    ∃ v, v ≤ now ∧ Counts (b.fail now) v (times ++ [now]) := by
  unfold AuthThrottleBucket.fail
  have hiff := windowOver_iff b w now h.window
  cases hover : b.windowOver now with
  | true =>
    rw [if_pos rfl, if_neg (show ¬ throttleMaxFailures ≤ 1 by decide)]
    exact ⟨now, Nat.le_refl now, h.reopen hfree (hiff.mp hover)⟩
  | false =>
    have hrunning : now ≤ w + throttleWindow := by
      rw [hover] at hiff
      exact Nat.not_lt.mp fun hlt => absurd (hiff.mpr hlt) Bool.false_ne_true
    refine ⟨w, hwindow, ?_⟩
    rw [if_neg Bool.false_ne_true]
    by_cases hfull : throttleMaxFailures ≤ b.failureCount + 1
    · rw [if_pos hfull]
      exact h.more hwindow hrunning hlast fun _ => rfl
    · rw [if_neg hfull]
      exact h.more hwindow hrunning hlast fun hfive => absurd hfive hfull

/-- The admissions of a bucket that has a window: none of its runs meets a ninth. -/
theorem Counts.bounded (b : AuthThrottleBucket) (w : ℕ) (times calls : List ℕ) (a : ℕ)
    (h : Counts b w times) (hwindow : ∀ t ∈ calls, w ≤ t)
    (hlast : ∀ t ∈ times, ∀ u ∈ calls, t ≤ u) (hsorted : calls.Pairwise (· ≤ ·))
    (hcount : countIn times a (a + throttleWindow) ≤ 8) :
    countIn (times ++ registrationTimes (some b) calls) a (a + throttleWindow) ≤ 8 := by
  induction calls generalizing b w times with
  | nil => rwa [registrationTimes, List.append_nil]
  | cons now calls ih =>
    obtain ⟨hfirst, hsorted⟩ := List.pairwise_cons.mp hsorted
    have hrest : ∀ t ∈ times, ∀ u ∈ calls, t ≤ u := fun t ht u hu =>
      hlast t ht u (List.mem_cons_of_mem now hu)
    cases hfree : b.locked now with
    | true =>
      have hnone : registrationAttempt (some b) now = none := if_pos hfree
      simp only [registrationTimes, hnone]
      exact ih b w times h (fun t ht => hwindow t (List.mem_cons_of_mem now ht)) hrest hsorted
        hcount
    | false =>
      have hsome : registrationAttempt (some b) now = some (b.fail now) :=
        if_neg (Bool.eq_false_iff.mp hfree)
      have hnow : w ≤ now := hwindow now List.mem_cons_self
      have hbefore : ∀ t ∈ times, t ≤ now := fun t ht => hlast t ht now List.mem_cons_self
      obtain ⟨v, hv, hcounts⟩ := h.fail hfree hnow hbefore
      have hone : countIn (times ++ [now]) a (a + throttleWindow) ≤ 8 := by
        rw [countIn_concat]
        split
        · rename_i hin
          have hroom := h.room hfree hnow hin.2
          have hle := countIn_le_countFrom times a (a + throttleWindow)
          omega
        · exact hcount
      simp only [registrationTimes, hsome]
      rw [List.append_cons]
      refine ih (b.fail now) v (times ++ [now]) hcounts ?_ ?_ hsorted hone
      · exact fun t ht => Nat.le_trans hv (hfirst t ht)
      · intro t ht u hu
        rcases List.mem_append.mp ht with ht | ht
        · exact hrest t ht u hu
        · obtain rfl := List.mem_singleton.mp ht
          exact hfirst u hu

/-- The key is locked until a time. -/
def KeyLocked (buckets : Buckets) (digest : Text) (u : ℕ) : Prop :=
  ∃ b, buckets digest = some b ∧ b.lockedUntil = some u

/-- Before the lock ends an attempt of the key is refused. -/
theorem KeyLocked.refuses {buckets : Buckets} {digest : Text} {u : ℕ}
    (h : KeyLocked buckets digest u) (now : ℕ) (hnow : now < u) :
    recordRegistrationAttempt buckets digest now = none := by
  obtain ⟨b, hb, hu⟩ := h
  have hlocked : b.locked now = true := by
    simp only [AuthThrottleBucket.locked, hu, Option.any_some, hnow, decide_true]
  have hnone : registrationAttempt (some b) now = none := if_pos hlocked
  rw [recordRegistrationAttempt, hb, hnone, Option.map_none]

/-- The lock lasts: attempts of the key are refused, those of others have their own buckets. -/
theorem KeyLocked.after {L : LoginConfig} {digest : Text} {u : ℕ} (buckets : Buckets)
    (calls : List RegistrationAttempt) (h : KeyLocked buckets digest u)
    (htimes : ∀ call ∈ calls, call.time < u) :
    KeyLocked (afterAttempts L buckets calls) digest u := by
  induction calls generalizing buckets with
  | nil => exact h
  | cons call calls ih =>
    refine ih _ ?_ fun other hother => htimes other (List.mem_cons_of_mem call hother)
    by_cases hkey : call.digest L = digest
    · have hrefused : call.result L buckets = none := by
        rw [RegistrationAttempt.result, hkey]
        exact h.refuses call.time (htimes call List.mem_cons_self)
      rw [hrefused]
      exact h
    · obtain ⟨b, hb, hu⟩ := h
      cases hattempt : registrationAttempt (buckets (call.digest L)) call.time with
      | none =>
        rw [RegistrationAttempt.result, recordRegistrationAttempt, hattempt]
        exact ⟨b, hb, hu⟩
      | some next =>
        rw [RegistrationAttempt.result, recordRegistrationAttempt, hattempt]
        exact ⟨b, (Function.update_of_ne (Ne.symm hkey) _ _).trans hb, hu⟩

end LamTo.Analysis
