import LamTo.Analysis.SingleSend

/-!
# When a delivery is attempted again

A failed attempt sets the time of the next one and counts against a limit. `claim_pending_deliveries`
reads both, but lets the locks of the rows go; `process_delivery` reads the status of the row again
and nothing else. Two workers may claim a row before either of them takes it: the second then
attempts a row that has failed in the meantime, before its time and beyond the limit of a push.
`outOfTurn` is that call: the row has been attempted since the claim, has failed and is not due.

* **Rows** (`RowTurn`): a pending row has no attempts, and one that will be retried is below its
  limit.
* **Claims** (`TurnInv.claims`): a claimed row that was not attempted since is final or due.
* **The log** (`LogCounted`): the attempts made are those the row counts and the one in work,
  while no worker stops in the middle of one.

SOURCE: src/lamto/notifications/services.py:205-305, 405-487
-/

set_option autoImplicit false

namespace LamTo.Analysis

open LamTo.Library LamTo.Model

variable {W : Type} [DecidableEq W] {P : PushConfig} {s s' : DeliverySystem W} {a : SendAction W}

/-- The limit of a channel; an in-app notice is made available once. -/
def maxAttempts : Channel → ℕ
  | .inApp => 1
  | .email => maxEmailAttempts
  | .push => maxPushAttempts

/-- The attempts on a row. -/
def attemptsOn (s : DeliverySystem W) (pk : ℕ) : List Attempt :=
  s.attempted.filter fun t => t.pk = pk

/-- The attempts of a channel that were made on a row, the one in work included. -/
def attemptsOf (s : DeliverySystem W) (pk : ℕ) (c : Channel) : ℕ :=
  ((attemptsOn s pk).filter fun t => t.row.channel = c).length

/-- The worker takes a row that has been attempted since its claim, has failed and is not due. -/
def outOfTurn (s : DeliverySystem W) : SendAction W → Bool
  | .take w _ => (s.worker w).claimed.head?.any fun c => (s.rows.get? c.1).any fun row =>
    row.status = .failed && row.attempts ≠ c.2.attempts && !row.due s.now
  | _ => false

/-- The worker stops in the middle of an attempt. -/
def abandonsAttempt (s : DeliverySystem W) : SendAction W → Bool
  | .stop w => (s.worker w).job.pk?.isSome
  | _ => false

/-! ## Rows -/

/-- The count and the time of a row agree with its status. -/
structure RowTurn (row : DeliveryRow) : Prop where
  pending : row.status = .pending → row.attempts = 0
  failed : row.status = .failed → row.channel ≠ .inApp
  retry : row.status = .failed → row.nextRetryAt ≠ none → row.attempts < maxAttempts row.channel
  bound : row.attempts ≤ maxAttempts row.channel

theorem maxAttempts_pos (c : Channel) : 0 < maxAttempts c := by
  cases c with
  | _ => decide

/-- A row that is due has attempts left. -/
theorem RowTurn.attempts_lt (row : DeliveryRow) (h : RowTurn row) (now : ℕ)
    (hdue : row.due now = true) : row.attempts < maxAttempts row.channel := by
  unfold DeliveryRow.due at hdue
  rw [Bool.or_eq_true, Bool.and_eq_true, decide_eq_true_eq, decide_eq_true_eq] at hdue
  rcases hdue with hpending | ⟨hfailed, hretry⟩
  · rw [h.pending hpending]
    exact maxAttempts_pos row.channel
  · refine h.retry hfailed fun hnone => ?_
    rw [hnone] at hretry
    cases hretry

/-- An open row of the app is pending. -/
theorem RowTurn.pending_of_inApp (row : DeliveryRow) (h : RowTurn row) (hopen : row.final = false)
    (hinApp : row.channel = .inApp) : row.status = .pending := by
  cases hstatus : row.status with
  | pending => rfl
  | failed => exact absurd hinApp (h.failed hstatus)
  | available =>
    rw [DeliveryRow.final, hstatus] at hopen
    cases hopen
  | sent =>
    rw [DeliveryRow.final, hstatus] at hopen
    cases hopen
  | dead =>
    rw [DeliveryRow.final, hstatus] at hopen
    cases hopen

/-- A final row that has not passed its limit. -/
theorem RowTurn.of_final (row : DeliveryRow) (hfinal : row.final = true)
    (hbound : row.attempts ≤ maxAttempts row.channel) : RowTurn row := by
  refine ⟨fun h => ?_, fun h => ?_, fun h => ?_, hbound⟩
  all_goals
    rw [DeliveryRow.final, h] at hfinal
    cases hfinal

theorem RowTurn.mailFailed (row : DeliveryRow) (failedAt now : ℕ) (error : Text)
    (hchannel : row.channel = .email) (hlt : row.attempts < maxAttempts row.channel) :
    RowTurn (row.mailFailed failedAt now error) := by
  have hbound : row.attempts + 1 ≤ maxAttempts row.channel := hlt
  unfold DeliveryRow.mailFailed
  split
  · exact .of_final _ rfl hbound
  · next hleft =>
    refine ⟨fun h => (by cases h), fun _ => ?_, fun _ _ => ?_, hbound⟩
    · show row.channel ≠ .inApp
      rw [hchannel]
      decide
    · show row.attempts + 1 < maxAttempts row.channel
      rw [hchannel]
      exact Nat.lt_of_not_le hleft

theorem RowTurn.pushed (row : DeliveryRow) (startedAt now : ℕ) (sent : List ℕ)
    (transient : Option Text) (hchannel : row.channel = .push)
    (hlt : row.attempts < maxAttempts row.channel) :
    RowTurn (row.pushed startedAt now sent transient) := by
  have hbound : row.attempts + 1 ≤ maxAttempts row.channel := hlt
  have hinApp : row.channel ≠ .inApp := by
    rw [hchannel]
    decide
  unfold DeliveryRow.pushed
  cases transient with
  | none =>
    dsimp only
    split
    · exact .of_final _ rfl hbound
    · exact .of_final _ rfl hbound
  | some error =>
    dsimp only
    split
    · exact ⟨fun h => (by cases h), fun _ => hinApp, fun _ h => absurd rfl h, hbound⟩
    · next hleft =>
      refine ⟨fun h => (by cases h), fun _ => hinApp, fun _ _ => ?_, hbound⟩
      show row.attempts + 1 < maxAttempts row.channel
      rw [hchannel]
      exact Nat.lt_of_not_le hleft

omit [DecidableEq W] in
/-- Every write keeps the row in turn, where an attempt was below the limit. -/
theorem RowChange.turn (hinv : HoldInv s) (pk : ℕ) (row row' : DeliveryRow)
    (h : RowChange s pk row a row') (hturn : RowTurn row)
    (hlt : s.holder pk ≠ none → row.attempts < maxAttempts row.channel) : RowTurn row' := by
  cases h with
  | kept => exact hturn
  | published => exact .of_final _ rfl hturn.bound
  | shown _ _ hopen hinApp =>
    refine .of_final _ rfl ?_
    show row.attempts + 1 ≤ maxAttempts row.channel
    rw [hturn.pending (hturn.pending_of_inApp row hopen hinApp)]
    exact maxAttempts_pos row.channel
  | suppressed => exact .of_final _ rfl hturn.bound
  | saved w job f hbusy hsaves =>
    have hfits := hinv.fits w
    rw [hbusy] at hfits
    have hheld := (hinv.held w pk row (by rw [hbusy, hsaves.row?_eq])).1
    have hbelow := hlt (by rw [hheld]; exact Option.some_ne_none w)
    cases hsaves with
    | sent => exact .of_final _ rfl hbelow
    | failed endedAt error => exact .mailFailed row endedAt s.now error hfits hbelow
    | pushed startedAt sent terminal transient =>
      exact .pushed row startedAt s.now sent transient hfits.1 hbelow

omit [DecidableEq W] in
/-- A write makes the row final, counts an attempt, or changes nothing. -/
theorem RowChange.attempts (pk : ℕ) (row row' : DeliveryRow) (h : RowChange s pk row a row') :
    row' = row ∨ row.attempts ≤ row'.attempts ∧ row'.final = true ∨
      row'.attempts = row.attempts + 1 := by
  cases h with
  | kept => exact .inl rfl
  | published => exact .inr (.inl ⟨le_rfl, rfl⟩)
  | shown => exact .inr (.inr rfl)
  | suppressed => exact .inr (.inl ⟨le_rfl, rfl⟩)
  | saved w job f hbusy hsaves =>
    refine .inr (.inr ?_)
    cases hsaves with
    | sent => rfl
    | failed => exact mailFailed_attempts _ _ _ _
    | pushed => exact pushed_attempts _ _ _ _ _

/-! ## The invariant -/

/-- A claim of before says nothing wrong about its row: the row has not fewer attempts, and with
the same number it is final or due. -/
def ClaimHolds (s : DeliverySystem W) (c : ℕ × DeliveryRow) : Prop :=
  c.1 < s.rows.next ∧ ∀ row, s.rows.get? c.1 = some row → c.2.attempts ≤ row.attempts ∧
    (row.attempts = c.2.attempts → row.final = true ∨ row.due s.now = true)

/-- An attempt was made on an open row, in its turn and below its limit. -/
structure AttemptOk (t : Attempt) : Prop where
  unfinished : t.row.final = false
  waited : t.row.status = .failed → ∃ retryAt, t.row.nextRetryAt = some retryAt ∧ retryAt ≤ t.startedAt
  below : t.row.attempts < maxAttempts t.row.channel

structure TurnInv (s : DeliverySystem W) : Prop where
  rows : ∀ pk row, s.rows.get? pk = some row → RowTurn row
  claims : ∀ w, ∀ c ∈ (s.worker w).claimed, ClaimHolds s c
  held : ∀ pk row, s.rows.get? pk = some row → s.holder pk ≠ none →
    row.attempts < maxAttempts row.channel
  attempts : ∀ t ∈ s.attempted, AttemptOk t ∧ t.pk < s.rows.next ∧
    (t.row.channel ≠ .inApp → ∃ row, s.rows.get? t.pk = some row ∧ row.channel = t.row.channel)

/-- The log of a row has the attempts it counts and the one in work. -/
def LogCounted (s : DeliverySystem W) : Prop :=
  ∀ pk row, s.rows.get? pk = some row →
    (attemptsOn s pk).length = row.attempts + if s.holder pk = none then 0 else 1

omit [DecidableEq W] in
theorem turnInv_empty : TurnInv (DeliverySystem.empty : DeliverySystem W) where
  rows _ _ h := by cases h
  claims _ _ h := by cases h
  held _ _ h := by cases h
  attempts _ h := by cases h

theorem due_mono (row : DeliveryRow) (now later : ℕ) (hle : now ≤ later) (h : row.due now = true) :
    row.due later = true := by
  unfold DeliveryRow.due at h ⊢
  rw [Bool.or_eq_true, Bool.and_eq_true] at h ⊢
  rcases h with hpending | ⟨hfailed, hretry⟩
  · exact .inl hpending
  · obtain ⟨retryAt, hsome, hbefore⟩ := (Option.any_eq_true _ _).mp hretry
    rw [decide_eq_true_eq] at hbefore
    exact .inr ⟨hfailed, (Option.any_eq_true _ _).mpr ⟨retryAt, hsome, by simpa using le_trans hbefore hle⟩⟩

/-- The clock never goes back. -/
theorem now_le (h : DeliverySystem.step P s a = some s') : s.now ≤ s'.now := by
  cases send_effect h with
  | passed elapsed => exact Nat.le_add_right _ _
  | stopped w =>
    unfold DeliverySystem.stop
    split
    · exact le_rfl
    · exact le_rfl
  | _ => exact le_rfl

/-- A claim that held holds after the step. -/
theorem ClaimHolds.step (hhold : HoldInv s) (h : DeliverySystem.step P s a = some s')
    (c : ℕ × DeliveryRow) (hclaim : ClaimHolds s c) : ClaimHolds s' c := by
  have hrows := rows_stepped hhold h
  obtain ⟨hlt, hrow⟩ := hclaim
  refine ⟨lt_of_lt_of_le hlt hrows.next_le, fun row' hrow' => ?_⟩
  rcases hrows.found c.1 row' hrow' with ⟨row, hget, hchange⟩ | ⟨hnew, _⟩
  · obtain ⟨hle, hdue⟩ := hrow row hget
    rcases hchange.attempts c.1 row row' with rfl | ⟨hgrown, hfinal⟩ | hcounted
    · refine ⟨hle, fun heq => ?_⟩
      rcases hdue heq with hfinal | hturn
      · exact .inl hfinal
      · exact .inr (due_mono row' s.now s'.now (now_le h) hturn)
    · exact ⟨le_trans hle hgrown, fun _ => .inl hfinal⟩
    · refine ⟨by omega, fun heq => ?_⟩
      omega
  · rw [hnew] at hlt
    exact absurd hlt (lt_irrefl _)

omit [DecidableEq W] in
/-- The rows a claim returns are due. -/
theorem claimed_due (held : ℕ → Bool) (limit : ℕ) (c : ℕ × DeliveryRow)
    (h : c ∈ claimPendingDeliveries s.rows held s.now limit) :
    s.rows.get? c.1 = some c.2 ∧ c.2.due s.now = true := by
  unfold claimPendingDeliveries at h
  have hmem := List.mem_of_mem_take h
  rw [List.mem_insertionSort, List.mem_filter] at hmem
  exact (Table.mem_select _ _ _ _).mp hmem.1

/-- What a step does to the claims of a worker: some go, or a new claim is made. -/
theorem claims_stepped (h : DeliverySystem.step P s a = some s') (w : W) :
    (∀ c ∈ (s'.worker w).claimed, c ∈ (s.worker w).claimed) ∨
      ∃ limit, a = .claim w limit ∧ (s'.worker w).claimed =
        claimPendingDeliveries s.rows (fun pk => (s.holder pk).isSome) s.now limit := by
  -- Another worker's claims stay, and the worker's own become `sender`'s.
  have hset : ∀ (t : DeliverySystem W) (w' : W) (sender : Sender), t.worker = s.worker →
      (∀ c ∈ sender.claimed, c ∈ (s.worker w').claimed) →
      ∀ c ∈ ((t.setWorker w' sender).worker w).claimed, c ∈ (s.worker w).claimed := by
    intro t w' sender ht hsub c hc
    by_cases hw : w = w'
    · subst hw
      rw [setWorker_self] at hc
      exact hsub c hc
    · rw [setWorker_of_ne _ w' w _ hw, ht] at hc
      exact hc
  have htail : ∀ (w' : W) (entry : ℕ × DeliveryRow) (rest : List (ℕ × DeliveryRow)) (job : Job),
      s.worker w' = ⟨entry :: rest, job⟩ → ∀ c ∈ rest, c ∈ (s.worker w').claimed := by
    intro w' entry rest job hw' c hc
    rw [hw']
    exact List.mem_cons_of_mem entry hc
  have hsame : ∀ (w' : W) (rest : List (ℕ × DeliveryRow)) (job : Job), s.worker w' = ⟨rest, job⟩ →
      ∀ c ∈ rest, c ∈ (s.worker w').claimed := by
    intro w' rest job hw' c hc
    rw [hw']
    exact hc
  cases send_effect h with
  | claimed w' limit hidle =>
    by_cases hw : w = w'
    · subst hw
      exact .inr ⟨limit, rfl, by rw [setWorker_self]⟩
    · left
      intro c hc
      rw [setWorker_of_ne _ w' w _ hw] at hc
      exact hc
  | dropped w' order pk old rest hnext => exact .inl (hset s w' _ rfl (htail w' _ rest _ hnext))
  | shown w' order pk old row rest hnext => exact .inl (hset _ w' _ rfl (htail w' _ rest _ hnext))
  | suppressed w' order pk old row rest reason hnext =>
    exact .inl (hset _ w' _ rfl (htail w' _ rest _ hnext))
  | began w' order pk old row rest job hnext => exact .inl (hset _ w' _ rfl (htail w' _ rest _ hnext))
  | mailed w' error rest pk row hbusy => exact .inl (hset _ w' _ rfl (hsame w' rest _ hbusy))
  | round w' error rest d pk row startedAt devices sent job job' hbusy =>
    exact .inl (hset _ w' _ rfl (hsame w' rest _ hbusy))
  | reached w' error rest d pk row startedAt devices sent terminal transient hbusy =>
    exact .inl (hset _ w' _ rfl (hsame w' rest _ hbusy))
  | saved w' rest pk row job f devices hbusy => exact .inl (hset _ w' _ rfl (hsame w' rest _ hbusy))
  | stopped w' =>
    left
    have hnone : ∀ c ∈ ([] : List (ℕ × DeliveryRow)), c ∈ (s.worker w').claimed :=
      fun c hc => by cases hc
    unfold DeliverySystem.stop
    split
    · exact hset s w' _ rfl hnone
    · exact hset _ w' _ rfl hnone
  | _ => exact .inl fun _ hc => hc

omit [DecidableEq W] in
/-- **A row is taken in its turn.** -/
theorem TurnInv.due_of_taken (hinv : TurnInv s) (w : W) (order : List ℕ)
    (hok : outOfTurn s (.take w order) = false) (pk : ℕ) (old row : DeliveryRow)
    (rest : List (ℕ × DeliveryRow)) (hnext : s.worker w = ⟨(pk, old) :: rest, .idle⟩)
    (hrow : s.rows.get? pk = some row) (hopen : row.final = false) : row.due s.now = true := by
  by_contra hnot
  rw [Bool.not_eq_true] at hnot
  obtain ⟨_, hclaim⟩ := hinv.claims w (pk, old) (by rw [hnext]; exact List.mem_cons_self)
  have hattempted : row.attempts ≠ old.attempts := by
    intro heq
    rcases (hclaim row hrow).2 heq with hfinal | hdue
    · rw [hopen] at hfinal
      cases hfinal
    · rw [hnot] at hdue
      cases hdue
  have hfailed : row.status = .failed := by
    cases hstatus : row.status with
    | failed => rfl
    | pending =>
      rw [DeliveryRow.due, hstatus] at hnot
      cases hnot
    | _ =>
      rw [DeliveryRow.final, hstatus] at hopen
      cases hopen
  rw [outOfTurn, hnext, List.head?_cons, Option.any_some, hrow, Option.any_some,
    decide_eq_true hfailed, decide_eq_true hattempted, hnot] at hok
  cases hok

omit [DecidableEq W] in
/-- An attempt on a row that is taken in its turn is one that may be made. -/
theorem TurnInv.attemptOk (hinv : TurnInv s) (pk : ℕ) (row : DeliveryRow)
    (hrow : s.rows.get? pk = some row) (hopen : row.final = false) (hdue : row.due s.now = true) :
    AttemptOk ⟨pk, s.now, row⟩ where
  unfinished := hopen
  below := (hinv.rows pk row hrow).attempts_lt row s.now hdue
  waited hfailed := by
    have hfailed : row.status = .failed := hfailed
    unfold DeliveryRow.due at hdue
    rw [hfailed] at hdue
    obtain ⟨retryAt, hsome, hbefore⟩ := (Option.any_eq_true _ _).mp hdue
    exact ⟨retryAt, hsome, of_decide_eq_true hbefore⟩

/-- What a step adds to the log: an attempt on a row that is taken. -/
theorem attempted_stepped (h : DeliverySystem.step P s a = some s') :
    s'.attempted = s.attempted ∨ ∃ w order pk old row rest, a = .take w order ∧
      s.worker w = ⟨(pk, old) :: rest, .idle⟩ ∧ s.rows.get? pk = some row ∧ row.final = false ∧
      s'.attempted = ⟨pk, s.now, row⟩ :: s.attempted := by
  cases send_effect h with
  | shown w order pk old row rest hnext hrow _ hopen =>
    exact .inr ⟨w, order, pk, old, row, rest, rfl, hnext, hrow, hopen, rfl⟩
  | began w order pk old row rest job hnext hrow _ hopen =>
    exact .inr ⟨w, order, pk, old, row, rest, rfl, hnext, hrow, hopen, rfl⟩
  | stopped w =>
    left
    unfold DeliverySystem.stop
    split
    · rfl
    · rfl
  | _ => exact .inl rfl

omit [DecidableEq W] in
/-- A row that is not there is held by nobody and was never attempted. -/
theorem TurnInv.unknown (hinv : TurnInv s) (hhold : HoldInv s) :
    s.holder s.rows.next = none ∧ attemptsOn s s.rows.next = [] := by
  constructor
  · by_contra hsome
    obtain ⟨w, hw⟩ := Option.ne_none_iff_exists'.mp hsome
    obtain ⟨row, hjob⟩ := hhold.holding _ w hw
    have hrow := (hhold.held w _ row hjob).2.1
    rw [Table.get?_next] at hrow
    cases hrow
  · rw [attemptsOn, List.filter_eq_nil_iff]
    intro t ht hpk
    have hlt := (hinv.attempts t ht).2.1
    rw [of_decide_eq_true hpk] at hlt
    exact absurd hlt (lt_irrefl _)

omit [DecidableEq W] in
/-- A worker that stops between two attempts only drops its claims. -/
theorem pk?_of_stop (w : W) (hok : abandonsAttempt s (.stop w) = false) :
    (s.worker w).job.pk? = none := by
  rw [abandonsAttempt] at hok
  cases hpk : (s.worker w).job.pk? with
  | none => rfl
  | some pk =>
    rw [hpk] at hok
    cases hok

theorem LogCounted.step (hlog : LogCounted s) (hinv : TurnInv s) (hhold : HoldInv s)
    (hstop : abandonsAttempt s a = false) (h : DeliverySystem.step P s a = some s') :
    LogCounted s' := by
  intro pk row' hrow'
  cases send_effect h with
  | queued =>
    rw [Table.get?_insert] at hrow'
    split at hrow'
    · next hpk =>
      cases hrow'
      obtain ⟨hfree, hnone⟩ := hinv.unknown hhold
      subst hpk
      show (attemptsOn s s.rows.next).length = 0 + if s.holder s.rows.next = none then 0 else 1
      rw [hnone, hfree]
      rfl
    · exact hlog pk row' hrow'
  | published key =>
    rw [Table.get?_update] at hrow'
    split at hrow'
    · obtain ⟨row, hrow, rfl⟩ := Option.map_eq_some_iff.mp hrow'
      split
      · exact hlog pk row hrow
      · exact hlog pk row hrow
    · exact hlog pk row' hrow'
  | withdrawn key => exact hlog pk row' ((Table.get?_remove _ _ _ _).mp hrow').1
  | shown w order key old row rest hnext hrow hfree =>
    have hget : (s.rows.update key (·.makeAvailable s.now)).get? pk = some row' := hrow'
    show (List.filter (fun t : Attempt => t.pk = pk) (⟨key, s.now, row⟩ :: s.attempted)).length =
      row'.attempts + if s.holder pk = none then 0 else 1
    rw [Table.get?_update] at hget
    by_cases hpk : pk = key
    · subst hpk
      rw [if_pos rfl, hrow] at hget
      cases hget
      have hcounted := hlog pk row hrow
      rw [hfree] at hcounted
      rw [List.filter_cons_of_pos (by simp), List.length_cons, hfree]
      show (attemptsOn s pk).length + 1 = row.attempts + 1 + 0
      rw [hcounted]
      rfl
    · rw [if_neg hpk] at hget
      rw [List.filter_cons_of_neg (by simpa using Ne.symm hpk)]
      exact hlog pk row' hget
  | suppressed w order key old row rest reason hnext hrow hfree =>
    have hget : (s.rows.update key (·.suppress reason s.now)).get? pk = some row' := hrow'
    rw [Table.get?_update] at hget
    split at hget
    · obtain ⟨r, hr, rfl⟩ := Option.map_eq_some_iff.mp hget
      exact hlog pk r hr
    · exact hlog pk row' hget
  | began w order key old row rest job hnext hrow hfree =>
    show (List.filter (fun t : Attempt => t.pk = pk) (⟨key, s.now, row⟩ :: s.attempted)).length =
      row'.attempts + if Function.update s.holder key (some w) pk = none then 0 else 1
    have hcounted := hlog pk row' hrow'
    by_cases hpk : pk = key
    · subst hpk
      rw [hfree] at hcounted
      rw [List.filter_cons_of_pos (by simp), List.length_cons, Function.update_self]
      show (attemptsOn s pk).length + 1 = row'.attempts + 1
      rw [hcounted]
      rfl
    · rw [List.filter_cons_of_neg (by simpa using Ne.symm hpk), Function.update_of_ne hpk]
      exact hcounted
  | saved w rest key row job f devices hbusy hsaves =>
    have hjob : (s.worker w).job = job := by rw [hbusy]
    obtain ⟨hheld, hrow, _⟩ := hhold.held w key row (by rw [hjob, hsaves.row?_eq])
    have hget : (s.rows.update key f).get? pk = some row' := hrow'
    show (attemptsOn s pk).length =
      row'.attempts + if Function.update s.holder key none pk = none then 0 else 1
    rw [Table.get?_update] at hget
    by_cases hpk : pk = key
    · subst hpk
      rw [if_pos rfl, hrow] at hget
      cases hget
      have hcounted := hlog pk row hrow
      rw [hheld] at hcounted
      have hone : (f row).attempts = row.attempts + 1 := by
        cases hsaves with
        | sent => rfl
        | failed => exact mailFailed_attempts _ _ _ _
        | pushed => exact pushed_attempts _ _ _ _ _
      rw [Function.update_self, hcounted, hone]
      rfl
    · rw [if_neg hpk] at hget
      rw [Function.update_of_ne hpk]
      exact hlog pk row' hget
  | stopped w =>
    rw [DeliverySystem.stop, pk?_of_stop w hstop] at hrow' ⊢
    exact hlog pk row' hrow'
  | _ => exact hlog pk row' hrow'

theorem TurnInv.held_step (hinv : TurnInv s) (hhold : HoldInv s)
    (hturn : outOfTurn s a = false) (h : DeliverySystem.step P s a = some s') (pk : ℕ)
    (row' : DeliveryRow)
    (hrow' : s'.rows.get? pk = some row') (hheld' : s'.holder pk ≠ none) :
    row'.attempts < maxAttempts row'.channel := by
  cases send_effect h with
  | queued =>
    rw [Table.get?_insert] at hrow'
    split at hrow'
    · next hpk =>
      rw [hpk] at hheld'
      exact absurd (hinv.unknown hhold).1 hheld'
    · exact hinv.held pk row' hrow' hheld'
  | published key =>
    rw [Table.get?_update] at hrow'
    split at hrow'
    · obtain ⟨row, hrow, rfl⟩ := Option.map_eq_some_iff.mp hrow'
      split
      · exact hinv.held pk row hrow hheld'
      · exact hinv.held pk row hrow hheld'
    · exact hinv.held pk row' hrow' hheld'
  | withdrawn key => exact hinv.held pk row' ((Table.get?_remove _ _ _ _).mp hrow').1 hheld'
  | shown w order key old row rest hnext hrow hfree =>
    have hget : (s.rows.update key (·.makeAvailable s.now)).get? pk = some row' := hrow'
    rw [Table.get?_update_ne] at hget
    · exact hinv.held pk row' hget hheld'
    · rintro rfl
      exact hheld' hfree
  | suppressed w order key old row rest reason hnext hrow hfree =>
    have hget : (s.rows.update key (·.suppress reason s.now)).get? pk = some row' := hrow'
    rw [Table.get?_update_ne] at hget
    · exact hinv.held pk row' hget hheld'
    · rintro rfl
      exact hheld' hfree
  | began w order key old row rest job hnext hrow hfree hopen =>
    have hget : s.rows.get? pk = some row' := hrow'
    by_cases hpk : pk = key
    · subst hpk
      cases hrow.symm.trans hget
      have hdue := hinv.due_of_taken w order hturn pk old row' rest hnext hget hopen
      exact (hinv.rows pk row' hget).attempts_lt row' s.now hdue
    · refine hinv.held pk row' hget fun hnone => hheld' ?_
      show Function.update s.holder key (some w) pk = none
      rw [Function.update_of_ne hpk, hnone]
  | saved w rest key row job f devices hbusy hsaves =>
    have hget : (s.rows.update key f).get? pk = some row' := hrow'
    have hpk : pk ≠ key := by
      rintro rfl
      exact hheld' (Function.update_self _ _ _)
    rw [Table.get?_update_ne _ _ _ _ hpk] at hget
    refine hinv.held pk row' hget fun hnone => hheld' ?_
    show Function.update s.holder key none pk = none
    rw [Function.update_of_ne hpk, hnone]
  | stopped w =>
    unfold DeliverySystem.stop at hrow' hheld'
    split at hrow'
    · next hidle =>
      rw [hidle] at hheld'
      exact hinv.held pk row' hrow' hheld'
    · next key hkey =>
      rw [hkey] at hheld'
      refine hinv.held pk row' hrow' fun hnone => hheld' ?_
      show Function.update s.holder key none pk = none
      by_cases hpk : pk = key
      · rw [hpk, Function.update_self]
      · rw [Function.update_of_ne hpk, hnone]
  | _ => exact hinv.held pk row' hrow' hheld'

theorem TurnInv.step (hinv : TurnInv s) (hhold : HoldInv s) (hturn : outOfTurn s a = false)
    (h : DeliverySystem.step P s a = some s') : TurnInv s' := by
  have hrows := rows_stepped hhold h
  refine ⟨fun pk row' hrow' => ?_, fun w c hc => ?_, hinv.held_step hhold hturn h, fun t ht => ?_⟩
  · rcases hrows.found pk row' hrow' with ⟨row, hrow, hchange⟩ | ⟨_, hpending, hzero, _⟩
    · exact hchange.turn hhold pk row row' (hinv.rows pk row hrow) (hinv.held pk row hrow)
    · refine ⟨fun _ => hzero, fun hfailed => ?_, fun hfailed => ?_, ?_⟩
      · rw [hpending] at hfailed
        cases hfailed
      · rw [hpending] at hfailed
        cases hfailed
      · rw [hzero]
        exact Nat.zero_le _
  · rcases claims_stepped h w with hsub | ⟨limit, rfl, hnew⟩
    · exact (hinv.claims w c (hsub c hc)).step hhold h
    · rw [hnew] at hc
      obtain ⟨hrow, hdue⟩ := claimed_due _ limit c hc
      have hclaim : ClaimHolds s c := by
        refine ⟨Table.lt_next_of_get? _ _ _ hrow, fun row hget => ?_⟩
        cases hrow.symm.trans hget
        exact ⟨le_rfl, fun _ => .inr hdue⟩
      exact hclaim.step hhold h
  · have hkept : ∀ pk row, s.rows.get? pk = some row → row.channel ≠ .inApp →
        ∃ row', s'.rows.get? pk = some row' ∧ row'.channel = row.channel := by
      intro pk row hrow hchannel
      obtain ⟨row', hrow', hchange⟩ := hrows.kept pk row hrow hchannel
      exact ⟨row', hrow', hchange.channel_eq⟩
    have hold : ∀ t ∈ s.attempted, AttemptOk t ∧ t.pk < s'.rows.next ∧
        (t.row.channel ≠ .inApp →
          ∃ row, s'.rows.get? t.pk = some row ∧ row.channel = t.row.channel) := by
      intro t ht
      obtain ⟨hattempt, hlt, hrow⟩ := hinv.attempts t ht
      refine ⟨hattempt, lt_of_lt_of_le hlt hrows.next_le, fun hchannel => ?_⟩
      obtain ⟨row, hget, hsame⟩ := hrow hchannel
      obtain ⟨row', hget', hsame'⟩ := hkept t.pk row hget (by rw [hsame]; exact hchannel)
      exact ⟨row', hget', hsame'.trans hsame⟩
    rcases attempted_stepped h with hsame | ⟨w, order, pk, old, r, rest, ha, hnext, hrow, hopen,
      hlog⟩
    · rw [hsame] at ht
      exact hold t ht
    · rw [hlog] at ht
      rcases List.mem_cons.mp ht with heq | ht
      · rw [ha] at hturn
        have hdue := hinv.due_of_taken w order hturn pk old r rest hnext hrow hopen
        rw [heq]
        refine ⟨hinv.attemptOk pk r hrow hopen hdue, ?_, hkept pk r hrow⟩
        exact lt_of_lt_of_le (Table.lt_next_of_get? _ _ _ hrow) hrows.next_le
      · exact hold t ht

/-! ## Runs -/

omit [DecidableEq W] in
/-- The attempts of one channel on a row stay within its limit. -/
theorem attempts_within (hinv : TurnInv s) (hlog : LogCounted s) (pk : ℕ) (c : Channel)
    (hc : c ≠ .inApp) :
    attemptsOf s pk c ≤ maxAttempts c := by
  unfold attemptsOf
  rcases Decidable.em ((attemptsOn s pk).filter (fun t => t.row.channel = c) = []) with hnone | hsome
  · rw [hnone]
    exact Nat.zero_le _
  · obtain ⟨t, ht⟩ := List.exists_mem_of_ne_nil _ hsome
    obtain ⟨hon, hchannel⟩ := List.mem_filter.mp ht
    obtain ⟨hmem, hpk⟩ := List.mem_filter.mp hon
    rw [decide_eq_true_eq] at hchannel hpk
    obtain ⟨row, hrow, hsame⟩ := (hinv.attempts t hmem).2.2 (by rw [hchannel]; exact hc)
    rw [hpk] at hrow
    rw [hchannel] at hsame
    have hle := List.length_filter_le (fun t : Attempt => decide (t.row.channel = c)) (attemptsOn s pk)
    have hcounted := hlog pk row hrow
    have hbound := (hinv.rows pk row hrow).bound
    have hheld := hinv.held pk row hrow
    rw [hsame] at hbound hheld
    split at hcounted
    · omega
    · next hbusy =>
      have hlt := hheld hbusy
      omega

/-- An attempt on a row that is done: final, or a push that has used its attempts. -/
def attemptedLate (t : Attempt) : Bool :=
  t.row.final ||
    t.row.channel = .push && t.row.status = .failed && maxPushAttempts ≤ t.row.attempts

/-- An attempt on a failed row before the time of the next one, or where there is no next one. -/
def attemptedEarly (t : Attempt) : Bool :=
  t.row.status = .failed && !t.row.nextRetryAt.any (· ≤ t.startedAt)

/-- What the attempts made and the counts of the rows keep to. -/
structure RetryDiscipline (s : DeliverySystem W) : Prop where
  waits : ∀ t ∈ s.attempted, attemptedEarly t = false
  ends : ∀ t ∈ s.attempted, attemptedLate t = false
  email : ∀ pk row, s.rows.get? pk = some row → row.channel = .email →
    row.attempts ≤ maxEmailAttempts
  push : ∀ pk row, s.rows.get? pk = some row → row.channel = .push → row.attempts ≤ maxPushAttempts

theorem AttemptOk.not_early (t : Attempt) (h : AttemptOk t) : attemptedEarly t = false := by
  unfold attemptedEarly
  cases hfailed : decide (t.row.status = .failed) with
  | false => rfl
  | true =>
    obtain ⟨retryAt, hsome, hbefore⟩ := h.waited (of_decide_eq_true hfailed)
    rw [hsome, Option.any_some, decide_eq_true hbefore]
    rfl

theorem AttemptOk.not_late (t : Attempt) (h : AttemptOk t) : attemptedLate t = false := by
  have hbelow := h.below
  unfold attemptedLate
  rw [h.unfinished, Bool.false_or]
  by_cases hchannel : t.row.channel = .push
  · rw [hchannel] at hbelow
    have hleft : ¬ maxPushAttempts ≤ t.row.attempts := Nat.not_le.mpr hbelow
    rw [decide_eq_false hleft, Bool.and_false]
  · rw [decide_eq_false hchannel]
    rfl

omit [DecidableEq W] in
theorem TurnInv.discipline (hinv : TurnInv s) : RetryDiscipline s where
  waits t ht := (hinv.attempts t ht).1.not_early
  ends t ht := (hinv.attempts t ht).1.not_late
  email pk row hrow hchannel := by
    have hbound := (hinv.rows pk row hrow).bound
    rw [hchannel] at hbound
    exact hbound
  push pk row hrow hchannel := by
    have hbound := (hinv.rows pk row hrow).bound
    rw [hchannel] at hbound
    exact hbound

/-- **A delivery is attempted in its turn**, in every run of any number of workers in which none
takes a row that has been attempted since its claim, has failed and is not due: no attempt is made
before the time of the retry or on a row that is done, and no row counts more attempts than its
limit. Where no worker stops in the middle of an attempt, no more are made either. -/
theorem deliveries_attempted_in_turn
    (h : Reaches (DeliverySystem.step P) (fun s a => outOfTurn s a = false)
      DeliverySystem.empty s) :
    RetryDiscipline s ∧
      (Reaches (DeliverySystem.step P)
          (fun s a => outOfTurn s a = false ∧ abandonsAttempt s a = false) DeliverySystem.empty s →
        ∀ pk, attemptsOf s pk .email ≤ maxEmailAttempts ∧
          attemptsOf s pk .push ≤ maxPushAttempts) := by
  have hboth : HoldInv s ∧ TurnInv s := by
    refine h.preserves (fun u => HoldInv u ∧ TurnInv u) ?_ ⟨holdInv_empty, turnInv_empty⟩
    rintro u a v ⟨hhold, hinv⟩ hok hstep
    exact ⟨hhold.step hstep, hinv.step hhold hok hstep⟩
  refine ⟨hboth.2.discipline, fun hrun pk => ?_⟩
  have hall : HoldInv s ∧ TurnInv s ∧ LogCounted s := by
    refine hrun.preserves (fun u => HoldInv u ∧ TurnInv u ∧ LogCounted u) ?_
      ⟨holdInv_empty, turnInv_empty, fun _ _ hrow => by cases hrow⟩
    rintro u a v ⟨hhold, hinv, hlog⟩ ⟨hturn, hstop⟩ hstep
    exact ⟨hhold.step hstep, hinv.step hhold hturn hstep, hlog.step hinv hhold hstop hstep⟩
  exact ⟨attempts_within hall.2.1 hall.2.2 pk .email (by decide),
    attempts_within hall.2.1 hall.2.2 pk .push (by decide)⟩

/-- A mail that fails and is sent on the retry, by another worker. -/
def retriedMail : List (SendAction Bool) :=
  [.queue 8 none "report.receipt:report:1".toList "report.receipt".toList .email,
    .claim true 50, .take true [], .mail true (some "timeout".toList), .save true,
    .tick (backoff 1), .claim false 50, .take false [], .mail false none, .save false]

theorem deliveries_attempted_in_turn_retried : ∃ s : DeliverySystem Bool,
    Reaches (DeliverySystem.step samplePush) (fun s a => outOfTurn s a = false)
      DeliverySystem.empty s ∧
    s.attempted.length = 2 ∧ RetryDiscipline s ∧ attemptsOf s 1 .email ≤ maxEmailAttempts := by
  obtain ⟨s, hreach, htwo⟩ := exists_of_run
    (guarded (DeliverySystem.step samplePush)
      fun s a => outOfTurn s a = false ∧ abandonsAttempt s a = false)
    (DeliverySystem.empty : DeliverySystem Bool) (fun s => s.attempted.length = 2) retriedMail
    (by decide +kernel)
  have hrun := hreach.of_guarded
  have hturn : Reaches (DeliverySystem.step samplePush) (fun s a => outOfTurn s a = false)
      DeliverySystem.empty s := hrun.weaken fun _ _ hok => hok.1
  have hkept := deliveries_attempted_in_turn hturn
  exact ⟨s, hturn, htwo, hkept.1, (hkept.2 hrun 1).1⟩

/-- A push that two workers claim before its last attempt: both of them make one. -/
def contestedPush : List (SendAction Bool) :=
  [.registerDevice 8 "phone".toList "a".toList,
    .queue 8 none "report.receipt:report:1".toList "report.receipt".toList .push] ++
  (List.range' 1 (maxPushAttempts - 1)).flatMap (fun k =>
    [.claim true 50, .take true [1], .push true (some (.other "quota".toList)), .save true,
      .tick (backoff k)]) ++
  [.claim true 50, .claim false 50,
    .take true [1], .push true (some (.other "quota".toList)), .save true,
    .take false [1], .push false (some (.other "quota".toList)), .save false]

/-- **A second worker attempts the row at once**, though it has no further attempt left. -/
theorem contested_push_attempted_again : ∃ s : DeliverySystem Bool,
    Reaches (DeliverySystem.step samplePush) Always DeliverySystem.empty s ∧
      (s.attempted.any fun t => attemptedEarly t && attemptedLate t) = true ∧
      (s.rows.get? 1).any (fun row => maxPushAttempts < row.attempts) = true ∧
      maxPushAttempts < attemptsOf s 1 .push :=
  exists_of_run (DeliverySystem.step samplePush) DeliverySystem.empty
    (fun s => (s.attempted.any fun t => attemptedEarly t && attemptedLate t) = true ∧
      (s.rows.get? 1).any (fun row => maxPushAttempts < row.attempts) = true ∧
      maxPushAttempts < attemptsOf s 1 .push) contestedPush (by decide +kernel)

end LamTo.Analysis
