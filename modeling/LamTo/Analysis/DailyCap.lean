import LamTo.Analysis.RetryDiscipline
import LamTo.Analysis.SingleSend
import Mathlib.Data.Int.ConditionallyCompleteOrder

/-!
# The daily cap on publication pushes

Before the first send of a publication push the deliveries of the recipient are counted that were
sent today without an error. `FirstPushes` watches a run and keeps, for every such delivery, the
time the provider took the first message of it. A delivery that was taken and is neither counted
nor in work makes the count too low, and there are three ways to that: an attempt that reached a
device is saved with a transient error, it is not saved at all, or another one begins before it is
saved. In runs without these the cap holds for every recipient and day, midnight included.

SOURCE: src/lamto/notifications/services.py:385-402, 405-487
-/

set_option autoImplicit false

namespace LamTo.Analysis

open LamTo.Library LamTo.Model

/-! ## Runs that are watched -/

/-- A push delivery of a publication. -/
def isPublicationPush (r : DeliveryRow) : Bool :=
  r.channel = .push && r.code = "ledger.publication".toList

/-- The first message of a delivery that the provider took. -/
structure FirstPush where
  pk : ℕ
  recipient : ℕ
  takenAt : ℕ
deriving DecidableEq

structure FirstPushes (W : Type) where
  system : DeliverySystem W
  firsts : List FirstPush

/-- `queue_notification` stores a code with every row. SOURCE: services.py:145-157 -/
def withCode {W : Type} : SendAction W → SendAction W
  | .queue recipient building eventKey eventCode channel =>
    .queue recipient building eventKey
      (if eventCode = [] then eventCodeFromKey eventKey else eventCode) channel
  | a => a

/-- The list after a step: a message that was taken is added, unless its delivery has one. -/
def firstsAfter {W : Type} (s t : DeliverySystem W) (firsts : List FirstPush) : List FirstPush :=
  match t.pushed with
  | [] => firsts
  | (pk, _) :: rest =>
    if rest = s.pushed ∧ pk ∉ firsts.map FirstPush.pk then
      match s.rows.get? pk with
      | some row => if isPublicationPush row then ⟨pk, row.recipient, s.now⟩ :: firsts else firsts
      | none => firsts
    else firsts

namespace FirstPushes

variable {W : Type} [DecidableEq W]

def empty : FirstPushes W := ⟨.empty, []⟩

def step (P : PushConfig) (s : FirstPushes W) (a : SendAction W) : Option (FirstPushes W) :=
  (s.system.step P (withCode a)).map fun t => ⟨t, firstsAfter s.system t s.firsts⟩

/-- The deliveries of a recipient with their first message on a day. -/
def onDay (P : PushConfig) (s : FirstPushes W) (recipient : ℕ) (day : ℤ) : ℕ :=
  s.firsts.countP fun x => x.recipient = recipient && P.localDate x.takenAt = day

end FirstPushes

section Conditions

variable {W : Type}

/-- An attempt begins while another one on a publication of the recipient is not saved. -/
def overlaps (s : DeliverySystem W) : SendAction W → Bool
  | .take w _ =>
    match (s.worker w).claimed with
    | [] => false
    | (pk, _) :: _ => (s.rows.get? pk).any fun row => isPublicationPush row &&
        (s.rows.select fun r => isPublicationPush r && r.recipient = row.recipient).any fun r =>
          (s.holder r.1).isSome
  | _ => false

/-- An attempt that reached a device is saved with a transient error. -/
def savesPartly (s : DeliverySystem W) : SendAction W → Bool
  | .save w =>
    match (s.worker w).job with
    | .pushing _ row _ _ sent _ transient =>
      isPublicationPush row && sent ≠ [] && transient.isSome
    | _ => false
  | _ => false

/-- An attempt that reached a device is not saved. -/
def losesPush (s : DeliverySystem W) : SendAction W → Bool
  | .stop w =>
    match (s.worker w).job with
    | .pushing _ row _ _ sent _ _ => isPublicationPush row && sent ≠ []
    | _ => false
  | _ => false

def missesCount (s : DeliverySystem W) (a : SendAction W) : Bool :=
  overlaps s a || savesPartly s a || losesPush s a

end Conditions

variable {W : Type} [DecidableEq W] {P : PushConfig} {s s' : DeliverySystem W} {a : SendAction W}

/-! ## Rows -/

theorem mailFailed_eq (failedAt now : ℕ) (error : Text) (r : DeliveryRow) :
    ∃ status nextRetryAt lastError, r.mailFailed failedAt now error =
      { r with status, nextRetryAt, lastError, attempts := r.attempts + 1, updatedAt := now } := by
  unfold DeliveryRow.mailFailed
  split
  · exact ⟨_, _, _, rfl⟩
  · exact ⟨_, _, _, rfl⟩

theorem pushed_eq (startedAt now : ℕ) (sent : List ℕ) (transient : Option Text)
    (r : DeliveryRow) : ∃ status nextRetryAt lastError, r.pushed startedAt now sent transient =
      { r with status, nextRetryAt, lastError, attempts := r.attempts + 1,
               pushSentDeviceIds := sent, updatedAt := now } := by
  unfold DeliveryRow.pushed
  cases transient with
  | none =>
    dsimp only
    split
    · exact ⟨_, _, _, rfl⟩
    · exact ⟨_, _, _, rfl⟩
  | some error =>
    dsimp only
    split
    · exact ⟨_, _, _, rfl⟩
    · exact ⟨_, _, _, rfl⟩

/-- An attempt that reached a device and met no transient error is counted. -/
theorem pushed_counted (startedAt now : ℕ) (sent : List ℕ) (r : DeliveryRow) (hsent : sent ≠ []) :
    (r.pushed startedAt now sent none).status = .sent ∧
      (r.pushed startedAt now sent none).lastError = [] ∧
      (r.pushed startedAt now sent none).updatedAt = now := by
  unfold DeliveryRow.pushed
  dsimp only
  rw [if_pos hsent]
  exact ⟨rfl, rfl, rfl⟩

/-- What a write leaves of a row, and when it is made. -/
structure Rewritten (now : ℕ) (row row' : DeliveryRow) : Prop where
  recipient : row'.recipient = row.recipient
  publication : isPublicationPush row' = isPublicationPush row
  eventKey : row'.eventKey = row.eventKey
  eventCode : row'.eventCode = row.eventCode
  updatedAt : row'.updatedAt = row.updatedAt ∨ row'.updatedAt = now

omit [DecidableEq W] in
theorem RowChange.rewritten (pk : ℕ) (row row' : DeliveryRow) (h : RowChange s pk row a row') :
    Rewritten s.now row row' := by
  cases h with
  | saved w job f hbusy hsaves =>
    cases hsaves with
    | sent => exact ⟨rfl, rfl, rfl, rfl, .inr rfl⟩
    | failed endedAt error =>
      obtain ⟨status, retry, last, heq⟩ := mailFailed_eq endedAt s.now error row
      dsimp only
      rw [heq]
      exact ⟨rfl, rfl, rfl, rfl, .inr rfl⟩
    | pushed startedAt sent terminal transient =>
      obtain ⟨status, retry, last, heq⟩ := pushed_eq startedAt s.now sent transient row
      dsimp only
      rw [heq]
      exact ⟨rfl, rfl, rfl, rfl, .inr rfl⟩
  | shown => exact ⟨rfl, rfl, rfl, rfl, .inr rfl⟩
  | suppressed => exact ⟨rfl, rfl, rfl, rfl, .inr rfl⟩
  | _ => exact ⟨rfl, rfl, rfl, rfl, .inl rfl⟩

/-- A new row is the one that was queued. -/
theorem new_row (hinv : HoldInv s) (h : DeliverySystem.step P s a = some s') (pk : ℕ)
    (row : DeliveryRow) (hrow : s'.rows.get? pk = some row) :
    (∃ old, s.rows.get? pk = some old ∧ RowChange s pk old a row) ∨
      ∃ recipient building eventKey eventCode channel,
        a = .queue recipient building eventKey eventCode channel ∧
          row = s.queued recipient building eventKey eventCode channel := by
  rcases (rows_stepped hinv h).found pk row hrow with hold | ⟨rfl, _⟩
  · exact .inl hold
  · -- only a row that is queued takes the next key
    have hnone : s'.rows.next = s.rows.next → False := fun hnext => by
      rw [← hnext, Table.get?_next] at hrow
      cases hrow
    right
    cases send_effect h with
    | queued recipient building eventKey eventCode channel =>
      cases (Table.get?_insert_self s.rows _).symm.trans hrow
      exact ⟨recipient, building, eventKey, eventCode, channel, rfl, rfl⟩
    | stopped w =>
      refine (hnone ?_).elim
      unfold DeliverySystem.stop
      split
      · rfl
      · rfl
    | _ => exact (hnone rfl).elim

/-! ## What an attempt begins with -/

/-- **A push begins below the cap.** -/
theorem below_cap_of_began (w : W) (order : List ℕ) (pk : ℕ) (row : DeliveryRow) (startedAt : ℕ)
    (devices sent terminal : List ℕ) (transient : Option Text)
    (h : DeliverySystem.step P s (.take w order) = some s')
    (hjob : (s'.worker w).job = .pushing pk row startedAt devices sent terminal transient) :
    (∃ old rest, (s.worker w).claimed = (pk, old) :: rest) ∧ s.rows.get? pk = some row ∧
      startedAt = s.now ∧ dailyPushCapReached P s.rows s.now row = false := by
  have hidle : ∀ (t : DeliverySystem W) (rest : List (ℕ × DeliveryRow)),
      some (t.setWorker w ⟨rest, .idle⟩) = some s' → False := fun t rest ht => by
    cases ht
    rw [setWorker_self] at hjob
    cases hjob
  rw [DeliverySystem.step, DeliverySystem.take] at h
  split at h
  · next key old rest hnext =>
    split at h
    · exact (hidle _ _ h).elim
    · next r hrow =>
      split at h
      · cases h
      · split at h
        · exact (hidle _ _ h).elim
        · split at h
          · exact (hidle _ _ h).elim
          · unfold DeliverySystem.takePush at h
            dsimp only at h
            split at h
            · exact (hidle _ _ h).elim
            · split at h
              · exact (hidle _ _ h).elim
              · split at h
                · exact (hidle _ _ h).elim
                · next hcap =>
                  split at h
                  · cases h
                    rw [DeliverySystem.begin, setWorker_self] at hjob
                    cases hjob
                    exact ⟨⟨old, rest, by rw [hnext]⟩, hrow, rfl, Bool.eq_false_iff.mpr hcap⟩
                  · cases h
          · cases h
            rw [DeliverySystem.begin, setWorker_self] at hjob
            cases hjob
  · cases h

/-- The row of a job was the row of the job before, or the worker has just taken it. -/
theorem row?_stepped (h : DeliverySystem.step P s a = some s') (w : W) (pk : ℕ) (row : DeliveryRow)
    (hrow : Job.row? (s'.worker w).job = some (pk, row)) :
    Job.row? (s.worker w).job = some (pk, row) ∨ ∃ order, a = .take w order := by
  have hchange := jobs_stepped h w
  generalize (s.worker w).job = job at hchange ⊢
  generalize (s'.worker w).job = job' at hchange hrow
  cases hchange with
  | kept => exact .inl hrow
  | began order => exact .inr ⟨order, rfl⟩
  | mailed => exact .inl hrow
  | round _ _ _ _ _ _ _ _ _ hrounds =>
    cases hrounds with
    | _ => exact .inl hrow
  | reached => exact .inl hrow
  | saved => cases hrow
  | stopped => cases hrow

/-- **What a step adds to the list**: the delivery of a push that has just reached a device. -/
theorem firsts_stepped (hinv : HoldInv s) (h : DeliverySystem.step P s a = some s')
    (firsts : List FirstPush) :
    firstsAfter s s' firsts = firsts ∨ ∃ w error pk row startedAt d devices sent terminal transient,
      a = .push w error ∧
      (s.worker w).job = .pushing pk row startedAt (d :: devices) sent terminal transient ∧
      (s'.worker w).job = .pushing pk row startedAt devices (sent ++ [d]) terminal transient ∧
      isPublicationPush row = true ∧ pk ∉ firsts.map FirstPush.pk ∧
      firstsAfter s s' firsts = ⟨pk, row.recipient, s.now⟩ :: firsts := by
  have hsame : s'.pushed = s.pushed → firstsAfter s s' firsts = firsts := fun heq => by
    unfold firstsAfter
    rw [heq]
    split
    · rfl
    · next pk d rest hpushed =>
      rw [if_neg]
      rintro ⟨hrest, _⟩
      rw [hpushed] at hrest
      exact absurd (congrArg List.length hrest) (by simp)
  cases send_effect h with
  | reached w error rest d pk row startedAt devices sent terminal transient hbusy hfresh =>
    have hrow : s.rows.get? pk = some row := (hinv.held w pk row (by rw [hbusy]; rfl)).2.1
    unfold firstsAfter
    by_cases hnew : pk ∉ firsts.map FirstPush.pk
    · by_cases hpublication : isPublicationPush row = true
      · right
        refine ⟨w, error, pk, row, startedAt, d, devices, sent, terminal, transient, rfl, by rw [hbusy],
          by rw [setWorker_self], hpublication, hnew, ?_⟩
        show (if s.pushed = s.pushed ∧ _ then _ else _) = _
        rw [if_pos ⟨rfl, hnew⟩, hrow]
        exact if_pos hpublication
      · left
        show (if s.pushed = s.pushed ∧ _ then _ else _) = _
        rw [if_pos ⟨rfl, hnew⟩, hrow]
        exact if_neg hpublication
    · exact .inl (if_neg fun hboth => hnew hboth.2)
  | stopped w =>
    refine .inl (hsame ?_)
    unfold DeliverySystem.stop
    split
    · rfl
    · rfl
  | _ => exact .inl (hsame rfl)

/-! ## The invariant -/

/-- The job is a push of the delivery that reached a device. -/
def Job.tookFirst (x : FirstPush) : Job → Prop
  | .pushing pk _ _ _ sent _ _ => pk = x.pk ∧ sent ≠ []
  | _ => False

/-- The row is one `_daily_push_cap_reached` counts, saved when the message had been taken. -/
structure Counted (x : FirstPush) (row : DeliveryRow) : Prop where
  status : row.status = .sent
  lastError : row.lastError = []
  takenAt : x.takenAt ≤ row.updatedAt

/-- A delivery of the list is counted, or in work. -/
def Accounted (s : DeliverySystem W) (x : FirstPush) : Prop :=
  ∃ row, s.rows.get? x.pk = some row ∧ row.recipient = x.recipient ∧
    isPublicationPush row = true ∧
    (Counted x row ∨ ∃ w, Job.tookFirst x (s.worker w).job)

/-- The deliveries of a recipient on a day but for one. -/
def othersOn (P : PushConfig) (firsts : List FirstPush) (recipient : ℕ) (day : ℤ) (pk : ℕ) : ℕ :=
  firsts.countP fun x =>
    (decide (x.recipient = recipient) && decide (P.localDate x.takenAt = day)) && decide (x.pk ≠ pk)

/-- A row is written by now, has the code of its key, and has reached no device while it is open. -/
structure RowKept (now : ℕ) (row : DeliveryRow) : Prop where
  updatedAt : row.updatedAt ≤ now
  coded : row.eventCode = [] → eventCodeFromKey row.eventKey = []
  unsent : isPublicationPush row = true → row.final = false → row.pushSentDeviceIds = []

/-- **What keeps the cap.** -/
structure CapInv (P : PushConfig) (s : FirstPushes W) : Prop where
  hold : HoldInv s.system
  past : ∀ x ∈ s.firsts, x.takenAt ≤ s.system.now
  nodup : (s.firsts.map FirstPush.pk).Nodup
  rows : ∀ pk row, s.system.rows.get? pk = some row → RowKept s.system.now row
  accounted : ∀ x ∈ s.firsts, Accounted s.system x
  alone : ∀ w w' pk row pk' row', Job.row? (s.system.worker w).job = some (pk, row) →
    Job.row? (s.system.worker w').job = some (pk', row') → isPublicationPush row = true →
    isPublicationPush row' = true → row.recipient = row'.recipient → w = w'
  room : ∀ w pk row startedAt devices sent terminal transient,
    (s.system.worker w).job = .pushing pk row startedAt devices sent terminal transient →
    isPublicationPush row = true → startedAt ≤ s.system.now ∧
      ∀ day, P.localDate startedAt ≤ day →
        othersOn P s.firsts row.recipient day pk < P.dailyCap
  capped : ∀ recipient day, s.onDay P recipient day ≤ P.dailyCap

omit [DecidableEq W] in
theorem capInv_empty (P : PushConfig) : CapInv P (FirstPushes.empty : FirstPushes W) where
  hold := holdInv_empty
  past _ hx := by cases hx
  nodup := List.nodup_nil
  rows _ _ hrow := by cases hrow
  accounted _ hx := by cases hx
  alone _ _ _ _ _ _ hjob := by cases hjob
  room _ _ _ _ _ _ _ _ hjob := by cases hjob
  capped _ _ := Nat.zero_le _

omit [DecidableEq W] in
theorem channel_of_publication {row : DeliveryRow} (h : isPublicationPush row = true) :
    row.channel ≠ .inApp := by
  intro hinApp
  rw [isPublicationPush, hinApp] at h
  cases h

/-- The rows after a step. -/
theorem RowKept.step (hhold : HoldInv s)
    (hrows : ∀ pk row, s.rows.get? pk = some row → RowKept s.now row)
    (hcode : ∀ recipient building eventKey eventCode channel,
      a = .queue recipient building eventKey eventCode channel →
        eventCode = [] → eventCodeFromKey eventKey = [])
    (hpartly : savesPartly s a = false) (h : DeliverySystem.step P s a = some s') (pk : ℕ)
    (row : DeliveryRow) (hrow : s'.rows.get? pk = some row) : RowKept s'.now row := by
  have hnow := now_le h
  rcases new_row hhold h pk row hrow with ⟨old, hold, hchange⟩ |
    ⟨recipient, building, eventKey, eventCode, channel, ha, rfl⟩
  · have hkept := hrows pk old hold
    have hsame := hchange.rewritten
    refine ⟨?_, ?_, fun hpublication hopen => ?_⟩
    · rcases hsame.updatedAt with heq | heq
      · exact heq ▸ Nat.le_trans hkept.updatedAt hnow
      · exact heq ▸ hnow
    · rw [hsame.eventKey, hsame.eventCode]
      exact hkept.coded
    · rw [hsame.publication] at hpublication
      cases hchange with
      | kept => exact hkept.unsent hpublication hopen
      | published => cases hopen
      | shown _ _ _ hinApp => exact absurd hinApp (channel_of_publication hpublication)
      | suppressed => cases hopen
      | saved w job f hbusy hsaves hunfinished =>
        cases hsaves with
        | sent => exact hkept.unsent hpublication hunfinished
        | failed endedAt error =>
          rw [mailFailed_devices]
          exact hkept.unsent hpublication hunfinished
        | pushed startedAt sent terminal transient =>
          rw [pushed_devices]
          by_contra hsent
          simp only [savesPartly, hbusy, hpublication, Bool.true_and, Bool.and_eq_false_iff,
            decide_eq_false_iff_not, not_not, hsent, false_or] at hpartly
          cases transient with
          | some error => cases hpartly
          | none =>
            rw [DeliveryRow.final, (pushed_counted startedAt s.now sent old hsent).1] at hopen
            cases hopen
  · exact ⟨hnow, hcode _ _ _ _ _ ha, fun _ _ => rfl⟩

/-- **A delivery stays counted or in work.** -/
theorem Accounted.step (hhold : HoldInv s) (hpartly : savesPartly s a = false)
    (hlost : losesPush s a = false) (x : FirstPush) (hpast : x.takenAt ≤ s.now)
    (hx : Accounted s x) (h : DeliverySystem.step P s a = some s') : Accounted s' x := by
  obtain ⟨row, hrow, hrecipient, hpublication, hcase⟩ := hx
  have hchannel := channel_of_publication hpublication
  obtain ⟨row', hrow', hchange⟩ := (rows_stepped hhold h).kept x.pk row hrow hchannel
  have hsame := hchange.rewritten
  refine ⟨row', hrow', hsame.recipient.trans hrecipient, hsame.publication.trans hpublication, ?_⟩
  rcases hcase with hcounted | ⟨w, htook⟩
  · have hfinal : row.final = true := by
      rw [DeliveryRow.final, hcounted.status]
      rfl
    rw [hchange.final_kept x.pk row row' hfinal hchannel]
    exact .inl hcounted
  · have hjobs := jobs_stepped h w
    have hheld := hhold.held w
    generalize hold : (s.worker w).job = job at hjobs htook hheld
    generalize hnew : (s'.worker w).job = job' at hjobs
    cases hjobs with
    | kept => exact .inr ⟨w, hnew ▸ htook⟩
    | began => exact htook.elim
    | mailed => exact htook.elim
    | round _ _ _ _ _ _ _ _ _ hrounds =>
      refine .inr ⟨w, ?_⟩
      rw [hnew]
      cases hrounds with
      | _ => exact htook
    | reached error d key r startedAt devices sent terminal transient hfresh =>
      refine .inr ⟨w, ?_⟩
      rw [hnew]
      exact ⟨htook.1, by simp⟩
    | saved key r _ f hsaves =>
      have hsaved := saved_row hhold w key r job f hold hsaves h
      cases hsaves with
      | sent => exact htook.elim
      | failed => exact htook.elim
      | pushed startedAt sent terminal transient =>
        obtain ⟨rfl, hsent⟩ := htook
        obtain ⟨_, hr, _⟩ := hheld _ r rfl
        cases hrow.symm.trans hr
        cases hrow'.symm.trans hsaved
        simp only [savesPartly, hold, hpublication, Bool.true_and, Bool.and_eq_false_iff,
          decide_eq_false_iff_not, not_not, hsent, false_or] at hpartly
        cases transient with
        | some error => cases hpartly
        | none =>
          obtain ⟨hstatus, hlast, hupdated⟩ := pushed_counted startedAt s.now sent row hsent
          exact .inl ⟨hstatus, hlast, Nat.le_trans hpast (Nat.le_of_eq hupdated.symm)⟩
    | stopped =>
      cases job with
      | pushing key r startedAt devices sent terminal transient =>
        obtain ⟨rfl, hsent⟩ := htook
        obtain ⟨_, hr, _⟩ := hheld _ r rfl
        cases hrow.symm.trans hr
        simp only [losesPush, hold, hpublication, Bool.true_and, decide_eq_false_iff_not,
          not_not] at hlost
        exact absurd hlost hsent
      | _ => exact htook.elim

omit [DecidableEq W] in
/-- No push of a publication begins beside another of the recipient. -/
theorem not_busy_of_take (hhold : HoldInv s) (w w' : W) (order : List ℕ) (pk pk' : ℕ)
    (row row' : DeliveryRow) (hclear : overlaps s (.take w order) = false)
    (hnext : ∃ old rest, (s.worker w).claimed = (pk, old) :: rest)
    (hrow : s.rows.get? pk = some row) (hpublication : isPublicationPush row = true)
    (hjob : Job.row? (s.worker w').job = some (pk', row'))
    (hpublication' : isPublicationPush row' = true) : row'.recipient ≠ row.recipient := by
  intro hsame
  obtain ⟨old, rest, hclaimed⟩ := hnext
  obtain ⟨hholder, hrow', _⟩ := hhold.held w' pk' row' hjob
  have hmem : (pk', row') ∈ s.rows.select fun r =>
      isPublicationPush r && decide (r.recipient = row.recipient) :=
    (Table.mem_select _ _ _ _).mpr ⟨hrow', by rw [hpublication', Bool.true_and, hsame]; simp⟩
  have hheld : (s.holder (pk', row').1).isSome = true := by rw [hholder]; rfl
  rw [overlaps, hclaimed] at hclear
  simp only [hrow, Option.any_some, hpublication, Bool.true_and] at hclear
  exact List.any_eq_false.mp hclear _ hmem hheld

omit [DecidableEq W] in
/-- A job on a publication is a push. -/
theorem pushing_of_publication (hhold : HoldInv s) (w : W) (pk : ℕ) (row : DeliveryRow)
    (hjob : Job.row? (s.worker w).job = some (pk, row)) (hpublication : isPublicationPush row = true) :
    ∃ startedAt devices sent terminal transient,
      (s.worker w).job = .pushing pk row startedAt devices sent terminal transient := by
  have hfits := hhold.fits w
  have hpush : row.channel = .push :=
    of_decide_eq_true ((Bool.and_eq_true _ _).mp hpublication).1
  cases hcase : (s.worker w).job with
  | idle =>
    rw [hcase] at hjob
    cases hjob
  | mailing key r =>
    rw [hcase] at hjob hfits
    cases hjob
    cases hpush.symm.trans hfits
  | mailed key r endedAt error =>
    rw [hcase] at hjob hfits
    cases hjob
    cases hpush.symm.trans hfits
  | pushing key r startedAt devices sent terminal transient =>
    rw [hcase] at hjob
    cases hjob
    exact ⟨startedAt, devices, sent, terminal, transient, rfl⟩

omit [DecidableEq W] in
theorem eq_take_of_withCode {a : SendAction W} {w : W} {order : List ℕ}
    (h : withCode a = .take w order) : a = .take w order := by
  cases a with
  | queue => cases h
  | _ => exact h

section Step

variable {c t : FirstPushes W} {b : SendAction W}

/-- Two pushes of publications to one recipient are one. -/
theorem alone_step (hinv : CapInv P c) (hclear : overlaps c.system b = false)
    (h : DeliverySystem.step P c.system (withCode b) = some s') (w w' : W) (pk : ℕ)
    (row : DeliveryRow) (pk' : ℕ) (row' : DeliveryRow)
    (hw : Job.row? (s'.worker w).job = some (pk, row))
    (hw' : Job.row? (s'.worker w').job = some (pk', row'))
    (hpublication : isPublicationPush row = true) (hpublication' : isPublicationPush row' = true)
    (hsame : row.recipient = row'.recipient) : w = w' := by
  have hhold' := hinv.hold.step h
  -- the row that is taken is no other worker's recipient's
  have htaken : ∀ v v' order q r q' r', withCode b = .take v order →
      Job.row? (s'.worker v).job = some (q, r) → isPublicationPush r = true →
      Job.row? (c.system.worker v').job = some (q', r') → isPublicationPush r' = true →
      r'.recipient ≠ r.recipient := by
    intro v v' order q r q' r' htake hv hr hv' hr'
    obtain ⟨startedAt, devices, sent, terminal, transient, hjob⟩ :=
      pushing_of_publication hhold' v q r hv hr
    obtain rfl := eq_take_of_withCode htake
    obtain ⟨hnext, hrow, _⟩ := below_cap_of_began v order q r startedAt devices sent terminal
      transient h hjob
    exact not_busy_of_take hinv.hold v v' order q q' r r' hclear hnext hrow hr hv' hr'
  rcases row?_stepped h w pk row hw with hold | ⟨order, htake⟩
  · rcases row?_stepped h w' pk' row' hw' with hold' | ⟨order, htake⟩
    · exact hinv.alone w w' pk row pk' row' hold hold' hpublication hpublication' hsame
    · exact absurd hsame (htaken w' w order pk' row' pk row htake hw' hpublication' hold hpublication)
  · rcases row?_stepped h w' pk' row' hw' with hold' | ⟨order', htake'⟩
    · exact absurd hsame.symm
        (htaken w w' order pk row pk' row' htake hw hpublication hold' hpublication')
    · cases htake.symm.trans htake'
      rfl

omit [DecidableEq W] in
/-- When a push begins, the deliveries of the recipient that had their first message today are all
counted. -/
theorem othersOn_lt_of_began (hinv : CapInv P c) (hdate : Monotone P.localDate) (w : W)
    (order : List ℕ) (pk : ℕ) (row : DeliveryRow)
    (hclear : overlaps c.system (.take w order) = false)
    (hnext : ∃ old rest, (c.system.worker w).claimed = (pk, old) :: rest)
    (hrow : c.system.rows.get? pk = some row) (hpublication : isPublicationPush row = true)
    (hcap : dailyPushCapReached P c.system.rows c.system.now row = false) (day : ℤ)
    (hday : P.localDate c.system.now ≤ day) :
    othersOn P c.firsts row.recipient day pk < P.dailyCap := by
  have hcode : row.code = "ledger.publication".toList :=
    of_decide_eq_true ((Bool.and_eq_true _ _).mp hpublication).2
  have hroom : (c.system.rows.select fun d => d.recipient = row.recipient && d.channel = .push &&
      d.eventCode = row.code && d.status = .sent && d.lastError = [] &&
      P.localDate d.updatedAt = P.localDate c.system.now).length < P.dailyCap := by
    unfold dailyPushCapReached at hcap
    rw [decide_eq_true hcode, Bool.true_and, decide_eq_false_iff_not, Nat.not_le] at hcap
    exact hcap
  refine Nat.lt_of_le_of_lt ?_ hroom
  unfold othersOn
  have hkeys : ∀ l : List (ℕ × DeliveryRow), l.length = (l.map Prod.fst).length := fun _ =>
    (List.length_map Prod.fst).symm
  rw [List.countP_eq_length_filter, ← List.length_map FirstPush.pk, hkeys]
  refine (List.subperm_of_subset ?_ ?_).length_le
  · exact hinv.nodup.sublist (List.filter_sublist.map FirstPush.pk)
  · intro key hkey
    obtain ⟨x, hx, rfl⟩ := List.mem_map.mp hkey
    obtain ⟨hmem, hmatch⟩ := List.mem_filter.mp hx
    simp only [Bool.and_eq_true, decide_eq_true_eq] at hmatch
    obtain ⟨⟨hrecipient, hdayx⟩, _⟩ := hmatch
    have hpast := hinv.past x hmem
    have htoday : P.localDate x.takenAt = P.localDate c.system.now :=
      le_antisymm (hdate hpast) (hdayx ▸ hday)
    obtain ⟨r, hr, hrec, hpub, hcase⟩ := hinv.accounted x hmem
    have hkept := hinv.rows x.pk r hr
    rcases hcase with hcounted | ⟨v, htook⟩
    · have hrcode : r.code = "ledger.publication".toList :=
        of_decide_eq_true ((Bool.and_eq_true _ _).mp hpub).2
      have hrpush : r.channel = .push :=
        of_decide_eq_true ((Bool.and_eq_true _ _).mp hpub).1
      have hcolumn : r.eventCode = row.code := by
        rw [hcode, ← hrcode, DeliveryRow.code]
        split
        · next hempty =>
          -- the code of the key is empty then too
          rw [hkept.coded hempty, hempty]
        · rfl
      have hupdated : P.localDate r.updatedAt = P.localDate c.system.now :=
        le_antisymm (hdate hkept.updatedAt) (htoday ▸ hdate hcounted.takenAt)
      refine List.mem_map.mpr ⟨(x.pk, r), (Table.mem_select _ _ _ _).mpr ⟨hr, ?_⟩, rfl⟩
      simp only [Bool.and_eq_true, decide_eq_true_eq]
      exact ⟨⟨⟨⟨⟨hrec.trans hrecipient, hrpush⟩, hcolumn⟩, hcounted.status⟩, hcounted.lastError⟩,
        hupdated⟩
    · -- one in work is of another recipient
      have hjob : Job.row? (c.system.worker v).job = some (x.pk, r) := by
        have hheld := hinv.hold.held v
        cases hcase : (c.system.worker v).job with
        | pushing key r' startedAt devices sent terminal transient =>
          rw [hcase] at htook hheld
          obtain ⟨rfl, _⟩ := htook
          cases hr.symm.trans (hheld _ r' rfl).2.1
          rfl
        | _ =>
          rw [hcase] at htook
          exact htook.elim
      exact absurd (hrec.trans hrecipient) (not_busy_of_take hinv.hold w v order pk x.pk row r hclear
        hnext hrow hpublication hjob hpub)

/-- The room of a push in work. -/
theorem room_step (hinv : CapInv P c) (hdate : Monotone P.localDate)
    (hclear : overlaps c.system b = false)
    (h : DeliverySystem.step P c.system (withCode b) = some s') (w : W) (pk : ℕ)
    (row : DeliveryRow) (startedAt : ℕ) (devices sent terminal : List ℕ) (transient : Option Text)
    (hjob : (s'.worker w).job = .pushing pk row startedAt devices sent terminal transient)
    (hpublication : isPublicationPush row = true) :
    startedAt ≤ s'.now ∧ ∀ day, P.localDate startedAt ≤ day →
      othersOn P (firstsAfter c.system s' c.firsts) row.recipient day pk < P.dailyCap := by
  have hnow := now_le h
  -- a delivery that is added is another's, or the one of this job
  have hadded : ∀ day, othersOn P c.firsts row.recipient day pk < P.dailyCap →
      othersOn P (firstsAfter c.system s' c.firsts) row.recipient day pk < P.dailyCap := by
    intro day hroom
    rcases firsts_stepped hinv.hold h c.firsts with heq |
      ⟨v, error, q, r, began, d, ds, sent', terminal', transient', hb, hv, hv', hr, _, heq⟩
    · rw [heq]
      exact hroom
    · rw [heq, othersOn, List.countP_cons_of_neg]
      · exact hroom
      · simp only [Bool.and_eq_true, decide_eq_true_eq, not_and, not_not]
        rintro ⟨hsame, _⟩
        obtain rfl : v = w := alone_step hinv hclear h v w q r pk row (by rw [hv']; rfl)
          (by rw [hjob]; rfl) hr hpublication hsame
        cases hv'.symm.trans hjob
        rfl
  rcases row?_stepped h w pk row (by rw [hjob]; rfl) with hold | ⟨order, htake⟩
  · obtain ⟨began, ds, sent', terminal', transient', hbefore⟩ :=
      pushing_of_publication hinv.hold w pk row hold hpublication
    obtain ⟨hbegan, hroom⟩ :=
      hinv.room w pk row began ds sent' terminal' transient' hbefore hpublication
    have hsame : startedAt = began := by
      have hchange := jobs_stepped h w
      rw [hbefore, hjob] at hchange
      generalize withCode b = action at hchange
      cases hchange with
      | round _ _ _ _ _ _ _ _ _ hrounds =>
        cases hrounds with
        | _ => rfl
      | _ => rfl
    subst hsame
    exact ⟨Nat.le_trans hbegan hnow, fun day hday => hadded day (hroom day hday)⟩
  · obtain rfl := eq_take_of_withCode htake
    obtain ⟨hnext, hrow, rfl, hcap⟩ := below_cap_of_began w order pk row startedAt devices sent
      terminal transient h hjob
    exact ⟨hnow, fun day hday => hadded day (othersOn_lt_of_began hinv hdate w order pk row hclear
      hnext hrow hpublication hcap day hday)⟩

/-- **One step keeps the cap.** -/
theorem CapInv.step (hinv : CapInv P c) (hdate : Monotone P.localDate)
    (hok : missesCount c.system b = false) (h : c.step P b = some t) : CapInv P t := by
  obtain ⟨s', hstep, rfl⟩ := Option.map_eq_some_iff.mp h
  simp only [missesCount, Bool.or_eq_false_iff] at hok
  obtain ⟨⟨hclear, hpartly⟩, hlost⟩ := hok
  have hsaves : savesPartly c.system (withCode b) = false := by
    cases b with
    | _ => exact hpartly
  have hloses : losesPush c.system (withCode b) = false := by
    cases b with
    | _ => exact hlost
  have hnow := now_le hstep
  have hhold := hinv.hold.step hstep
  have hkept : ∀ x ∈ c.firsts, Accounted s' x := fun x hx =>
    Accounted.step hinv.hold hsaves hloses x (hinv.past x hx) (hinv.accounted x hx) hstep
  have halone := alone_step hinv hclear hstep
  have hroom := room_step hinv hdate hclear hstep
  have hrows := RowKept.step hinv.hold hinv.rows (fun recipient building eventKey eventCode channel
      hb hempty => by
    cases b with
    | queue r bl key code ch =>
      cases hb
      split at hempty
      · exact hempty
      · contradiction
    | _ => cases hb) hsaves hstep
  rcases firsts_stepped hinv.hold hstep c.firsts with heq |
    ⟨w, error, pk, row, startedAt, d, devices, sent, terminal, transient, _, hjob, hjob',
      hpublication, hfresh, heq⟩
  · refine ⟨hhold, ?_, ?_, hrows, ?_, halone, hroom, ?_⟩
    · intro x hx
      exact Nat.le_trans (hinv.past x (heq ▸ hx)) hnow
    · show ((firstsAfter c.system s' c.firsts).map FirstPush.pk).Nodup
      rw [heq]
      exact hinv.nodup
    · exact fun x hx => hkept x (heq ▸ hx)
    · intro recipient day
      show (firstsAfter c.system s' c.firsts).countP _ ≤ _
      rw [heq]
      exact hinv.capped recipient day
  · obtain ⟨hbegan, hbelow⟩ :=
      hinv.room w pk row startedAt (d :: devices) sent terminal transient hjob hpublication
    refine ⟨hhold, ?_, ?_, hrows, ?_, halone, hroom, ?_⟩
    · intro x hx
      rcases List.mem_cons.mp (heq ▸ hx) with rfl | hx
      · exact hnow
      · exact Nat.le_trans (hinv.past x hx) hnow
    · show ((firstsAfter c.system s' c.firsts).map FirstPush.pk).Nodup
      rw [heq, List.map_cons, List.nodup_cons]
      exact ⟨hfresh, hinv.nodup⟩
    · intro x hx
      rcases List.mem_cons.mp (heq ▸ hx) with rfl | hx
      · obtain ⟨_, hrow, _⟩ := hhold.held w pk row (by rw [hjob']; rfl)
        exact ⟨row, hrow, rfl, hpublication, .inr ⟨w, by rw [hjob']; exact ⟨rfl, by simp⟩⟩⟩
      · exact hkept x hx
    · intro recipient day
      show (firstsAfter c.system s' c.firsts).countP _ ≤ _
      rw [heq, List.countP_cons]
      split
      · next hmatch =>
        simp only [Bool.and_eq_true, decide_eq_true_eq] at hmatch
        obtain ⟨rfl, rfl⟩ := hmatch
        -- the other deliveries of the day are all that were there
        have hothers : othersOn P c.firsts row.recipient (P.localDate c.system.now) pk =
            c.firsts.countP fun x => decide (x.recipient = row.recipient) &&
              decide (P.localDate x.takenAt = P.localDate c.system.now) := by
          refine List.countP_congr fun x hx => ?_
          have hne : x.pk ≠ pk := fun hpk => hfresh (hpk ▸ List.mem_map_of_mem hx)
          simp [hne]
        have hlt := hbelow (P.localDate c.system.now) (hdate hbegan)
        rw [hothers] at hlt
        exact hlt
      · exact hinv.capped recipient day

end Step

/-- **The daily cap**: in every run of any number of workers without an attempt that reaches a
device and is saved with a transient error or not at all, and without one that begins beside
another, at most so many deliveries of a recipient get their first message on a day. -/
theorem daily_cap_kept (P : PushConfig) (hdate : Monotone P.localDate) (s : FirstPushes W)
    (h : Reaches (FirstPushes.step P) (fun s a => missesCount s.system a = false)
      FirstPushes.empty s) (recipient : ℕ) (day : ℤ) :
    s.onDay P recipient day ≤ P.dailyCap :=
  (h.preserves (CapInv P) (fun _ _ _ hinv hok hstep => hinv.step hdate hok hstep)
    (capInv_empty P)).capped recipient day

/-! ## A delivery that is not counted -/

/-- One message a day. -/
def oneADay : PushConfig where
  lower := id
  localDate _ := 0
  dailyCap := 1

def publicationPush (key : String) : SendAction Unit :=
  .queue 8 none ("ledger.publication:entry:".toList ++ key.toList) "ledger.publication".toList .push

/-- Two devices; the first delivery reaches one of them, the second both. -/
def partlyReached (second : Option PushError) : List (SendAction Unit) :=
  [.registerDevice 8 "phone".toList "a".toList, .registerDevice 8 "tablet".toList "b".toList,
    publicationPush "1", publicationPush "2", .claim () 50, .take () [1, 2], .push () none,
    .push () second, .save (), .take () [1, 2], .push () none, .push () none, .save ()]

/-- Two deliveries get their first message on one day. -/
theorem daily_cap_passed : ∃ s : FirstPushes Unit,
    Reaches (FirstPushes.step oneADay) Always FirstPushes.empty s ∧
      s.firsts = [⟨2, 8, 0⟩, ⟨1, 8, 0⟩] ∧ ¬ s.onDay oneADay 8 0 ≤ oneADay.dailyCap := by
  obtain ⟨s, hreach, hfirsts⟩ := exists_of_run (FirstPushes.step oneADay) FirstPushes.empty
    (fun s => s.firsts = [⟨2, 8, 0⟩, ⟨1, 8, 0⟩])
    (partlyReached (some (.other "quota".toList))) (by decide +kernel)
  refine ⟨s, hreach, hfirsts, ?_⟩
  rw [FirstPushes.onDay, hfirsts]
  decide

/-- Without the error the second delivery is held back. -/
theorem daily_cap_kept_whole : ∃ s : FirstPushes Unit,
    Reaches (FirstPushes.step oneADay) (fun s a => missesCount s.system a = false)
      FirstPushes.empty s ∧
      s.firsts = [⟨1, 8, 0⟩] ∧ s.onDay oneADay 8 0 ≤ oneADay.dailyCap := by
  obtain ⟨s, hreach, hfirsts⟩ := exists_of_run
    (guarded (FirstPushes.step oneADay) fun s a => missesCount s.system a = false)
    FirstPushes.empty (fun s => s.firsts = [⟨1, 8, 0⟩])
    ((partlyReached none).take 10) (by decide +kernel)
  have hrun := hreach.of_guarded
  exact ⟨s, hrun, hfirsts, daily_cap_kept oneADay (fun _ _ _ => le_rfl) s hrun 8 0⟩

end LamTo.Analysis
