import LamTo.Model.Deliveries

/-!
# What a step does to the deliveries

`SendEffect` lists what a step of the workers can do, each with the guards that held, and
`send_effect` says that every step is one of these. From it comes the invariant of the row locks
(`HoldInv`): the row of a job is held by the worker whose job it is, and is still as the worker
read it, since no step writes a row that another worker holds.

SOURCE: src/lamto/notifications/services.py:205-305, 405-487
-/

set_option autoImplicit false

namespace LamTo.Analysis

open LamTo.Library LamTo.Model

variable {W : Type} [DecidableEq W] {P : PushConfig} {s s' : DeliverySystem W} {a : SendAction W}

/-! ## What an attempt saves -/

section Saved

variable (failedAt startedAt now : ℕ) (error : Text) (sent : List ℕ) (transient : Option Text)
  (r : DeliveryRow)

@[simp] theorem mailFailed_channel : (r.mailFailed failedAt now error).channel = r.channel := by
  unfold DeliveryRow.mailFailed
  split
  · rfl
  · rfl

@[simp] theorem mailFailed_attempts :
    (r.mailFailed failedAt now error).attempts = r.attempts + 1 := by
  unfold DeliveryRow.mailFailed
  split
  · rfl
  · rfl

@[simp] theorem mailFailed_devices :
    (r.mailFailed failedAt now error).pushSentDeviceIds = r.pushSentDeviceIds := by
  unfold DeliveryRow.mailFailed
  split
  · rfl
  · rfl

@[simp] theorem pushed_channel : (r.pushed startedAt now sent transient).channel = r.channel := by
  unfold DeliveryRow.pushed
  cases transient with
  | none => exact apply_ite DeliveryRow.channel _ _ _ |>.trans (ite_self _)
  | some error => exact apply_ite DeliveryRow.channel _ _ _ |>.trans (ite_self _)

@[simp] theorem pushed_attempts :
    (r.pushed startedAt now sent transient).attempts = r.attempts + 1 := by
  unfold DeliveryRow.pushed
  cases transient with
  | none => exact apply_ite DeliveryRow.attempts _ _ _ |>.trans (ite_self _)
  | some error => exact apply_ite DeliveryRow.attempts _ _ _ |>.trans (ite_self _)

@[simp] theorem pushed_devices :
    (r.pushed startedAt now sent transient).pushSentDeviceIds = sent := by
  unfold DeliveryRow.pushed
  cases transient with
  | none => exact apply_ite DeliveryRow.pushSentDeviceIds _ _ _ |>.trans (ite_self _)
  | some error => exact apply_ite DeliveryRow.pushSentDeviceIds _ _ _ |>.trans (ite_self _)

end Saved

/-! ## Steps -/

/-- How an attempt begins: a mail to be sent, or the loop over the devices. -/
inductive Begins (s : DeliverySystem W) (pk : ℕ) (row : DeliveryRow) : Job → Prop where
  | mail (email : row.channel = .email) : Begins s pk row (.mailing pk row)
  | push (push : row.channel = .push) (order : List ℕ) (nodup : order.Nodup) :
      Begins s pk row (.pushing pk row s.now order row.pushSentDeviceIds [] none)

/-- What the save of a finished job writes. -/
inductive Saves (s : DeliverySystem W) (pk : ℕ) (row : DeliveryRow) :
    Job → (DeliveryRow → DeliveryRow) → Prop where
  | sent (endedAt : ℕ) : Saves s pk row (.mailed pk row endedAt none) (·.mailSent s.now)
  | failed (endedAt : ℕ) (error : Text) :
      Saves s pk row (.mailed pk row endedAt (some error)) (·.mailFailed endedAt s.now error)
  | pushed (startedAt : ℕ) (sent terminal : List ℕ) (transient : Option Text) :
      Saves s pk row (.pushing pk row startedAt [] sent terminal transient)
        (·.pushed startedAt s.now sent transient)

/-- One round of a push that reaches no new device. -/
inductive Rounds (d : ℕ) (pk : ℕ) (row : DeliveryRow) (startedAt : ℕ) (devices sent : List ℕ) :
    Job → Job → Prop where
  | skipped (terminal : List ℕ) (transient : Option Text) :
      Rounds d pk row startedAt devices sent
        (.pushing pk row startedAt (d :: devices) sent terminal transient)
        (.pushing pk row startedAt devices sent terminal transient)
  | refused (terminal : List ℕ) (transient : Option Text) :
      Rounds d pk row startedAt devices sent
        (.pushing pk row startedAt (d :: devices) sent terminal transient)
        (.pushing pk row startedAt devices sent (d :: terminal) transient)
  | delayed (terminal : List ℕ) (transient : Option Text) (error : Text) :
      Rounds d pk row startedAt devices sent
        (.pushing pk row startedAt (d :: devices) sent terminal transient)
        (.pushing pk row startedAt devices sent terminal (some error))

/-- The calls of other parts of the application on devices and users. -/
def outside : SendAction W → Bool
  | .registerDevice .. | .deactivateDevices .. | .setEligible .. => true
  | _ => false

/-- **What a step of the deliveries does.** -/
inductive SendEffect (s : DeliverySystem W) : SendAction W → DeliverySystem W → Prop where
  | passed (elapsed : ℕ) : SendEffect s (.tick elapsed) { s with now := s.now + elapsed }
  | around (a : SendAction W) (devices : Table Device) (eligible : ℕ → Option ℕ → Bool)
      (others : outside a = true) :
      SendEffect s a { s with devices, eligible }
  | queued (recipient : ℕ) (building : Option ℕ) (eventKey eventCode : Text) (channel : Channel) :
      SendEffect s (.queue recipient building eventKey eventCode channel)
        { s with rows := s.rows.insert (s.queued recipient building eventKey eventCode channel) }
  | published (pk : ℕ) :
      SendEffect s (.publishInApp pk) { s with rows := s.rows.update pk fun r =>
        if r.channel = .inApp then { r with status := .available } else r }
  | withdrawn (pk : ℕ) :
      SendEffect s (.withdrawInApp pk)
        { s with rows := s.rows.remove fun key r => key = pk && r.channel = .inApp }
  | claimed (w : W) (limit : ℕ) (idle : s.worker w = ⟨[], .idle⟩) :
      SendEffect s (.claim w limit) (s.setWorker w
        ⟨claimPendingDeliveries s.rows (fun pk => (s.holder pk).isSome) s.now limit, .idle⟩)
  | dropped (w : W) (order : List ℕ) (pk : ℕ) (old : DeliveryRow) (rest : List (ℕ × DeliveryRow))
      (next : s.worker w = ⟨(pk, old) :: rest, .idle⟩) :
      SendEffect s (.take w order) (s.setWorker w ⟨rest, .idle⟩)
  | shown (w : W) (order : List ℕ) (pk : ℕ) (old row : DeliveryRow) (rest : List (ℕ × DeliveryRow))
      (next : s.worker w = ⟨(pk, old) :: rest, .idle⟩) (row_get : s.rows.get? pk = some row)
      (free : s.holder pk = none) (unfinished : row.final = false) (inApp : row.channel = .inApp) :
      SendEffect s (.take w order)
        ({ s with attempted := ⟨pk, s.now, row⟩ :: s.attempted }.rewrite w rest pk
          (·.makeAvailable s.now))
  | suppressed (w : W) (order : List ℕ) (pk : ℕ) (old row : DeliveryRow)
      (rest : List (ℕ × DeliveryRow)) (reason : Text)
      (next : s.worker w = ⟨(pk, old) :: rest, .idle⟩) (row_get : s.rows.get? pk = some row)
      (free : s.holder pk = none) (unfinished : row.final = false) (push : row.channel = .push) :
      SendEffect s (.take w order) (s.rewrite w rest pk (·.suppress reason s.now))
  | began (w : W) (order : List ℕ) (pk : ℕ) (old row : DeliveryRow) (rest : List (ℕ × DeliveryRow))
      (job : Job) (next : s.worker w = ⟨(pk, old) :: rest, .idle⟩)
      (row_get : s.rows.get? pk = some row) (free : s.holder pk = none) (unfinished : row.final = false)
      (begins : Begins s pk row job) :
      SendEffect s (.take w order) (s.begin w rest pk row job)
  | mailed (w : W) (error : Option Text) (rest : List (ℕ × DeliveryRow)) (pk : ℕ)
      (row : DeliveryRow) (job : s.worker w = ⟨rest, .mailing pk row⟩) :
      SendEffect s (.mail w error)
        ({ s with mailed := if error = none then pk :: s.mailed else s.mailed }.setWorker w
          ⟨rest, .mailed pk row s.now error⟩)
  | round (w : W) (error : Option PushError) (rest : List (ℕ × DeliveryRow)) (d pk : ℕ)
      (row : DeliveryRow) (startedAt : ℕ) (devices sent : List ℕ) (job job' : Job)
      (busy : s.worker w = ⟨rest, job⟩) (rounds : Rounds d pk row startedAt devices sent job job') :
      SendEffect s (.push w error) (s.setWorker w ⟨rest, job'⟩)
  | reached (w : W) (error : Option PushError) (rest : List (ℕ × DeliveryRow)) (d pk : ℕ)
      (row : DeliveryRow) (startedAt : ℕ) (devices sent terminal : List ℕ) (transient : Option Text)
      (busy : s.worker w =
        ⟨rest, .pushing pk row startedAt (d :: devices) sent terminal transient⟩)
      (fresh : d ∉ sent) :
      SendEffect s (.push w error)
        ({ s with pushed := (pk, d) :: s.pushed }.setWorker w
          ⟨rest, .pushing pk row startedAt devices (sent ++ [d]) terminal transient⟩)
  | saved (w : W) (rest : List (ℕ × DeliveryRow)) (pk : ℕ) (row : DeliveryRow) (job : Job)
      (f : DeliveryRow → DeliveryRow) (devices : Table Device) (busy : s.worker w = ⟨rest, job⟩)
      (saves : Saves s pk row job f) :
      SendEffect s (.save w) ({ s with devices }.finish w rest pk f)
  | stopped (w : W) : SendEffect s (.stop w) (s.stop w)

theorem activeDevices_nodup (devices : Table Device) (user : ℕ) :
    (activeDevices devices user).Nodup := by
  unfold activeDevices Table.select
  exact devices.keys_nodup.sublist (List.filter_sublist.map Prod.fst)

theorem takePush_effect (w : W) (order : List ℕ) (pk : ℕ) (old row : DeliveryRow)
    (rest : List (ℕ × DeliveryRow)) (hnext : s.worker w = ⟨(pk, old) :: rest, .idle⟩)
    (hrow : s.rows.get? pk = some row) (hfree : s.holder pk = none) (hopen : row.final = false)
    (hpush : row.channel = .push) (h : s.takePush P w rest pk row order = some s') :
    SendEffect s (.take w order) s' := by
  unfold DeliverySystem.takePush at h
  dsimp only at h
  split at h
  · cases h
    exact .suppressed w order pk old row rest _ hnext hrow hfree hopen hpush
  · split at h
    · cases h
      exact .suppressed w order pk old row rest _ hnext hrow hfree hopen hpush
    · split at h
      · cases h
        exact .suppressed w order pk old row rest _ hnext hrow hfree hopen hpush
      · split at h
        · next hperm =>
          cases h
          have hnodup := hperm.nodup_iff.mpr (activeDevices_nodup s.devices row.recipient)
          exact .began w order pk old row rest _ hnext hrow hfree hopen (.push hpush order hnodup)
        · cases h

theorem take_effect (w : W) (order : List ℕ) (h : s.take P w order = some s') :
    SendEffect s (.take w order) s' := by
  unfold DeliverySystem.take at h
  split at h
  · next pk old rest hnext =>
    split at h
    · cases h
      exact .dropped w order pk old rest hnext
    · next row hrow =>
      split at h
      · cases h
      · next hheld =>
        have hfree : s.holder pk = none := not_not.mp hheld
        split at h
        · cases h
          exact .dropped w order pk old rest hnext
        · next hfinal =>
          have hopen : row.final = false := Bool.eq_false_iff.mpr hfinal
          split at h
          · next hchannel =>
            cases h
            exact .shown w order pk old row rest hnext hrow hfree hopen hchannel
          · next hchannel =>
            exact takePush_effect w order pk old row rest hnext hrow hfree hopen hchannel h
          · next hchannel =>
            cases h
            exact .began w order pk old row rest _ hnext hrow hfree hopen (.mail hchannel)
  · cases h

theorem push_effect (w : W) (error : Option PushError) (h : s.push P w error = some s') :
    SendEffect s (.push w error) s' := by
  unfold DeliverySystem.push at h
  split at h
  · next rest pk row startedAt d devices sent terminal transient hbusy =>
    split at h
    · cases h
      exact .round w error rest d pk row startedAt devices sent _ _ hbusy
        (.skipped terminal transient)
    · next hfresh =>
      split at h
      · cases h
        exact .reached w none rest d pk row startedAt devices sent terminal transient hbusy hfresh
      · next e =>
        split at h
        · cases h
          exact .round w _ rest d pk row startedAt devices sent _ _ hbusy
            (.refused terminal transient)
        · cases h
          exact .round w _ rest d pk row startedAt devices sent _ _ hbusy
            (.delayed terminal transient _)
  · cases h

theorem save_effect (w : W) (h : s.save w = some s') : SendEffect s (.save w) s' := by
  unfold DeliverySystem.save at h
  split at h
  · next rest pk row endedAt hbusy =>
    cases h
    exact .saved w rest pk row _ _ s.devices hbusy (.sent endedAt)
  · next rest pk row endedAt error hbusy =>
    cases h
    exact .saved w rest pk row _ _ s.devices hbusy (.failed endedAt error)
  · next rest pk row startedAt sent terminal transient hbusy =>
    cases h
    exact .saved w rest pk row _ _ _ hbusy (.pushed startedAt sent terminal transient)
  · cases h

/-- **Every step is one of the effects.** -/
theorem send_effect (h : DeliverySystem.step P s a = some s') : SendEffect s a s' := by
  cases a with
  | tick elapsed =>
    cases h
    exact .passed elapsed
  | queue recipient building eventKey eventCode channel =>
    rw [DeliverySystem.step] at h
    split at h
    · cases h
    · cases h
      exact .queued recipient building eventKey eventCode channel
  | publishInApp pk =>
    cases h
    exact .published pk
  | withdrawInApp pk =>
    cases h
    exact .withdrawn pk
  | registerDevice user installId token =>
    cases h
    exact .around _ _ s.eligible rfl
  | deactivateDevices pks =>
    cases h
    exact .around _ _ s.eligible rfl
  | setEligible eligible =>
    cases h
    exact .around _ s.devices eligible rfl
  | claim w limit =>
    rw [DeliverySystem.step] at h
    split at h
    · next hidle =>
      cases h
      exact .claimed w limit hidle
    · cases h
  | take w order => exact take_effect w order h
  | mail w error =>
    rw [DeliverySystem.step, DeliverySystem.mail] at h
    split at h
    · next rest pk row hjob =>
      cases h
      exact .mailed w error rest pk row hjob
    · cases h
  | push w error => exact push_effect w error h
  | save w => exact save_effect w h
  | stop w =>
    cases h
    exact .stopped w

/-! ## Row locks -/

theorem setWorker_self (s : DeliverySystem W) (w : W) (sender : Sender) :
    (s.setWorker w sender).worker w = sender := Function.update_self _ _ _

theorem setWorker_of_ne (s : DeliverySystem W) (w w' : W) (sender : Sender) (h : w' ≠ w) :
    (s.setWorker w sender).worker w' = s.worker w' := Function.update_of_ne h _ _

/-- The row of a job, as the worker read it. -/
def Job.row? : Job → Option (ℕ × DeliveryRow)
  | .idle => none
  | .mailing pk row | .mailed pk row _ _ | .pushing pk row _ _ _ _ _ => some (pk, row)

/-- A mail is of an email row; a push is of a push row, to devices of which none comes twice, and
keeps what earlier attempts have reached. -/
def Job.fits : Job → Prop
  | .idle => True
  | .mailing _ row | .mailed _ row _ _ => row.channel = .email
  | .pushing _ row _ devices sent _ _ =>
    row.channel = .push ∧ devices.Nodup ∧ row.pushSentDeviceIds ⊆ sent

/-- The row of a job is held by its worker, is as the worker read it, and is not final. -/
structure HoldInv (s : DeliverySystem W) : Prop where
  held : ∀ w pk row, Job.row? (s.worker w).job = some (pk, row) →
    s.holder pk = some w ∧ s.rows.get? pk = some row ∧ row.final = false
  holding : ∀ pk w, s.holder pk = some w → ∃ row, Job.row? (s.worker w).job = some (pk, row)
  fits : ∀ w, Job.fits (s.worker w).job

theorem Job.pk?_eq (job : Job) : job.pk? = (Job.row? job).map Prod.fst := by
  cases job with
  | _ => rfl

omit [DecidableEq W] in
theorem holdInv_empty : HoldInv (DeliverySystem.empty : DeliverySystem W) where
  held _ _ _ h := by cases h
  holding _ _ h := by cases h
  fits _ := trivial

omit [DecidableEq W] in
/-- A held row is no in-app row. -/
theorem HoldInv.channel (hinv : HoldInv s) (w : W) (pk : ℕ) (row : DeliveryRow)
    (h : Job.row? (s.worker w).job = some (pk, row)) : row.channel ≠ .inApp := by
  have hfits := hinv.fits w
  cases hjob : (s.worker w).job with
  | idle =>
    rw [hjob] at h
    cases h
  | mailing =>
    rw [hjob] at h hfits
    cases h
    rw [hfits]
    exact fun hc => by cases hc
  | mailed =>
    rw [hjob] at h hfits
    cases h
    rw [hfits]
    exact fun hc => by cases hc
  | pushing =>
    rw [hjob] at h hfits
    cases h
    rw [hfits.1]
    exact fun hc => by cases hc

omit [DecidableEq W] in
/-- Rows that nobody holds are written. -/
theorem HoldInv.with_rows (hinv : HoldInv s) (rows : Table DeliveryRow)
    (hrows : ∀ pk row, s.rows.get? pk = some row → s.holder pk ≠ none → row.channel ≠ .inApp →
      rows.get? pk = some row) : HoldInv { s with rows } where
  held w pk row h := by
    obtain ⟨hholder, hrow, hopen⟩ := hinv.held w pk row h
    refine ⟨hholder, hrows pk row hrow ?_ (hinv.channel w pk row h), hopen⟩
    rw [hholder]
    exact Option.some_ne_none w
  holding := hinv.holding
  fits := hinv.fits

/-- A worker goes on with the same row. -/
theorem HoldInv.same_row (hinv : HoldInv s) (w : W) (sender : Sender)
    (hrow : Job.row? sender.job = Job.row? (s.worker w).job) (hfits : Job.fits sender.job) :
    HoldInv (s.setWorker w sender) where
  held w' pk row h := by
    by_cases hw : w' = w
    · subst hw
      rw [setWorker_self, hrow] at h
      exact hinv.held w' pk row h
    · rw [setWorker_of_ne _ w w' _ hw] at h
      exact hinv.held w' pk row h
  holding pk w' h := by
    obtain ⟨row, hjob⟩ := hinv.holding pk w' h
    refine ⟨row, ?_⟩
    by_cases hw : w' = w
    · subst hw
      rw [setWorker_self, hrow]
      exact hjob
    · rw [setWorker_of_ne _ w w' _ hw]
      exact hjob
  fits w' := by
    by_cases hw : w' = w
    · subst hw
      rw [setWorker_self]
      exact hfits
    · rw [setWorker_of_ne _ w w' _ hw]
      exact hinv.fits w'

/-- A worker takes a row that nobody holds. -/
theorem HoldInv.begin (hinv : HoldInv s) (w : W) (rest : List (ℕ × DeliveryRow)) (pk : ℕ)
    (row : DeliveryRow) (job : Job) (hidle : (s.worker w).job = .idle)
    (hrow : s.rows.get? pk = some row) (hfree : s.holder pk = none) (hopen : row.final = false)
    (hbegins : Begins s pk row job) : HoldInv (s.begin w rest pk row job) := by
  have hjob : Job.row? job = some (pk, row) := by
    cases hbegins with
    | _ => rfl
  refine ⟨fun w' key r h => ?_, fun key w' h => ?_, fun w' => ?_⟩
  · by_cases hw : w' = w
    · subst hw
      have heq : some (pk, row) = some (key, r) := by
        rw [← hjob, ← h, DeliverySystem.begin, setWorker_self]
      cases heq
      exact ⟨Function.update_self _ _ _, hrow, hopen⟩
    · rw [DeliverySystem.begin, setWorker_of_ne _ w w' _ hw] at h
      obtain ⟨hholder, hget, hfinal⟩ := hinv.held w' key r h
      refine ⟨?_, hget, hfinal⟩
      show Function.update s.holder pk (some w) key = some w'
      rw [Function.update_of_ne, hholder]
      rintro rfl
      rw [hfree] at hholder
      cases hholder
  · by_cases hkey : key = pk
    · subst hkey
      have hw : some w = some w' := by
        rw [← h]
        exact (Function.update_self key (some w) s.holder).symm
      cases hw
      exact ⟨row, by
        rw [DeliverySystem.begin, setWorker_self]
        exact hjob⟩
    · have hold : s.holder key = some w' := by
        rw [← h]
        exact (Function.update_of_ne hkey (some w) s.holder).symm
      obtain ⟨r, hr⟩ := hinv.holding key w' hold
      have hw : w' ≠ w := by
        rintro rfl
        rw [hidle] at hr
        cases hr
      refine ⟨r, ?_⟩
      rw [DeliverySystem.begin, setWorker_of_ne _ w w' _ hw]
      exact hr
  · by_cases hw : w' = w
    · subst hw
      rw [DeliverySystem.begin, setWorker_self]
      cases hbegins with
      | mail hemail => exact hemail
      | push hpush order hnodup => exact ⟨hpush, hnodup, List.Subset.refl _⟩
    · rw [DeliverySystem.begin, setWorker_of_ne _ w w' _ hw]
      exact hinv.fits w'

/-- A worker lets its row go; what it writes to the row nobody else has read. -/
theorem HoldInv.release (hinv : HoldInv s) (w : W) (rest : List (ℕ × DeliveryRow)) (pk : ℕ)
    (row : DeliveryRow) (hjob : Job.row? (s.worker w).job = some (pk, row))
    (rows : Table DeliveryRow) (hrows : ∀ key, key ≠ pk → rows.get? key = s.rows.get? key) :
    HoldInv ({ s with holder := Function.update s.holder pk none, rows }.setWorker w
      ⟨rest, .idle⟩) := by
  refine ⟨fun w' key r h => ?_, fun key w' h => ?_, fun w' => ?_⟩
  · have hw : w' ≠ w := by
      rintro rfl
      rw [setWorker_self] at h
      cases h
    rw [setWorker_of_ne _ w w' _ hw] at h
    obtain ⟨hholder, hget, hfinal⟩ := hinv.held w' key r h
    have hkey : key ≠ pk := by
      rintro rfl
      rw [(hinv.held w key row hjob).1] at hholder
      cases hholder
      exact hw rfl
    refine ⟨?_, (hrows key hkey).trans hget, hfinal⟩
    show Function.update s.holder pk none key = some w'
    rw [Function.update_of_ne hkey, hholder]
  · have hkey : key ≠ pk := by
      rintro rfl
      have hnone : none = some w' := by
        rw [← h]
        exact (Function.update_self key none s.holder).symm
      cases hnone
    have hold : s.holder key = some w' := by
      rw [← h]
      exact (Function.update_of_ne hkey none s.holder).symm
    obtain ⟨r, hr⟩ := hinv.holding key w' hold
    have hw : w' ≠ w := by
      rintro rfl
      rw [hjob] at hr
      cases hr
      exact hkey rfl
    refine ⟨r, ?_⟩
    rw [setWorker_of_ne _ w w' _ hw]
    exact hr
  · by_cases hw : w' = w
    · subst hw
      rw [setWorker_self]
      trivial
    · rw [setWorker_of_ne _ w w' _ hw]
      exact hinv.fits w'

theorem Rounds.row?_eq (d pk : ℕ) (row : DeliveryRow) (startedAt : ℕ) (devices sent : List ℕ)
    (job job' : Job) (h : Rounds d pk row startedAt devices sent job job') :
    Job.row? job' = Job.row? job := by
  cases h with
  | _ => rfl

theorem Rounds.fits (d pk : ℕ) (row : DeliveryRow) (startedAt : ℕ) (devices sent : List ℕ)
    (job job' : Job) (h : Rounds d pk row startedAt devices sent job job') (hfits : Job.fits job) :
    Job.fits job' := by
  cases h with
  | _ => exact ⟨hfits.1, (List.nodup_cons.mp hfits.2.1).2, hfits.2.2⟩

omit [DecidableEq W] in
theorem Saves.row?_eq (pk : ℕ) (row : DeliveryRow) (job : Job) (f : DeliveryRow → DeliveryRow)
    (h : Saves s pk row job f) : Job.row? job = some (pk, row) := by
  cases h with
  | _ => rfl

/-- **No step writes a row that another worker holds.** -/
theorem HoldInv.step (hinv : HoldInv s) (h : DeliverySystem.step P s a = some s') : HoldInv s' := by
  cases send_effect h with
  | passed => exact ⟨hinv.held, hinv.holding, hinv.fits⟩
  | around => exact ⟨hinv.held, hinv.holding, hinv.fits⟩
  | queued =>
    refine hinv.with_rows _ fun pk row hrow _ _ => ?_
    exact Table.get?_insert_of_some _ _ _ _ hrow
  | published pk =>
    refine hinv.with_rows _ fun key row hrow _ hchannel => ?_
    rw [Table.get?_update]
    split
    · rw [hrow, Option.map_some, if_neg hchannel]
    · exact hrow
  | withdrawn pk =>
    refine hinv.with_rows _ fun key row hrow _ hchannel => ?_
    rw [Table.get?_remove, decide_eq_false hchannel, Bool.and_false]
    exact ⟨hrow, rfl⟩
  | claimed w limit hidle => exact hinv.same_row w _ (by rw [hidle]) trivial
  | dropped w order pk old rest hnext => exact hinv.same_row w _ (by rw [hnext]) trivial
  | shown w order pk old row rest hnext hrow hfree =>
    have hwritten := hinv.with_rows (s.rows.update pk (·.makeAvailable s.now))
      fun key r hr hheld _ => ?_
    · have hlogged : HoldInv { s with
          attempted := ⟨pk, s.now, row⟩ :: s.attempted
          rows := s.rows.update pk (·.makeAvailable s.now) } :=
        ⟨hwritten.held, hwritten.holding, hwritten.fits⟩
      exact hlogged.same_row w ⟨rest, .idle⟩ (by rw [hnext]) trivial
    · rw [Table.get?_update_ne, hr]
      rintro rfl
      exact hheld hfree
  | suppressed w order pk old row rest reason hnext hrow hfree =>
    have hwritten := hinv.with_rows (s.rows.update pk (·.suppress reason s.now))
      fun key r hr hheld _ => ?_
    · exact hwritten.same_row w ⟨rest, .idle⟩ (by rw [hnext]) trivial
    · rw [Table.get?_update_ne, hr]
      rintro rfl
      exact hheld hfree
  | began w order pk old row rest job hnext hrow hfree hopen hbegins =>
    exact hinv.begin w rest pk row job (by rw [hnext]) hrow hfree hopen hbegins
  | mailed w error rest pk row hjob =>
    have hfits := hinv.fits w
    rw [hjob] at hfits
    have hsame : HoldInv { s with mailed := if error = none then pk :: s.mailed else s.mailed } :=
      ⟨hinv.held, hinv.holding, hinv.fits⟩
    exact hsame.same_row w _ (by rw [hjob]; rfl) hfits
  | round w error rest d pk row startedAt devices sent job job' hbusy hrounds =>
    have hfits := hinv.fits w
    rw [hbusy] at hfits
    exact hinv.same_row w _ (by rw [hbusy, hrounds.row?_eq]) (hrounds.fits _ _ _ _ _ _ _ _ hfits)
  | reached w error rest d pk row startedAt devices sent terminal transient hbusy hfresh =>
    have hfits := hinv.fits w
    rw [hbusy] at hfits
    have hsame : HoldInv { s with pushed := (pk, d) :: s.pushed } :=
      ⟨hinv.held, hinv.holding, hinv.fits⟩
    refine hsame.same_row w _ (by rw [hbusy]; rfl)
      ⟨hfits.1, (List.nodup_cons.mp hfits.2.1).2, fun x hx => ?_⟩
    exact List.mem_append_left [d] (hfits.2.2 hx)
  | saved w rest pk row job f devices hbusy hsaves =>
    have hsame : HoldInv { s with devices } := ⟨hinv.held, hinv.holding, hinv.fits⟩
    refine hsame.release w rest pk row (by rw [hbusy, hsaves.row?_eq]) _ fun key hkey => ?_
    exact Table.get?_update_ne _ _ _ _ hkey
  | stopped w =>
    unfold DeliverySystem.stop
    split
    · next hnone =>
      refine hinv.same_row w _ ?_ trivial
      rw [Job.pk?_eq, Option.map_eq_none_iff] at hnone
      exact hnone.symm
    · next pk hsome =>
      rw [Job.pk?_eq] at hsome
      obtain ⟨⟨key, row⟩, hjob, rfl⟩ := Option.map_eq_some_iff.mp hsome
      exact hinv.release w [] key row hjob s.rows fun _ _ => rfl

/-! ## Rows -/

/-- The writes to a row. -/
inductive RowChange (s : DeliverySystem W) (pk : ℕ) (row : DeliveryRow) :
    SendAction W → DeliveryRow → Prop where
  | kept (a : SendAction W) : RowChange s pk row a row
  | published (inApp : row.channel = .inApp) :
      RowChange s pk row (.publishInApp pk) { row with status := .available }
  | shown (w : W) (order : List ℕ) (unfinished : row.final = false)
      (inApp : row.channel = .inApp) :
      RowChange s pk row (.take w order) (row.makeAvailable s.now)
  | suppressed (w : W) (order : List ℕ) (reason : Text) (unfinished : row.final = false)
      (push : row.channel = .push) :
      RowChange s pk row (.take w order) (row.suppress reason s.now)
  | saved (w : W) (job : Job) (f : DeliveryRow → DeliveryRow) (busy : (s.worker w).job = job)
      (saves : Saves s pk row job f) (unfinished : row.final = false) :
      RowChange s pk row (.save w) (f row)

/-- Every row is changed or, in the app, withdrawn; a new one is pending. -/
structure RowsStepped (s : DeliverySystem W) (a : SendAction W) (s' : DeliverySystem W) : Prop where
  kept : ∀ pk row, s.rows.get? pk = some row → row.channel ≠ .inApp →
    ∃ row', s'.rows.get? pk = some row' ∧ RowChange s pk row a row'
  found : ∀ pk row', s'.rows.get? pk = some row' →
    (∃ row, s.rows.get? pk = some row ∧ RowChange s pk row a row') ∨
      (pk = s.rows.next ∧ row'.status = .pending ∧ row'.attempts = 0 ∧ row'.pushSentDeviceIds = [])
  next_le : s.rows.next ≤ s'.rows.next

omit [DecidableEq W] in
/-- No row is written. -/
theorem RowsStepped.of_eq (s s' : DeliverySystem W) (a : SendAction W) (h : s'.rows = s.rows) :
    RowsStepped s a s' where
  kept pk row hrow _ := ⟨row, by rw [h, hrow], .kept a⟩
  found pk row hrow := .inl ⟨row, by rw [← h, hrow], .kept a⟩
  next_le := by rw [h]

omit [DecidableEq W] in
/-- One row is written. -/
theorem RowsStepped.of_update (s s' : DeliverySystem W) (a : SendAction W) (pk : ℕ)
    (f : DeliveryRow → DeliveryRow) (h : s'.rows = s.rows.update pk f)
    (hf : ∀ row, s.rows.get? pk = some row → RowChange s pk row a (f row)) : RowsStepped s a s' := by
  have hevolves : s.rows.Evolves s'.rows (fun key row => RowChange s key row a) fun _ => False :=
    Table.Evolves.of_update (fun _ _ => .kept a) pk f h hf
  refine ⟨fun key row hrow _ => hevolves.kept key row hrow, fun key row' hrow' => ?_, ?_⟩
  · rcases hevolves.found key row' hrow' with hold | ⟨_, hnew⟩
    · exact .inl hold
    · exact hnew.elim
  · rw [h]
    exact le_rfl

/-- **What a step does to the rows.** -/
theorem rows_stepped (hinv : HoldInv s) (h : DeliverySystem.step P s a = some s') :
    RowsStepped s a s' := by
  cases send_effect h with
  | queued recipient building eventKey eventCode channel =>
    refine ⟨fun pk row hrow _ => ?_, fun pk row' hrow' => ?_, Nat.le_succ _⟩
    · exact ⟨row, Table.get?_insert_of_some _ _ _ _ hrow, .kept _⟩
    · have hget : (s.rows.insert (s.queued recipient building eventKey eventCode channel)).get? pk =
          some row' := hrow'
      rw [Table.get?_insert] at hget
      split at hget
      · next hpk =>
        cases hget
        exact .inr ⟨hpk, rfl, rfl, rfl⟩
      · exact .inl ⟨row', hget, .kept _⟩
  | published pk =>
    refine .of_update s _ _ pk _ rfl fun row hrow => ?_
    split
    · next hchannel => exact .published hchannel
    · exact .kept _
  | withdrawn pk =>
    refine ⟨fun key row hrow hchannel => ⟨row, ?_, .kept _⟩, fun key row' hrow' => ?_, le_rfl⟩
    · rw [Table.get?_remove, decide_eq_false hchannel, Bool.and_false]
      exact ⟨hrow, rfl⟩
    · exact .inl ⟨row', ((Table.get?_remove _ _ _ _).mp hrow').1, .kept _⟩
  | shown w order pk old row rest hnext hrow hfree hopen hchannel =>
    refine .of_update s _ _ pk _ rfl fun r hr => ?_
    cases hrow.symm.trans hr
    exact .shown w order hopen hchannel
  | suppressed w order pk old row rest reason hnext hrow hfree hopen hchannel =>
    refine .of_update s _ _ pk _ rfl fun r hr => ?_
    cases hrow.symm.trans hr
    exact .suppressed w order reason hopen hchannel
  | saved w rest pk row job f devices hbusy hsaves =>
    have hjob : (s.worker w).job = job := by rw [hbusy]
    obtain ⟨_, hrow, hopen⟩ := hinv.held w pk row (by rw [hjob, hsaves.row?_eq])
    refine .of_update s _ _ pk f rfl fun r hr => ?_
    cases hrow.symm.trans hr
    exact .saved w job f hjob hsaves hopen
  | stopped w =>
    refine .of_eq s _ _ ?_
    unfold DeliverySystem.stop
    split
    · rfl
    · rfl
  | _ => exact .of_eq s _ _ rfl

/-! ## Jobs -/

/-- What a step does to the job of a worker. -/
inductive JobChange (s : DeliverySystem W) (w : W) : SendAction W → Job → Job → Prop where
  | kept (a : SendAction W) (job : Job) : JobChange s w a job job
  | began (order : List ℕ) (pk : ℕ) (row : DeliveryRow) (job : Job) (begins : Begins s pk row job) :
      JobChange s w (.take w order) .idle job
  | mailed (error : Option Text) (pk : ℕ) (row : DeliveryRow) :
      JobChange s w (.mail w error) (.mailing pk row) (.mailed pk row s.now error)
  | round (error : Option PushError) (d pk : ℕ) (row : DeliveryRow) (startedAt : ℕ)
      (devices sent : List ℕ) (job job' : Job)
      (rounds : Rounds d pk row startedAt devices sent job job') :
      JobChange s w (.push w error) job job'
  | reached (error : Option PushError) (d pk : ℕ) (row : DeliveryRow) (startedAt : ℕ)
      (devices sent terminal : List ℕ) (transient : Option Text) (fresh : d ∉ sent) :
      JobChange s w (.push w error)
        (.pushing pk row startedAt (d :: devices) sent terminal transient)
        (.pushing pk row startedAt devices (sent ++ [d]) terminal transient)
  | saved (pk : ℕ) (row : DeliveryRow) (job : Job) (f : DeliveryRow → DeliveryRow)
      (saves : Saves s pk row job f) : JobChange s w (.save w) job .idle
  | stopped (job : Job) : JobChange s w (.stop w) job .idle

/-- One worker changes its job. -/
theorem JobChange.of_setWorker (t : DeliverySystem W) (w w' : W) (sender : Sender)
    (ht : t.worker = s.worker) (h : JobChange s w a (s.worker w).job sender.job) :
    JobChange s w' a (s.worker w').job ((t.setWorker w sender).worker w').job := by
  by_cases hw : w' = w
  · subst hw
    rw [setWorker_self]
    exact h
  · rw [setWorker_of_ne _ w w' _ hw, ht]
    exact .kept a _

/-- **What a step does to the jobs.** -/
theorem jobs_stepped (h : DeliverySystem.step P s a = some s') (w : W) :
    JobChange s w a (s.worker w).job (s'.worker w).job := by
  cases send_effect h with
  | claimed w' limit hidle =>
    refine .of_setWorker s w' w _ rfl ?_
    rw [hidle]
    exact .kept _ _
  | dropped w' order pk old rest hnext =>
    refine .of_setWorker s w' w _ rfl ?_
    rw [hnext]
    exact .kept _ _
  | shown w' order pk old row rest hnext =>
    refine .of_setWorker _ w' w _ rfl ?_
    rw [hnext]
    exact .kept _ _
  | suppressed w' order pk old row rest reason hnext =>
    refine .of_setWorker _ w' w _ rfl ?_
    rw [hnext]
    exact .kept _ _
  | began w' order pk old row rest job hnext _ _ _ hbegins =>
    refine .of_setWorker _ w' w _ rfl ?_
    rw [hnext]
    exact .began order pk row job hbegins
  | mailed w' error rest pk row hbusy =>
    refine .of_setWorker _ w' w _ rfl ?_
    rw [hbusy]
    exact .mailed error pk row
  | round w' error rest d pk row startedAt devices sent job job' hbusy hrounds =>
    refine .of_setWorker _ w' w _ rfl ?_
    rw [hbusy]
    exact .round error d pk row startedAt devices sent job job' hrounds
  | reached w' error rest d pk row startedAt devices sent terminal transient hbusy hfresh =>
    refine .of_setWorker _ w' w _ rfl ?_
    rw [hbusy]
    exact .reached error d pk row startedAt devices sent terminal transient hfresh
  | saved w' rest pk row job f devices hbusy hsaves =>
    refine .of_setWorker _ w' w _ rfl ?_
    rw [hbusy]
    exact .saved pk row job f hsaves
  | stopped w' =>
    unfold DeliverySystem.stop
    split
    · exact .of_setWorker s w' w _ rfl (.stopped _)
    · exact .of_setWorker _ w' w _ rfl (.stopped _)
  | _ => exact .kept _ _

end LamTo.Analysis
