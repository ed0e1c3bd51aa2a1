import LamTo.Analysis.DeliverySteps

/-!
# At most one send for each target

What was sent is remembered in two ways: an email row is `SENT`, and a push row lists the devices
that have it. Both are saved at the end of an attempt, and until then the worker that made it knows
and holds the row. A target that accepted a delivery is therefore always accounted for, in the row
or in the job of the one worker that holds it, and no send goes to a target that is.

The accounts break only when a worker stops between an acceptance and the save of its attempt;
`losesAcceptance` is that stop.

SOURCE: src/lamto/notifications/services.py:226-297, 405-487
-/

set_option autoImplicit false

namespace LamTo.Analysis

open LamTo.Library LamTo.Model

variable {W : Type} [DecidableEq W] {P : PushConfig} {s s' : DeliverySystem W} {a : SendAction W}

/-- The job is a mail of the row that was accepted and is to be saved. -/
def Job.mailAccepted (pk : ℕ) : Job → Bool
  | .mailed key _ _ error => key = pk && error = none
  | _ => false

/-- The job is a push of the row that the device has. -/
def Job.reached (pk d : ℕ) : Job → Bool
  | .pushing key _ _ _ sent _ _ => key = pk && d ∈ sent
  | _ => false

/-- The job has an acceptance that is not saved. -/
def Job.unsaved : Job → Bool
  | .mailed _ _ _ error => error = none
  | .pushing _ row _ _ sent _ _ => sent ≠ row.pushSentDeviceIds
  | _ => false

/-- The worker stops after an acceptance and before the save. -/
def losesAcceptance (s : DeliverySystem W) : SendAction W → Bool
  | .stop w => Job.unsaved (s.worker w).job
  | _ => false

/-- **What was accepted is accounted for**, once. -/
structure AcceptInv (s : DeliverySystem W) : Prop where
  mailed_nodup : s.mailed.Nodup
  mailed : ∀ pk ∈ s.mailed, ∃ row, s.rows.get? pk = some row ∧ row.channel = .email ∧
    (row.status = .sent ∨ ∃ w, Job.mailAccepted pk (s.worker w).job = true)
  pushed_nodup : s.pushed.Nodup
  pushed : ∀ pk d, (pk, d) ∈ s.pushed → ∃ row, s.rows.get? pk = some row ∧ row.channel = .push ∧
    (d ∈ row.pushSentDeviceIds ∨ ∃ w, Job.reached pk d (s.worker w).job = true)

omit [DecidableEq W] in
/-- No write changes the channel of a row. -/
theorem RowChange.channel_eq (pk : ℕ) (row row' : DeliveryRow) (h : RowChange s pk row a row') :
    row'.channel = row.channel := by
  cases h with
  | saved w job f hbusy hsaves =>
    cases hsaves with
    | sent => rfl
    | failed => exact mailFailed_channel _ _ _ _
    | pushed => exact pushed_channel _ _ _ _ _
  | _ => rfl

omit [DecidableEq W] in
/-- A final row of email or push is written no more. -/
theorem RowChange.final_kept (pk : ℕ) (row row' : DeliveryRow) (h : RowChange s pk row a row')
    (hfinal : row.final = true) (hchannel : row.channel ≠ .inApp) : row' = row := by
  cases h with
  | kept => rfl
  | published hinApp => exact absurd hinApp hchannel
  | shown _ _ hopen =>
    rw [hopen] at hfinal
    cases hfinal
  | suppressed _ _ _ hopen =>
    rw [hopen] at hfinal
    cases hfinal
  | saved _ _ _ _ _ hopen =>
    rw [hopen] at hfinal
    cases hfinal

omit [DecidableEq W] in
/-- A sent row stays sent. -/
theorem RowChange.sent_kept (pk : ℕ) (row row' : DeliveryRow) (h : RowChange s pk row a row')
    (hsent : row.status = .sent) (hchannel : row.channel ≠ .inApp) : row'.status = .sent := by
  have hfinal : row.final = true := by
    rw [DeliveryRow.final, hsent]
    rfl
  rw [h.final_kept pk row row' hfinal hchannel, hsent]

omit [DecidableEq W] in
/-- A device that has a push stays in the list of the row. -/
theorem RowChange.devices_kept (hinv : HoldInv s) (pk : ℕ) (row row' : DeliveryRow)
    (h : RowChange s pk row a row') : row.pushSentDeviceIds ⊆ row'.pushSentDeviceIds := by
  cases h with
  | saved w job f hbusy hsaves =>
    have hfits := hinv.fits w
    cases hsaves with
    | sent => exact List.Subset.refl _
    | failed =>
      rw [mailFailed_devices]
      exact List.Subset.refl _
    | pushed =>
      rw [hbusy] at hfits
      rw [pushed_devices]
      exact hfits.2.2
  | _ => exact List.Subset.refl _

/-! ## Jobs -/

/-- The row a save writes. -/
theorem saved_row (hinv : HoldInv s) (w : W) (pk : ℕ) (row : DeliveryRow) (job : Job)
    (f : DeliveryRow → DeliveryRow) (hjob : (s.worker w).job = job) (hsaves : Saves s pk row job f)
    (h : DeliverySystem.step P s (.save w) = some s') : s'.rows.get? pk = some (f row) := by
  obtain ⟨_, hrow, _⟩ := hinv.held w pk row (by rw [hjob, hsaves.row?_eq])
  cases send_effect h with
  | saved _ rest key row' job' g devices hbusy hsaves' =>
    rw [hbusy] at hjob
    subst hjob
    show (s.rows.update key g).get? pk = _
    cases hsaves with
    | sent =>
      cases hsaves' with
      | sent =>
        rw [Table.get?_update_self, hrow]
        rfl
    | failed =>
      cases hsaves' with
      | failed =>
        rw [Table.get?_update_self, hrow]
        rfl
    | pushed =>
      cases hsaves' with
      | pushed =>
        rw [Table.get?_update_self, hrow]
        rfl
  | around _ _ _ houtside => cases houtside

/-- **An accepted mail is saved**: its job stays, or the row is sent. -/
theorem mailAccepted_kept (hinv : HoldInv s) (h : DeliverySystem.step P s a = some s')
    (hok : losesAcceptance s a = false) (pk : ℕ) (w : W)
    (hjob : Job.mailAccepted pk (s.worker w).job = true) :
    Job.mailAccepted pk (s'.worker w).job = true ∨
      ∃ row, s'.rows.get? pk = some row ∧ row.status = .sent := by
  have hchange := jobs_stepped h w
  generalize hold : (s.worker w).job = job at hchange hjob
  generalize hnew : (s'.worker w).job = job' at hchange
  cases hchange with
  | kept => exact .inl hjob
  | began => cases hjob
  | mailed => cases hjob
  | round _ _ _ _ _ _ _ _ _ hrounds =>
    cases hrounds with
    | _ => cases hjob
  | reached => cases hjob
  | saved key row _ f hsaves =>
    have hrow := saved_row hinv w key row job f hold hsaves h
    cases hsaves with
    | sent =>
      obtain ⟨hkey, _⟩ := (Bool.and_eq_true _ _).mp hjob
      obtain rfl := of_decide_eq_true hkey
      exact .inr ⟨_, hrow, rfl⟩
    | failed => simp [Job.mailAccepted] at hjob
    | pushed => cases hjob
  | stopped =>
    rw [losesAcceptance, hold] at hok
    cases job with
    | mailed key row endedAt error =>
      obtain ⟨_, haccepted⟩ := (Bool.and_eq_true _ _).mp hjob
      rw [Job.unsaved, haccepted] at hok
      cases hok
    | _ => cases hjob

/-- **A device that was reached is saved**: its job stays, or the row lists it. -/
theorem reached_kept (hinv : HoldInv s) (h : DeliverySystem.step P s a = some s')
    (hok : losesAcceptance s a = false) (pk d : ℕ) (w : W)
    (hjob : Job.reached pk d (s.worker w).job = true) :
    Job.reached pk d (s'.worker w).job = true ∨
      ∃ row, s'.rows.get? pk = some row ∧ d ∈ row.pushSentDeviceIds := by
  have hchange := jobs_stepped h w
  have hheld := hinv.held w
  have hrows := rows_stepped hinv h
  generalize hold : (s.worker w).job = job at hchange hjob hheld
  generalize hnew : (s'.worker w).job = job' at hchange
  cases hchange with
  | kept => exact .inl hjob
  | began => cases hjob
  | mailed => cases hjob
  | round _ _ _ _ _ _ _ _ _ hrounds =>
    cases hrounds with
    | _ => exact .inl hjob
  | reached error d' key row startedAt devices sent terminal transient =>
    obtain ⟨hkey, hmem⟩ := (Bool.and_eq_true _ _).mp hjob
    refine .inl ((Bool.and_eq_true _ _).mpr ⟨hkey, decide_eq_true ?_⟩)
    exact List.mem_append_left [d'] (of_decide_eq_true hmem)
  | saved key row _ f hsaves =>
    have hrow := saved_row hinv w key row job f hold hsaves h
    cases hsaves with
    | sent => cases hjob
    | failed => cases hjob
    | pushed =>
      obtain ⟨hkey, hmem⟩ := (Bool.and_eq_true _ _).mp hjob
      obtain rfl := of_decide_eq_true hkey
      exact .inr ⟨_, hrow, by rw [pushed_devices]; exact of_decide_eq_true hmem⟩
  | stopped =>
    -- What the attempt has reached was in the row when it began.
    rw [losesAcceptance, hold] at hok
    cases job with
    | pushing key row startedAt devices sent terminal transient =>
      obtain ⟨hkey, hmem⟩ := (Bool.and_eq_true _ _).mp hjob
      obtain rfl := of_decide_eq_true hkey
      have hsame : sent = row.pushSentDeviceIds := by simpa [Job.unsaved] using hok
      obtain ⟨_, hrow, _⟩ := hheld key row rfl
      have hpush := hinv.fits w
      rw [hold] at hpush
      obtain ⟨row', hrow', hchange⟩ := hrows.kept key row hrow (by rw [hpush.1]; decide)
      have hkept := hchange.devices_kept hinv key row row'
      exact .inr ⟨row', hrow', hkept (by rw [← hsame]; exact of_decide_eq_true hmem)⟩
    | _ => cases hjob

/-! ## The invariant -/

/-- What a step adds to the accepted mails: one that is being sent. -/
theorem mailed_stepped (h : DeliverySystem.step P s a = some s') :
    s'.mailed = s.mailed ∨ ∃ w pk row, (s.worker w).job = .mailing pk row ∧
      s'.mailed = pk :: s.mailed ∧ Job.mailAccepted pk (s'.worker w).job = true := by
  cases send_effect h with
  | mailed w error rest pk row hbusy =>
    by_cases herror : error = none
    · right
      refine ⟨w, pk, row, by rw [hbusy], if_pos herror, ?_⟩
      rw [setWorker_self]
      simp [Job.mailAccepted, herror]
    · left
      exact if_neg herror
  | stopped w =>
    left
    unfold DeliverySystem.stop
    split
    · rfl
    · rfl
  | _ => exact .inl rfl

/-- What a step adds to the accepted pushes: one to a device that does not have it. -/
theorem pushed_stepped (h : DeliverySystem.step P s a = some s') :
    s'.pushed = s.pushed ∨ ∃ w pk row startedAt d devices sent terminal transient,
      (s.worker w).job = .pushing pk row startedAt (d :: devices) sent terminal transient ∧
      d ∉ sent ∧ s'.pushed = (pk, d) :: s.pushed ∧
      Job.reached pk d (s'.worker w).job = true := by
  cases send_effect h with
  | reached w error rest d pk row startedAt devices sent terminal transient hbusy hfresh =>
    right
    refine ⟨w, pk, row, startedAt, d, devices, sent, terminal, transient, by rw [hbusy], hfresh,
      rfl, ?_⟩
    rw [setWorker_self]
    simp [Job.reached]
  | stopped w =>
    left
    unfold DeliverySystem.stop
    split
    · rfl
    · rfl
  | _ => exact .inl rfl

omit [DecidableEq W] in
/-- A row that is held is held by one worker. -/
theorem HoldInv.unique (hinv : HoldInv s) (w w' : W) (pk : ℕ) (row row' : DeliveryRow)
    (h : Job.row? (s.worker w).job = some (pk, row))
    (h' : Job.row? (s.worker w').job = some (pk, row')) : w = w' := by
  have hholder := (hinv.held w pk row h).1
  rw [(hinv.held w' pk row' h').1] at hholder
  exact (Option.some.inj hholder).symm

omit [DecidableEq W] in
theorem Job.row?_of_mailAccepted (pk : ℕ) (job : Job) (h : Job.mailAccepted pk job = true) :
    ∃ row, Job.row? job = some (pk, row) := by
  cases job with
  | mailed key row endedAt error =>
    obtain ⟨hkey, _⟩ := (Bool.and_eq_true _ _).mp h
    exact ⟨row, by rw [← of_decide_eq_true hkey]; rfl⟩
  | _ => cases h

omit [DecidableEq W] in
theorem Job.row?_of_reached (pk d : ℕ) (job : Job) (h : Job.reached pk d job = true) :
    ∃ row, Job.row? job = some (pk, row) := by
  cases job with
  | pushing key row startedAt devices sent terminal transient =>
    obtain ⟨hkey, _⟩ := (Bool.and_eq_true _ _).mp h
    exact ⟨row, by rw [← of_decide_eq_true hkey]; rfl⟩
  | _ => cases h

omit [DecidableEq W] in
/-- No mail is sent that was accepted. -/
theorem AcceptInv.fresh_mail (hinv : AcceptInv s) (hhold : HoldInv s) (w : W) (pk : ℕ)
    (row : DeliveryRow) (hjob : (s.worker w).job = .mailing pk row) : pk ∉ s.mailed := by
  intro hmem
  have hheld : Job.row? (s.worker w).job = some (pk, row) := by rw [hjob]; rfl
  obtain ⟨_, hrow, hopen⟩ := hhold.held w pk row hheld
  obtain ⟨row', hrow', _, hsent | ⟨w', haccepted⟩⟩ := hinv.mailed pk hmem
  · cases hrow.symm.trans hrow'
    rw [DeliveryRow.final, hsent] at hopen
    cases hopen
  · obtain ⟨r, hr⟩ := Job.row?_of_mailAccepted pk _ haccepted
    obtain rfl := hhold.unique w w' pk row r hheld hr
    rw [hjob] at haccepted
    cases haccepted

omit [DecidableEq W] in
/-- No push is sent to a device that has it. -/
theorem AcceptInv.fresh_push (hinv : AcceptInv s) (hhold : HoldInv s) (w : W) (pk : ℕ)
    (row : DeliveryRow) (startedAt d : ℕ) (devices sent terminal : List ℕ)
    (transient : Option Text)
    (hjob : (s.worker w).job = .pushing pk row startedAt (d :: devices) sent terminal transient)
    (hfresh : d ∉ sent) : (pk, d) ∉ s.pushed := by
  intro hmem
  have hheld : Job.row? (s.worker w).job = some (pk, row) := by rw [hjob]; rfl
  obtain ⟨_, hrow, _⟩ := hhold.held w pk row hheld
  have hfits := hhold.fits w
  rw [hjob] at hfits
  obtain ⟨row', hrow', _, hlisted | ⟨w', hreached⟩⟩ := hinv.pushed pk d hmem
  · cases hrow.symm.trans hrow'
    exact hfresh (hfits.2.2 hlisted)
  · obtain ⟨r, hr⟩ := Job.row?_of_reached pk d _ hreached
    obtain rfl := hhold.unique w w' pk row r hheld hr
    rw [hjob] at hreached
    exact hfresh (of_decide_eq_true ((Bool.and_eq_true _ _).mp hreached).2)

theorem AcceptInv.step (hinv : AcceptInv s) (hhold : HoldInv s)
    (hok : losesAcceptance s a = false) (h : DeliverySystem.step P s a = some s') :
    AcceptInv s' := by
  have hrows := rows_stepped hhold h
  have hmailed : ∀ pk ∈ s.mailed, ∃ row, s'.rows.get? pk = some row ∧ row.channel = .email ∧
      (row.status = .sent ∨ ∃ w, Job.mailAccepted pk (s'.worker w).job = true) := by
    intro pk hmem
    obtain ⟨row, hrow, hchannel, haccount⟩ := hinv.mailed pk hmem
    have hinApp : row.channel ≠ .inApp := by rw [hchannel]; decide
    obtain ⟨row', hrow', hchange⟩ := hrows.kept pk row hrow hinApp
    refine ⟨row', hrow', hchange.channel_eq.trans hchannel, ?_⟩
    rcases haccount with hsent | ⟨w, hjob⟩
    · exact .inl (hchange.sent_kept pk row row' hsent hinApp)
    · rcases mailAccepted_kept hhold h hok pk w hjob with hstays | ⟨saved, hsaved, hsent⟩
      · exact .inr ⟨w, hstays⟩
      · cases hrow'.symm.trans hsaved
        exact .inl hsent
  have hpushed : ∀ pk d, (pk, d) ∈ s.pushed → ∃ row, s'.rows.get? pk = some row ∧
      row.channel = .push ∧
      (d ∈ row.pushSentDeviceIds ∨ ∃ w, Job.reached pk d (s'.worker w).job = true) := by
    intro pk d hmem
    obtain ⟨row, hrow, hchannel, haccount⟩ := hinv.pushed pk d hmem
    have hinApp : row.channel ≠ .inApp := by rw [hchannel]; decide
    obtain ⟨row', hrow', hchange⟩ := hrows.kept pk row hrow hinApp
    refine ⟨row', hrow', hchange.channel_eq.trans hchannel, ?_⟩
    rcases haccount with hlisted | ⟨w, hjob⟩
    · exact .inl (hchange.devices_kept hhold pk row row' hlisted)
    · rcases reached_kept hhold h hok pk d w hjob with hstays | ⟨saved, hsaved, hlisted⟩
      · exact .inr ⟨w, hstays⟩
      · cases hrow'.symm.trans hsaved
        exact .inl hlisted
  constructor
  · rcases mailed_stepped h with hsame | ⟨w, pk, row, hjob, hnew, _⟩
    · rw [hsame]
      exact hinv.mailed_nodup
    · rw [hnew]
      exact List.nodup_cons.mpr ⟨hinv.fresh_mail hhold w pk row hjob, hinv.mailed_nodup⟩
  · intro pk hmem
    rcases mailed_stepped h with hsame | ⟨w, key, row, hjob, hnew, haccepted⟩
    · rw [hsame] at hmem
      exact hmailed pk hmem
    · rw [hnew] at hmem
      rcases List.mem_cons.mp hmem with rfl | hold
      · obtain ⟨_, hrow, _⟩ := hhold.held w pk row (by rw [hjob]; rfl)
        have hemail := hhold.fits w
        rw [hjob] at hemail
        have hchannel : row.channel = .email := hemail
        obtain ⟨row', hrow', hchange⟩ := hrows.kept pk row hrow (by rw [hchannel]; decide)
        exact ⟨row', hrow', hchange.channel_eq.trans hchannel, .inr ⟨w, haccepted⟩⟩
      · exact hmailed pk hold
  · rcases pushed_stepped h with hsame | ⟨w, pk, row, startedAt, d, devices, sent, terminal,
      transient, hjob, hfresh, hnew, _⟩
    · rw [hsame]
      exact hinv.pushed_nodup
    · rw [hnew]
      exact List.nodup_cons.mpr ⟨hinv.fresh_push hhold w pk row startedAt d devices sent terminal
        transient hjob hfresh, hinv.pushed_nodup⟩
  · intro pk d hmem
    rcases pushed_stepped h with hsame | ⟨w, key, row, startedAt, d', devices, sent, terminal,
      transient, hjob, _, hnew, hreached⟩
    · rw [hsame] at hmem
      exact hpushed pk d hmem
    · rw [hnew] at hmem
      rcases List.mem_cons.mp hmem with heq | hold
      · cases heq
        obtain ⟨_, hrow, _⟩ := hhold.held w pk row (by rw [hjob]; rfl)
        have hfits := hhold.fits w
        rw [hjob] at hfits
        obtain ⟨row', hrow', hchange⟩ := hrows.kept pk row hrow (by rw [hfits.1]; decide)
        exact ⟨row', hrow', hchange.channel_eq.trans hfits.1, .inr ⟨w, hreached⟩⟩
      · exact hpushed pk d hold

/-- A calendar of one day. -/
def samplePush : PushConfig where
  lower := id
  localDate _ := 0
  dailyCap := 10

end LamTo.Analysis
