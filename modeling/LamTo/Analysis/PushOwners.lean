import LamTo.Analysis.DailyCap

/-!
# Pushes go to the recipient's own devices

A device is a row of one user and one install, and keeps both. Registering it with a token takes the
token from every other active row. So in every run, however workers, retries, registrations and
logouts interleave, a push that the provider accepted was for a device of the recipient of the
delivery, and no token is active in two rows.

Which phone a token leads to is the provider's to know: a token that is registered elsewhere after
the devices were read is still sent to once.

SOURCE: src/lamto/notifications/services.py:405-487, devices.py:12-66
-/

set_option autoImplicit false

namespace LamTo.Analysis

open LamTo.Library LamTo.Model

/-! ## Devices -/

/-- A user has one row for an install, and a token is active in one row. -/
structure DevicesInv (devices : Table Device) : Prop where
  install : ∀ p q a b, devices.get? p = some a → devices.get? q = some b → a.user = b.user →
    a.installId = b.installId → p = q
  token : ∀ p q a b, devices.get? p = some a → devices.get? q = some b → a.active = true →
    b.active = true → a.fcmToken = b.fcmToken → p = q

/-- A row keeps its user and its install. -/
def DevicesKept (devices devices' : Table Device) : Prop :=
  ∀ pk d, devices.get? pk = some d →
    ∃ d', devices'.get? pk = some d' ∧ d'.user = d.user ∧ d'.installId = d.installId

theorem DevicesKept.refl (devices : Table Device) : DevicesKept devices devices :=
  fun _ d hd => ⟨d, hd, rfl, rfl⟩

theorem DevicesKept.trans {a b c : Table Device} (h : DevicesKept a b) (h' : DevicesKept b c) :
    DevicesKept a c := by
  intro pk d hd
  obtain ⟨d', hd', huser, hinstall⟩ := h pk d hd
  obtain ⟨d'', hd'', huser', hinstall'⟩ := h' pk d' hd'
  exact ⟨d'', hd'', huser'.trans huser, hinstall'.trans hinstall⟩

/-- Some rows are deactivated. -/
theorem get?_deactivated (devices : Table Device) (off : ℕ → Device → Bool) (pk : ℕ) (d : Device)
    (h : (devices.mapRows fun pk d => if off pk d then { d with active := false } else d).get? pk =
      some d) : ∃ old, devices.get? pk = some old ∧ d.user = old.user ∧
        d.installId = old.installId ∧ (d.active = true → d = old ∧ off pk old = false) := by
  rw [Table.get?_mapRows] at h
  obtain ⟨old, hold, heq⟩ := Option.map_eq_some_iff.mp h
  split at heq
  · subst heq
    exact ⟨old, hold, rfl, rfl, fun hactive => by cases hactive⟩
  · next hoff =>
    subst heq
    exact ⟨old, hold, rfl, rfl, fun _ => ⟨rfl, Bool.eq_false_iff.mpr hoff⟩⟩

theorem devicesKept_deactivated (devices : Table Device) (off : ℕ → Device → Bool) :
    DevicesKept devices
      (devices.mapRows fun pk d => if off pk d then { d with active := false } else d) := by
  intro pk d hd
  refine ⟨if off pk d then { d with active := false } else d, ?_, ?_, ?_⟩
  · rw [Table.get?_mapRows, hd, Option.map_some]
  · split
    · rfl
    · rfl
  · split
    · rfl
    · rfl

theorem DevicesInv.deactivated {devices : Table Device} (h : DevicesInv devices)
    (off : ℕ → Device → Bool) : DevicesInv
      (devices.mapRows fun pk d => if off pk d then { d with active := false } else d) := by
  constructor
  · intro p q a b ha hb huser hinstall
    obtain ⟨a', ha', huser', hinstall', -⟩ := get?_deactivated devices off p a ha
    obtain ⟨b', hb', huser'', hinstall'', -⟩ := get?_deactivated devices off q b hb
    exact h.install p q a' b' ha' hb' (huser'.symm.trans (huser.trans huser''))
      (hinstall'.symm.trans (hinstall.trans hinstall''))
  · intro p q a b ha hb hactive hactive' htoken
    obtain ⟨a', ha', -, -, hsame⟩ := get?_deactivated devices off p a ha
    obtain ⟨b', hb', -, -, hsame'⟩ := get?_deactivated devices off q b hb
    obtain ⟨rfl, -⟩ := hsame hactive
    obtain ⟨rfl, -⟩ := hsame' hactive'
    exact h.token p q a b ha' hb' hactive hactive' htoken

/-- The rows whose token goes to another one. -/
def losesToken (user : ℕ) (installId token : Text) (d : Device) : Bool :=
  d.fcmToken = token && d.active && !(d.user = user && d.installId = installId)

/-- The row of the install is written; no other active row has the token. -/
theorem devicesInv_rewrite (devices : Table Device) (user : ℕ) (installId token : Text)
    (h : DevicesInv devices) (pk : ℕ) (row : Device) (hrow : devices.get? pk = some row)
    (hown : row.user = user ∧ row.installId = installId)
    (htoken : ∀ q d, devices.get? q = some d → d.active = true → d.fcmToken = token →
      d.user = user ∧ d.installId = installId) :
    DevicesInv (devices.update pk fun d => { d with fcmToken := token, active := true }) ∧
      DevicesKept devices
        (devices.update pk fun d => { d with fcmToken := token, active := true }) := by
  have hfound : ∀ q d, (devices.update pk fun d =>
        { d with fcmToken := token, active := true }).get? q = some d →
      (q = pk ∧ d.user = user ∧ d.installId = installId ∧ d.fcmToken = token) ∨
        (q ≠ pk ∧ devices.get? q = some d) := by
    intro q d hd
    rw [Table.get?_update] at hd
    split at hd
    · next hq =>
      rw [hq, hrow] at hd
      cases hd
      exact .inl ⟨hq, hown.1, hown.2, rfl⟩
    · next hq => exact .inr ⟨hq, hd⟩
  -- Another row that is active with the token is of the install, and so is this one.
  have hsame : ∀ q d, devices.get? q = some d → d.user = user → d.installId = installId → q = pk :=
    fun q d hd huser hinstall => h.install q pk d row hd hrow (huser.trans hown.1.symm)
      (hinstall.trans hown.2.symm)
  refine ⟨⟨fun p q a b ha hb huser hinstall => ?_, fun p q a b ha hb hactive hactive' heq => ?_⟩,
    fun q d hd => ?_⟩
  · rcases hfound p a ha with ⟨rfl, hu, hi, -⟩ | ⟨-, ha'⟩
    · rcases hfound q b hb with ⟨rfl, -⟩ | ⟨-, hb'⟩
      · rfl
      · exact (hsame q b hb' (huser.symm.trans hu) (hinstall.symm.trans hi)).symm
    · rcases hfound q b hb with ⟨rfl, hu, hi, -⟩ | ⟨-, hb'⟩
      · exact hsame p a ha' (huser.trans hu) (hinstall.trans hi)
      · exact h.install p q a b ha' hb' huser hinstall
  · rcases hfound p a ha with ⟨rfl, -, -, ht⟩ | ⟨hp, ha'⟩
    · rcases hfound q b hb with ⟨rfl, -⟩ | ⟨hq, hb'⟩
      · rfl
      · obtain ⟨hu, hi⟩ := htoken q b hb' hactive' (heq.symm.trans ht)
        exact absurd (hsame q b hb' hu hi) hq
    · rcases hfound q b hb with ⟨rfl, -, -, ht⟩ | ⟨-, hb'⟩
      · obtain ⟨hu, hi⟩ := htoken p a ha' hactive (heq.trans ht)
        exact absurd (hsame p a ha' hu hi) hp
      · exact h.token p q a b ha' hb' hactive hactive' heq
  · rw [Table.get?_update, hd]
    split
    · exact ⟨_, rfl, rfl, rfl⟩
    · exact ⟨d, rfl, rfl, rfl⟩

/-- A row of a new install is added; no active row has the token. -/
theorem devicesInv_insert (devices : Table Device) (user : ℕ) (installId token : Text)
    (h : DevicesInv devices)
    (hnew : ∀ q d, devices.get? q = some d → ¬ (d.user = user ∧ d.installId = installId))
    (htoken : ∀ q d, devices.get? q = some d → d.active = true → d.fcmToken = token →
      d.user = user ∧ d.installId = installId) :
    DevicesInv (devices.insert ⟨user, installId, token, true⟩) ∧
      DevicesKept devices (devices.insert ⟨user, installId, token, true⟩) := by
  have hfound : ∀ q d, (devices.insert ⟨user, installId, token, true⟩).get? q = some d →
      (q = devices.next ∧ d = ⟨user, installId, token, true⟩) ∨ devices.get? q = some d := by
    intro q d hd
    rw [Table.get?_insert] at hd
    split at hd
    · next hq =>
      cases hd
      exact .inl ⟨hq, rfl⟩
    · exact .inr hd
  refine ⟨⟨fun p q a b ha hb huser hinstall => ?_, fun p q a b ha hb hactive hactive' heq => ?_⟩,
    fun q d hd => ⟨d, Table.get?_insert_of_some _ _ _ _ hd, rfl, rfl⟩⟩
  · rcases hfound p a ha with ⟨rfl, rfl⟩ | ha'
    · rcases hfound q b hb with ⟨rfl, rfl⟩ | hb'
      · rfl
      · exact absurd ⟨huser.symm, hinstall.symm⟩ (hnew q b hb')
    · rcases hfound q b hb with ⟨rfl, rfl⟩ | hb'
      · exact absurd ⟨huser, hinstall⟩ (hnew p a ha')
      · exact h.install p q a b ha' hb' huser hinstall
  · rcases hfound p a ha with ⟨rfl, rfl⟩ | ha'
    · rcases hfound q b hb with ⟨rfl, rfl⟩ | hb'
      · rfl
      · exact absurd (htoken q b hb' hactive' heq.symm) (hnew q b hb')
    · rcases hfound q b hb with ⟨rfl, rfl⟩ | hb'
      · exact absurd (htoken p a ha' hactive heq) (hnew p a ha')
      · exact h.token p q a b ha' hb' hactive hactive' heq

/-- **A registration keeps the invariant**: the token is taken from every other active row, and the
row of the install is found again if there is one. -/
theorem devicesInv_register (devices : Table Device) (user : ℕ) (installId token : Text)
    (h : DevicesInv devices) : DevicesInv (registerDevice devices user installId token) ∧
      DevicesKept devices (registerDevice devices user installId token) := by
  have hoff := h.deactivated fun _ => losesToken user installId token
  have hkept := devicesKept_deactivated devices fun _ => losesToken user installId token
  have htoken : ∀ pk d, (devices.mapRows fun _ d => if losesToken user installId token d then
        { d with active := false } else d).get? pk = some d → d.active = true →
      d.fcmToken = token → d.user = user ∧ d.installId = installId := by
    intro pk d hd hactive htoken
    obtain ⟨old, -, -, -, hsame⟩ := get?_deactivated devices _ pk d hd
    obtain ⟨rfl, hkeeps⟩ := hsame hactive
    simpa [losesToken, hactive, htoken] using hkeeps
  unfold registerDevice
  dsimp only
  split
  · next pk row hfind =>
    obtain ⟨hrow, hown⟩ := Table.first?_eq_some _ _ pk row hfind
    obtain ⟨hinv, hrewritten⟩ := devicesInv_rewrite _ user installId token hoff pk row hrow
      (by simpa using hown) htoken
    exact ⟨hinv, hkept.trans hrewritten⟩
  · next hnone =>
    have hnew := (Table.first?_eq_none _ _).mp hnone
    obtain ⟨hinv, hinserted⟩ := devicesInv_insert _ user installId token hoff
      (fun q d hd => by simpa using hnew q d hd) htoken
    exact ⟨hinv, hkept.trans hinserted⟩

theorem devicesInv_deactivate (devices : Table Device) (pks : List ℕ) (h : DevicesInv devices) :
    DevicesInv (deactivateDevices devices pks) ∧
      DevicesKept devices (deactivateDevices devices pks) := by
  have hoff := h.deactivated fun pk _ => decide (pk ∈ pks)
  have hkept := devicesKept_deactivated devices fun pk _ => decide (pk ∈ pks)
  simp only [decide_eq_true_eq] at hoff hkept
  exact ⟨hoff, hkept⟩

/-! ## Steps -/

variable {W : Type} [DecidableEq W] {P : PushConfig} {s s' : DeliverySystem W} {a : SendAction W}

/-- **What a step does to the devices.** -/
theorem devices_stepped (h : DeliverySystem.step P s a = some s') (hinv : DevicesInv s.devices) :
    DevicesInv s'.devices ∧ DevicesKept s.devices s'.devices := by
  have hsame : s'.devices = s.devices →
      DevicesInv s'.devices ∧ DevicesKept s.devices s'.devices := by
    intro heq
    rw [heq]
    exact ⟨hinv, .refl _⟩
  cases a with
  | registerDevice user installId token =>
    cases h
    exact devicesInv_register s.devices user installId token hinv
  | deactivateDevices pks =>
    cases h
    exact devicesInv_deactivate s.devices pks hinv
  | save w =>
    simp only [DeliverySystem.step, DeliverySystem.save] at h
    split at h
    · cases h
      exact hsame rfl
    · cases h
      exact hsame rfl
    · next rest pk row startedAt sent terminal transient hjob =>
      cases h
      exact devicesInv_deactivate s.devices terminal hinv
    · cases h
  | stop w =>
    cases h
    refine hsame ?_
    unfold DeliverySystem.stop
    split
    · rfl
    · rfl
  | setEligible eligible =>
    cases h
    exact hsame rfl
  | _ =>
    cases send_effect h with
    | around _ devices eligible others => cases others
    | _ => exact hsame rfl

/-- A worker that has gone on to the next row pushes nothing. -/
theorem not_pushing_of_rewrite (w : W) (rest : List (ℕ × DeliveryRow)) (t : DeliverySystem W)
    (h : some (t.setWorker w ⟨rest, .idle⟩) = some s') (pk : ℕ) (row : DeliveryRow) (startedAt : ℕ)
    (devices sent terminal : List ℕ) (transient : Option Text) :
    (s'.worker w).job ≠ .pushing pk row startedAt devices sent terminal transient := by
  cases h
  rw [setWorker_self]
  exact fun hjob => by cases hjob

theorem devices_of_takePush (w : W) (rest : List (ℕ × DeliveryRow)) (key : ℕ) (r : DeliveryRow)
    (order : List ℕ) (pk : ℕ) (row : DeliveryRow) (startedAt : ℕ) (devices sent terminal : List ℕ)
    (transient : Option Text) (h : s.takePush P w rest key r order = some s')
    (hjob : (s'.worker w).job = .pushing pk row startedAt devices sent terminal transient) :
    devices.Perm (activeDevices s.devices row.recipient) := by
  unfold DeliverySystem.takePush at h
  dsimp only at h
  split at h
  · exact absurd hjob (not_pushing_of_rewrite w rest _ h _ _ _ _ _ _ _)
  · split at h
    · exact absurd hjob (not_pushing_of_rewrite w rest _ h _ _ _ _ _ _ _)
    · split at h
      · exact absurd hjob (not_pushing_of_rewrite w rest _ h _ _ _ _ _ _ _)
      · split at h
        · next horder =>
          cases h
          rw [DeliverySystem.begin, setWorker_self] at hjob
          cases hjob
          exact horder
        · cases h

/-- A push begins with the active devices of the recipient. -/
theorem devices_of_began (w : W) (order : List ℕ) (pk : ℕ) (row : DeliveryRow) (startedAt : ℕ)
    (devices sent terminal : List ℕ) (transient : Option Text)
    (h : DeliverySystem.step P s (.take w order) = some s')
    (hjob : (s'.worker w).job = .pushing pk row startedAt devices sent terminal transient) :
    devices.Perm (activeDevices s.devices row.recipient) := by
  simp only [DeliverySystem.step, DeliverySystem.take] at h
  split at h
  · split at h
    · exact absurd hjob (not_pushing_of_rewrite w _ _ h _ _ _ _ _ _ _)
    · split at h
      · cases h
      · split at h
        · exact absurd hjob (not_pushing_of_rewrite w _ _ h _ _ _ _ _ _ _)
        · split at h
          · exact absurd hjob (not_pushing_of_rewrite w _ _ h _ _ _ _ _ _ _)
          · exact devices_of_takePush w _ _ _ order pk row startedAt devices sent terminal
              transient h hjob
          · cases h
            rw [DeliverySystem.begin, setWorker_self] at hjob
            cases hjob
  · cases h

/-! ## The invariant -/

/-- The device is one of the user. -/
def IsOwn (devices : Table Device) (user d : ℕ) : Prop :=
  ∃ device, devices.get? d = some device ∧ device.user = user

theorem IsOwn.kept {devices devices' : Table Device} {user d : ℕ} (h : IsOwn devices user d)
    (hkept : DevicesKept devices devices') : IsOwn devices' user d := by
  obtain ⟨device, hdevice, rfl⟩ := h
  obtain ⟨device', hdevice', huser, -⟩ := hkept d device hdevice
  exact ⟨device', hdevice', huser⟩

/-- What a push is still to be sent to, and what it was accepted for, is the recipient's. -/
structure OwnInv (s : DeliverySystem W) : Prop where
  devices : DevicesInv s.devices
  jobs : ∀ w pk row startedAt devices sent terminal transient,
    (s.worker w).job = .pushing pk row startedAt devices sent terminal transient →
      ∀ d ∈ devices, IsOwn s.devices row.recipient d
  pushed : ∀ pk d, (pk, d) ∈ s.pushed → ∃ row, s.rows.get? pk = some row ∧ row.channel = .push ∧
    IsOwn s.devices row.recipient d

omit [DecidableEq W] in
theorem ownInv_empty : OwnInv (DeliverySystem.empty : DeliverySystem W) where
  devices := ⟨fun _ _ _ _ h => (by cases h), fun _ _ _ _ h => (by cases h)⟩
  jobs _ _ _ _ _ _ _ _ h := by cases h
  pushed _ _ h := by cases h

/-- The devices of a push after a step: those of the push before, or the active ones. -/
theorem OwnInv.jobs_step (hinv : OwnInv s) (h : DeliverySystem.step P s a = some s') (w : W)
    (pk : ℕ) (row : DeliveryRow) (startedAt : ℕ) (devices sent terminal : List ℕ)
    (transient : Option Text)
    (hjob : (s'.worker w).job = .pushing pk row startedAt devices sent terminal transient) (d : ℕ)
    (hd : d ∈ devices) : IsOwn s.devices row.recipient d := by
  have hchange := jobs_stepped h w
  rw [hjob] at hchange
  generalize hbefore : (s.worker w).job = job at hchange
  cases hchange with
  | kept => exact hinv.jobs w pk row startedAt devices sent terminal transient hbefore d hd
  | began order key r _ hbegins =>
    have hperm := devices_of_began w order pk row startedAt devices sent terminal transient h hjob
    obtain ⟨⟨q, device⟩, hmem, rfl⟩ := List.mem_map.mp (hperm.mem_iff.mp hd)
    obtain ⟨hdevice, huser⟩ := (Table.mem_select _ _ _ _).mp hmem
    simp only [Bool.and_eq_true, decide_eq_true_eq] at huser
    exact ⟨device, hdevice, huser.1⟩
  | round error d' key r started devices' sent' _ _ hrounds =>
    cases hrounds with
    | _ => exact hinv.jobs w _ _ _ _ _ _ _ hbefore d (List.mem_cons_of_mem _ hd)
  | reached error d' key r started devices' sent' terminal' transient' _ =>
    exact hinv.jobs w _ _ _ _ _ _ _ hbefore d (List.mem_cons_of_mem _ hd)

theorem OwnInv.step (hinv : OwnInv s) (hhold : HoldInv s)
    (h : DeliverySystem.step P s a = some s') : OwnInv s' := by
  obtain ⟨hdevices, hkept⟩ := devices_stepped h hinv.devices
  have hrows := rows_stepped hhold h
  -- A push row is still there, with its recipient.
  have hstill : ∀ pk row d, s.rows.get? pk = some row → row.channel = .push →
      IsOwn s.devices row.recipient d → ∃ row', s'.rows.get? pk = some row' ∧
        row'.channel = .push ∧ IsOwn s'.devices row'.recipient d := by
    intro pk row d hrow hchannel hown
    obtain ⟨row', hrow', hchange⟩ := hrows.kept pk row hrow (by rw [hchannel]; decide)
    refine ⟨row', hrow', hchange.channel_eq.trans hchannel, ?_⟩
    rw [hchange.rewritten.recipient]
    exact hown.kept hkept
  refine ⟨hdevices, fun w pk row startedAt devices sent terminal transient hjob d hd => ?_,
    fun pk d hmem => ?_⟩
  · exact (hinv.jobs_step h w pk row startedAt devices sent terminal transient hjob d hd).kept hkept
  · have hold : (pk, d) ∈ s.pushed → ∃ row', s'.rows.get? pk = some row' ∧
        row'.channel = .push ∧ IsOwn s'.devices row'.recipient d := by
      intro hmem
      obtain ⟨row, hrow, hchannel, hown⟩ := hinv.pushed pk d hmem
      exact hstill pk row d hrow hchannel hown
    rcases pushed_stepped h with heq | ⟨w, key, row, startedAt, e, devices, sent, terminal,
      transient, hjob, -, heq, -⟩
    · rw [heq] at hmem
      exact hold hmem
    · rw [heq] at hmem
      rcases List.mem_cons.mp hmem with hnew | hmem
      · cases hnew
        have hfits := hhold.fits w
        rw [hjob] at hfits
        obtain ⟨-, hrow, -⟩ := hhold.held w pk row (by rw [hjob]; rfl)
        exact hstill pk row d hrow hfits.1
          (hinv.jobs w pk row startedAt _ sent terminal transient hjob d List.mem_cons_self)
      · exact hold hmem

/-- **A push goes to the recipient's own devices.** In every run of any number of workers, with
devices registered and deactivated at any time, a push that the provider accepted was for a device
of the recipient of its delivery; a user has one row for an install, and a token is active in one
row at most. -/
theorem pushes_reach_owner (P : PushConfig) (s : DeliverySystem W)
    (h : Reaches (DeliverySystem.step P) Always DeliverySystem.empty s) :
    (∀ pk d, (pk, d) ∈ s.pushed → ∃ row device, s.rows.get? pk = some row ∧ row.channel = .push ∧
      s.devices.get? d = some device ∧ device.user = row.recipient) ∧
    (∀ p q a b, s.devices.get? p = some a → s.devices.get? q = some b →
      (a.user = b.user → a.installId = b.installId → p = q) ∧
      (a.active = true → b.active = true → a.fcmToken = b.fcmToken → p = q)) := by
  have hboth : HoldInv s ∧ OwnInv s := by
    refine h.preserves (fun u => HoldInv u ∧ OwnInv u) ?_ ⟨holdInv_empty, ownInv_empty⟩
    rintro u a v ⟨hhold, hinv⟩ - hstep
    exact ⟨hhold.step hstep, hinv.step hhold hstep⟩
  constructor
  · intro pk d hmem
    obtain ⟨row, hrow, hchannel, device, hdevice, huser⟩ := hboth.2.pushed pk d hmem
    exact ⟨row, device, hrow, hchannel, hdevice, huser⟩
  · intro p q a b ha hb
    exact ⟨hboth.2.devices.install p q a b ha hb, hboth.2.devices.token p q a b ha hb⟩

/-- A phone changes hands: the token is registered by the next resident, and the push of the first
one, which was read before, was accepted for his own row. -/
theorem pushes_reach_owner_passed : ∃ s : DeliverySystem Bool,
    Reaches (DeliverySystem.step samplePush) Always DeliverySystem.empty s ∧
      ∃ row device, s.rows.get? 1 = some row ∧ row.channel = .push ∧
        s.devices.get? 1 = some device ∧ device.user = row.recipient ∧ device.active = false := by
  obtain ⟨s, hreach, hpushed, hinactive⟩ := exists_of_run (DeliverySystem.step samplePush)
    (DeliverySystem.empty : DeliverySystem Bool)
    (fun s => (1, 1) ∈ s.pushed ∧ (s.devices.get? 1).map (·.active) = some false)
    [.registerDevice 8 "phone".toList "a".toList,
      .queue 8 none "report.receipt:report:1".toList "report.receipt".toList .push,
      .claim true 50, .take true [1], .registerDevice 9 "phone".toList "a".toList,
      .push true none, .save true] (by decide +kernel)
  obtain ⟨row, device, hrow, hchannel, hdevice, huser⟩ :=
    (pushes_reach_owner samplePush s hreach).1 1 1 hpushed
  rw [hdevice] at hinactive
  exact ⟨s, hreach, row, device, hrow, hchannel, hdevice, huser, Option.some.inj hinactive⟩

end LamTo.Analysis
