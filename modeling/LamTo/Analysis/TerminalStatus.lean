import LamTo.Analysis.Anchoring

/-!
# Terminal statuses are permanent while leases are kept

A final mark re-locks the row but does not look at what became of it. A worker whose lease
ran out before its mark can find the row finished by another one, and its `_mark_retry`
then puts a confirmed row back to pending (`terminal_status_not_permanent`).

In every run where a worker that marks a row still has the lease its own claim wrote, this
does not happen: a leased row is submitted, so no mark meets a terminal row, and the
re-check of a confirmed row is the only road on, to mismatch.

SOURCE: src/lamto/evidence/worker.py:175-194, 320-360
-/

set_option autoImplicit false

namespace LamTo.Analysis

open LamTo.Library LamTo.Model

variable {W : Type}

/-- The two stages of the re-check. -/
def isRecheck : Stage → Bool
  | .rechecking => true
  | .recheckFound _ => true
  | _ => false

/-- The row still has the lease the worker's own claim wrote: nobody claimed or finished it
since. -/
def HasLease (s : System W) : Pc → Prop
  | .busy pk held stage =>
    isRecheck stage = true ∨
      (s.rows.get? pk).map (fun row => row.leaseExpiresAt) = some held.leaseExpiresAt
  | .idle => True

/-- A worker that writes its final mark still has its lease. -/
def KeepsLease (s : System W) : Action W → Prop
  | .mark w => HasLease s (s.pc w)
  | _ => True

instance (s : System W) (pc : Pc) : Decidable (HasLease s pc) :=
  match pc with
  | .busy _ _ _ => inferInstanceAs (Decidable (_ ∨ _))
  | .idle => inferInstanceAs (Decidable True)

instance (s : System W) (a : Action W) : Decidable (KeepsLease s a) :=
  match a with
  | .mark w => inferInstanceAs (Decidable (HasLease s (s.pc w)))
  | .tick _ | .queue _ | .broadcast _ _ | .mine _ _ _ _ | .claim _ _ _ | .claimNext _ _ _
  | .recheck _ _ | .find _ | .findError _ _ | .send _ _ | .sendError _ _
  | .sendUnanswered _ _ _ | .persist _ | .receipt _ | .waitError _ _ | .stop _ =>
    inferInstanceAs (Decidable True)

/-! ## The invariant -/

/-- A leased row is submitted, a worker on the anchoring road holds a lease, and a row under
re-check is confirmed or found mismatched since. -/
structure LeaseInv (s : System W) : Prop where
  leased : ∀ pk row, s.rows.get? pk = some row → row.leaseExpiresAt ≠ none →
    row.status = .submitted
  held : ∀ w pk e stage, s.pc w = .busy pk e stage → isRecheck stage = false →
    e.leaseExpiresAt ≠ none
  rechecked : ∀ w pk e stage, s.pc w = .busy pk e stage → isRecheck stage = true →
    ∃ row, s.rows.get? pk = some row ∧ (row.status = .confirmed ∨ row.status = .mismatch)

/-- What may become of the status of a row: anything while it is not terminal, and then only
mismatch after confirmed. -/
def StatusKept (before after : Status) : Prop :=
  before.Terminal → after = before ∨ (before = .confirmed ∧ after = .mismatch)

theorem isDue_not_terminal (d : Delivery) (now : ℕ) (h : d.isDue now = true) :
    ¬ d.status.Terminal := by
  unfold Delivery.isDue at h
  split at h
  · next hs => simp [hs, Status.Terminal]
  · next hs => simp [hs, Status.Terminal]
  · cases h

variable {D : Deployment W} {s t : System W}

/-- Under the condition the row of a final mark is submitted. -/
theorem submitted_of_keepsLease (hinv : LeaseInv s) (w : W) (pk : ℕ) (e held : OutboxEvent)
    (stage : Stage) (hrow : s.rows.get? pk = some e) (hpc : s.pc w = .busy pk held stage)
    (hroad : isRecheck stage = false) (hok : KeepsLease s (.mark w)) : e.status = .submitted := by
  simp only [KeepsLease, HasLease, hpc, hrow, hroad, Option.map_some, Option.some.injEq, Bool.false_eq_true,
    false_or] at hok
  refine hinv.leased pk e hrow ?_
  rw [hok]
  exact hinv.held w pk held stage hpc hroad

/-- **What a write makes of the row's status**, when leases are kept. -/
theorem rowWrite_status (hinv : LeaseInv s) (w : W) (pk : ℕ) (e : OutboxEvent) (a : Action W)
    (d : Delivery) (pc : Pc) (hrow : s.rows.get? pk = some e)
    (hwrite : RowWrite D s w pk e a d pc) (hok : KeepsLease s a) :
    ¬ e.status.Terminal ∨ d.status = e.status ∨
      ((e.status = .confirmed ∨ e.status = .mismatch) ∧ d.status = .mismatch ∧ a = .mark w ∧
        ∃ held record, s.pc w = .busy pk held (.recheckFound record)) := by
  have hsubmitted : ∀ held stage, s.pc w = .busy pk held stage → isRecheck stage = false →
      KeepsLease s (.mark w) → ¬ e.status.Terminal := by
    intro held stage hpc hroad hok
    rw [submitted_of_keepsLease hinv w pk e held stage hrow hpc hroad hok]
    simp [Status.Terminal]
  cases hwrite with
  | claim _ readAt hpc hdue => exact .inl (isDue_not_terminal _ readAt hdue)
  | store held hash hpc hempty => exact .inr (.inl rfl)
  | settle held hpc => exact .inl (hsubmitted held _ hpc rfl hok)
  | confirmFound held record _ hpc hmatch hd => exact .inl (hsubmitted held _ hpc rfl hok)
  | mismatch held record hpc => exact .inl (hsubmitted held _ hpc rfl hok)
  | confirmSubmitted held hash receipt _ hpc hd => exact .inl (hsubmitted held _ hpc rfl hok)
  | retry held error hpc => exact .inl (hsubmitted held _ hpc rfl hok)
  | recheck held record hpc =>
    obtain ⟨row, hrow', hstatus⟩ := hinv.rechecked w pk held _ hpc rfl
    rw [hrow] at hrow'
    cases hrow'
    exact .inr (.inr ⟨hstatus, rfl, rfl, held, record, hpc⟩)

/-- Only a claim leaves a lease behind, and it leaves the row submitted. -/
theorem rowWrite_leased (hinv : LeaseInv s) (w : W) (pk : ℕ) (e : OutboxEvent) (a : Action W)
    (d : Delivery) (pc : Pc) (hrow : s.rows.get? pk = some e)
    (hwrite : RowWrite D s w pk e a d pc) (hlease : d.leaseExpiresAt ≠ none) :
    d.status = .submitted := by
  cases hwrite with
  | claim _ readAt hpc hdue => rfl
  | store held hash hpc hempty => exact hinv.leased pk e hrow hlease
  | settle held hpc => exact absurd rfl hlease
  | confirmFound held record _ hpc hmatch hd =>
    exact absurd (markConfirmed_spec _ _ _ _ _ _ hd).2.1 hlease
  | mismatch held record hpc => exact absurd rfl hlease
  | confirmSubmitted held hash receipt _ hpc hd =>
    exact absurd (markConfirmed_spec _ _ _ _ _ _ hd).2.1 hlease
  | retry held error hpc => exact absurd rfl hlease
  | recheck held record hpc => exact absurd rfl hlease

/-! ## Steps and runs -/

/-- The row a write effect leaves under a key, and the one that was there. -/
theorem rows_of_write (rows : OutboxTable) (pk : ℕ) (e : OutboxEvent) (d : Delivery)
    (hrow : s.rows.get? pk = some e)
    (hrows : ∀ q, rows.get? q = if q = pk then some ⟨e.toIdentity, d⟩ else s.rows.get? q)
    (R : Status → Status → Prop) (hsame : ∀ x, R x x) (hwrite : R e.status d.status) (q : ℕ)
    (row : OutboxEvent) (hq : s.rows.get? q = some row) :
    ∃ row', rows.get? q = some row' ∧ R row.status row'.status := by
  by_cases hpk : q = pk
  · subst hpk
    rw [hrow] at hq
    cases hq
    exact ⟨⟨e.toIdentity, d⟩, by rw [hrows, if_pos rfl], hwrite⟩
  · exact ⟨row, by rw [hrows, if_neg hpk, hq], hsame _⟩

/-- The rows after a write, for the workers that did not make it. -/
theorem rowWrite_leaseInv (hinv : LeaseInv s) (w : W) (pk : ℕ) (e : OutboxEvent) (a : Action W)
    (d : Delivery) (pc : Pc) (rows : OutboxTable) (hrow : s.rows.get? pk = some e)
    (hwrite : RowWrite D s w pk e a d pc) (hok : KeepsLease s a)
    (hrows : ∀ q, rows.get? q = if q = pk then some ⟨e.toIdentity, d⟩ else s.rows.get? q) :
    LeaseInv { s with rows := rows } := by
  refine ⟨?_, hinv.held, ?_⟩
  · intro q row hq hlease
    rw [hrows] at hq
    split at hq
    · cases hq
      exact rowWrite_leased hinv w pk e a d pc hrow hwrite hlease
    · exact hinv.leased q row hq hlease
  · intro w' q x stage hpc hroad
    obtain ⟨row, hq, hstatus⟩ := hinv.rechecked w' q x stage hpc hroad
    -- A terminal row is written by the re-check alone, and then it is mismatched.
    have hkept : (e.status = .confirmed ∨ e.status = .mismatch) →
        (d.status = .confirmed ∨ d.status = .mismatch) := by
      intro hterm
      rcases rowWrite_status hinv w pk e a d pc hrow hwrite hok with hnot | hsame | hre
      · exact absurd (hterm.imp id .inl) hnot
      · rw [hsame]
        exact hterm
      · exact .inr hre.2.1
    obtain ⟨row', hq', himp⟩ := rows_of_write rows pk e d hrow hrows
      (fun x y => (x = .confirmed ∨ x = .mismatch) → (y = .confirmed ∨ y = .mismatch))
      (fun _ h => h) hkept q row hq
    exact ⟨row', hq', himp hstatus⟩

theorem initial_leaseInv (hinit : s.Initial) : LeaseInv s := by
  refine ⟨?_, ?_, ?_⟩
  · intro pk row hrow
    rw [Table.get?, hinit.rows] at hrow
    cases hrow
  · intro w pk e stage hpc
    rw [hinit.idle] at hpc
    cases hpc
  · intro w pk e stage hpc
    rw [hinit.idle] at hpc
    cases hpc

variable [DecidableEq W]

theorem leaseInv_goto (hinv : LeaseInv s) (w : W) (pc : Pc)
    (hpc : ∀ pk e stage, pc = .busy pk e stage →
      (isRecheck stage = false → e.leaseExpiresAt ≠ none) ∧
      (isRecheck stage = true →
        ∃ row, s.rows.get? pk = some row ∧ (row.status = .confirmed ∨ row.status = .mismatch))) :
    LeaseInv (s.goto w pc) := by
  refine ⟨hinv.leased, ?_, ?_⟩
  · intro w' pk e stage h hroad
    rcases goto_pc_cases w w' pc pk e stage h with h | h
    · exact (hpc pk e stage h).1 hroad
    · exact hinv.held w' pk e stage h hroad
  · intro w' pk e stage h hroad
    rcases goto_pc_cases w w' pc pk e stage h with h | h
    · exact (hpc pk e stage h).2 hroad
    · exact hinv.rechecked w' pk e stage h hroad

/-- A worker that goes on with the row it holds, on the same road. -/
theorem leaseInv_continue (hinv : LeaseInv s) (w : W) (pk : ℕ) (e : OutboxEvent)
    (stage next : Stage) (hpc : s.pc w = .busy pk e stage)
    (hroad : isRecheck next = isRecheck stage) : LeaseInv (s.goto w (.busy pk e next)) := by
  refine leaseInv_goto hinv w _ ?_
  intro pk' e' stage' h
  cases h
  rw [hroad]
  exact ⟨hinv.held w pk e stage hpc, hinv.rechecked w pk e stage hpc⟩

theorem pcMove_leaseInv (hinv : LeaseInv s) (w : W) (pc : Pc) (hmove : PcMove D s w pc) :
    LeaseInv (s.goto w pc) := by
  cases hmove with
  | idle => exact leaseInv_goto hinv w .idle fun pk e stage h => by cases h
  | found pk e record hpc hfind => exact leaseInv_continue hinv w pk e _ _ hpc rfl
  | absent pk e hpc => exact leaseInv_continue hinv w pk e _ _ hpc rfl
  | failed pk e stage error hpc hstage =>
    refine leaseInv_continue hinv w pk e stage _ hpc ?_
    rcases hstage with rfl | rfl | ⟨hash, rfl⟩ <;> rfl
  | waiting pk e hash hpc => exact leaseInv_continue hinv w pk e _ _ hpc rfl
  | receipted pk e hash m hpc hmined hstatus => exact leaseInv_continue hinv w pk e _ _ hpc rfl
  | rechecking pk e hrow hconfirmed =>
    refine leaseInv_goto hinv w _ ?_
    intro pk' e' stage' h
    cases h
    exact ⟨fun hroad => (by cases hroad), fun _ => ⟨e, hrow, .inl hconfirmed⟩⟩
  | recheckFound pk e record hpc hfind hmatch => exact leaseInv_continue hinv w pk e _ _ hpc rfl

/-- **One step keeps the lease invariant**, when leases are kept. -/
theorem effect_leaseInv (a : Action W) (hinv : LeaseInv s) (hok : KeepsLease s a)
    (heffect : Effect D s a t) : LeaseInv t := by
  cases heffect with
  | clock now => exact ⟨hinv.leased, hinv.held, hinv.rechecked⟩
  | chain c hc => exact ⟨hinv.leased, hinv.held, hinv.rechecked⟩
  | queue identity =>
    refine ⟨?_, hinv.held, ?_⟩
    · intro pk row hrow hlease
      rw [Table.get?_insert] at hrow
      split at hrow
      · cases hrow
        exact absurd rfl hlease
      · exact hinv.leased pk row hrow hlease
    · intro w pk e stage hpc hroad
      obtain ⟨row, hrow, hstatus⟩ := hinv.rechecked w pk e stage hpc hroad
      exact ⟨row, Table.get?_insert_of_some _ _ _ pk hrow, hstatus⟩
  | send w pk e hash call c stage hpc hcall hsend hstage =>
    have hchain : LeaseInv { s with chain := c } := ⟨hinv.leased, hinv.held, hinv.rechecked⟩
    refine leaseInv_continue hchain w pk e .absent stage hpc ?_
    rcases hstage with rfl | ⟨error, rfl⟩ <;> rfl
  | move w pc hmove => exact pcMove_leaseInv hinv w pc hmove
  | write w pk e d pc rows hrow hwrite hrows =>
    have hnew := rowWrite_leaseInv hinv w pk e a d pc rows hrow hwrite hok hrows
    refine leaseInv_goto hnew w pc ?_
    intro pk' e' stage hpc
    cases hwrite with
    | claim _ readAt hidle hdue =>
      cases hpc
      exact ⟨fun _ => by simp [Delivery.claim], fun hroad => by cases hroad⟩
    | store held hash hat hempty =>
      cases hpc
      exact ⟨fun _ => hinv.held w _ _ _ hat rfl, fun hroad => by cases hroad⟩
    | _ => cases hpc

/-- **One step keeps terminal statuses**, when leases are kept: a terminal row that changes
is a confirmed one the re-check found mismatched. -/
theorem effect_terminal (a : Action W) (hinv : LeaseInv s) (hok : KeepsLease s a)
    (heffect : Effect D s a t) (pk : ℕ) (row : OutboxEvent) (hrow : s.rows.get? pk = some row)
    (hterminal : row.status.Terminal) :
    ∃ row', t.rows.get? pk = some row' ∧
      (row'.status = row.status ∨
        (row.status = .confirmed ∧ row'.status = .mismatch ∧
          ∃ w held record, a = .mark w ∧ s.pc w = .busy pk held (.recheckFound record))) := by
  cases heffect with
  | queue identity => exact ⟨row, Table.get?_insert_of_some _ _ _ pk hrow, .inl rfl⟩
  | write w q e d pc rows hq hwrite hrows =>
    by_cases hpk : pk = q
    · subst hpk
      rw [hq] at hrow
      cases hrow
      refine ⟨⟨row.toIdentity, d⟩, by simp [System.goto, hrows], ?_⟩
      rcases rowWrite_status hinv w pk row a d pc hq hwrite hok with hnot | hsame | hre
      · exact absurd hterminal hnot
      · exact .inl hsame
      · obtain ⟨hbefore, hafter, ha, held, record, hpc⟩ := hre
        rcases hbefore with hconf | hmis
        · exact .inr ⟨hconf, hafter, w, held, record, ha, hpc⟩
        · exact .inl (hafter.trans hmis.symm)
    · exact ⟨row, by simp [System.goto, hrows, hpk, hrow], .inl rfl⟩
  | _ => exact ⟨row, hrow, .inl rfl⟩

/-- The two invariants of the runs in which leases are kept. -/
theorem reaches_leaseInv (hreach : Reaches (System.step D) KeepsLease s t)
    (hanchoring : AnchoringInv D s) (hinv : LeaseInv s) : LeaseInv t := by
  have hboth := hreach.preserves (fun u => AnchoringInv D u ∧ LeaseInv u) ?_ ⟨hanchoring, hinv⟩
  · exact hboth.2
  · intro u a v hu hok hstep
    exact ⟨step_anchoringInv a hu.1 hstep,
      effect_leaseInv a hu.2 hok (step_effect hu.1.held a hstep)⟩

/-- Every row keeps its key, and its status once it is terminal. -/
def KeepsTerminal (s t : System W) : Prop :=
  ∀ pk row, s.rows.get? pk = some row →
    ∃ row', t.rows.get? pk = some row' ∧ StatusKept row.status row'.status

theorem statusKept_trans (x y z : Status) (hxy : StatusKept x y) (hyz : StatusKept y z) :
    StatusKept x z := by
  intro hx
  rcases hxy hx with rfl | ⟨rfl, rfl⟩
  · exact hyz hx
  · rcases hyz (by decide) with rfl | ⟨h, _⟩
    · exact .inr ⟨rfl, rfl⟩
    · cases h

theorem effect_keepsTerminal (a : Action W) (hinv : LeaseInv s) (hok : KeepsLease s a)
    (heffect : Effect D s a t) : KeepsTerminal s t := by
  intro pk row hrow
  by_cases hterminal : row.status.Terminal
  · obtain ⟨row', hrow', hstatus⟩ := effect_terminal a hinv hok heffect pk row hrow hterminal
    refine ⟨row', hrow', fun _ => ?_⟩
    rcases hstatus with hsame | ⟨hconf, hmis, _⟩
    · exact .inl hsame
    · exact .inr ⟨hconf, hmis⟩
  · obtain ⟨row', hrow', _⟩ := effect_keepsIdentity a heffect pk row hrow
    exact ⟨row', hrow', fun h => absurd h hterminal⟩

theorem reaches_keepsTerminal (hreach : Reaches (System.step D) KeepsLease s t)
    (hanchoring : AnchoringInv D s) (hinv : LeaseInv s) : KeepsTerminal s t := by
  refine Reaches.monotone (fun u => AnchoringInv D u ∧ LeaseInv u) KeepsTerminal ?_ ?_ ?_ ?_
    hreach ⟨hanchoring, hinv⟩
  · exact fun u pk row hrow => ⟨row, hrow, fun _ => .inl rfl⟩
  · intro u v x huv hvx pk row hrow
    obtain ⟨row', hrow', hkept⟩ := huv pk row hrow
    obtain ⟨row'', hrow'', hkept'⟩ := hvx pk row' hrow'
    exact ⟨row'', hrow'', statusKept_trans _ _ _ hkept hkept'⟩
  · intro u a v hu hok hstep
    exact ⟨step_anchoringInv a hu.1 hstep,
      effect_leaseInv a hu.2 hok (step_effect hu.1.held a hstep)⟩
  · intro u a v hu hok hstep
    exact effect_keepsTerminal a hu.2 hok (step_effect hu.1.held a hstep)

/-- **Terminal statuses are permanent in every run that keeps its leases.** From any state
such a run reaches, whatever such a run does next: a row that is confirmed, mismatched or
locally settled keeps its status, or goes from confirmed to mismatch; and a single step that
changes it is the final mark of a re-check. SOURCE: worker.py:83-117, 175-194, 320-360 -/
theorem terminal_status_permanent (D : Deployment W) (s₀ s : System W) (hinit : s₀.Initial)
    (hreach : Reaches (System.step D) KeepsLease s₀ s) (pk : ℕ) (row : OutboxEvent)
    (hrow : s.rows.get? pk = some row) (hterminal : row.status.Terminal) :
    (∀ t, Reaches (System.step D) KeepsLease s t →
      ∃ row', t.rows.get? pk = some row' ∧
        (row'.status = row.status ∨ (row.status = .confirmed ∧ row'.status = .mismatch))) ∧
    (∀ a t, KeepsLease s a → System.step D s a = some t →
      ∃ row', t.rows.get? pk = some row' ∧
        (row'.status = row.status ∨
          (row.status = .confirmed ∧ row'.status = .mismatch ∧
            ∃ w held record, a = .mark w ∧ s.pc w = .busy pk held (.recheckFound record)))) := by
  have hanchoring := reaches_anchoringInv hreach (initial_anchoringInv (D := D) hinit)
  have hinv := reaches_leaseInv hreach (initial_anchoringInv hinit) (initial_leaseInv hinit)
  refine ⟨?_, ?_⟩
  · intro t ht
    obtain ⟨row', hrow', hkept⟩ := reaches_keepsTerminal ht hanchoring hinv pk row hrow
    exact ⟨row', hrow', hkept hterminal⟩
  · intro a t hok hstep
    exact effect_terminal a hinv hok (step_effect hanchoring.held a hstep) pk row hrow hterminal

/-- The row that a worker confirms undisturbed is there to stay. -/
theorem terminal_status_permanent_undisturbed :
    ∃ s row, Reaches (System.step twoWorkers) KeepsLease emptySystem s ∧
      s.rows.get? 1 = some row ∧ row.status = .confirmed ∧
      ∀ t, Reaches (System.step twoWorkers) KeepsLease s t →
        ∃ row', t.rows.get? 1 = some row' ∧
          (row'.status = .confirmed ∨ row'.status = .mismatch) := by
  obtain ⟨s, hreach, hstatus⟩ := exists_of_run (guarded (System.step twoWorkers) KeepsLease)
    emptySystem (fun s => statusOf s = some .confirmed) undisturbed (by decide +kernel)
  obtain ⟨row, hrow, hconf⟩ := Option.map_eq_some_iff.mp hstatus
  refine ⟨s, row, hreach.of_guarded, hrow, hconf, fun t ht => ?_⟩
  have hkept := (terminal_status_permanent twoWorkers emptySystem s emptySystem_initial
    hreach.of_guarded 1 row hrow (.inl hconf)).1 t ht
  obtain ⟨row', hrow', hstatus'⟩ := hkept
  refine ⟨row', hrow', ?_⟩
  rcases hstatus' with hsame | ⟨_, hmis⟩
  · exact .inl (hsame.trans hconf)
  · exact .inr hmis

/-- **Without that condition they are not**: the worker that was overtaken fails to submit
and puts the confirmed row back to pending. -/
theorem terminal_status_not_permanent :
    ¬ ∀ s t, Reaches (System.step twoWorkers) Always emptySystem s →
      Reaches (System.step twoWorkers) Always s t →
      ∀ pk row row', s.rows.get? pk = some row → row.status.Terminal →
        t.rows.get? pk = some row' →
        row'.status = row.status ∨ (row.status = .confirmed ∧ row'.status = .mismatch) := by
  intro hclaim
  obtain ⟨s, hs, hconf, t, ht, hpending⟩ : ∃ s, Reaches (System.step twoWorkers) Always
      emptySystem s ∧ statusOf s = some .confirmed ∧
      ∃ t, Reaches (System.step twoWorkers) Always s t ∧ statusOf t = some .pending := by
    have hrun : (run (System.step twoWorkers) emptySystem overtaken).any (fun s =>
        decide (statusOf s = some .confirmed) &&
          (run (System.step twoWorkers) s [.sendError true [], .mark true]).any fun t =>
            decide (statusOf t = some .pending)) = true := by decide +kernel
    obtain ⟨s, hs, hboth⟩ := (Option.any_eq_true _ _).mp hrun
    rw [Bool.and_eq_true] at hboth
    obtain ⟨t, ht⟩ := exists_of_run _ s _ _ hboth.2
    exact ⟨s, reaches_of_run _ hs, of_decide_eq_true hboth.1, t, ht⟩
  obtain ⟨row, hrow, hrow_status⟩ := Option.map_eq_some_iff.mp hconf
  obtain ⟨row', hrow', hrow'_status⟩ := Option.map_eq_some_iff.mp hpending
  rcases hclaim s t hs ht 1 row row' hrow (.inl hrow_status) hrow' with h | ⟨_, h⟩
  · rw [hrow_status, hrow'_status] at h
    cases h
  · rw [hrow'_status] at h
    cases h

end LamTo.Analysis
