import LamTo.Analysis.CompletedWork
import LamTo.Model.Selectors

/-!
# A decision and the version it was made on

The decider and the date of a decision stand on the proposal, not on the version. Publishing a
further version of a proposal in progress puts it back to published and leaves them there, so
that a proposal that waits for a decision shows the old one and is missing from the inbox.
`republishesDecided` names that call.

* **The clock** (`clockedStep`): every call that reads the clock reads a later time than the
  calls before it.
* **The invariant** (`DecisionInv.step`): a proposal that waits for a decision has none, and a
  decision is later than the current version.
* **The readers** (`decision_belongs_to_version`): the start guard, the decision shown and the
  inbox agree.

SOURCE: src/lamto/finance/proposals.py:261-295, 410-412, src/lamto/finance/selectors.py:288-303,
src/lamto/web/action_inbox.py:241-250
-/

set_option autoImplicit false

namespace LamTo.Analysis

open LamTo.Library LamTo.Model

variable {C : EvidenceConfig} {db db' : Db} {t t' : ℕ} {a : Command}

/-! ## The clock -/

/-- The time a call is made at, for the calls that read the clock. -/
def callTime : Command → Option ℕ
  | .confirmTriage now .. | .startCaseWork now .. | .completeProposalWork now ..
  | .completeCaseWork now .. | .closeExpiredCompletedCases now | .declineReport now ..
  | .replyInformation now .. | .rateCompletedCase now .. | .rateCompletedProposal now ..
  | .createProposal now .. | .createStandaloneProposal now .. | .decideProposal now ..
  | .decideAndStart now .. | .publishProposalVersion now .. | .recordFundSource now ..
  | .verifyFundSource now .. | .recordSettlement now .. | .verifyPublishedEntry now .. => some now
  | _ => none

/-- A step under a clock that moves on from call to call. -/
def clockedStep (C : EvidenceConfig) (s : Db × ℕ) (a : Command) : Option (Db × ℕ) :=
  if (callTime a).all (s.2 < ·) then (Db.step C s.1 a).map fun db => (db, (callTime a).getD s.2)
  else none

theorem clockedStep_eq_some (h : clockedStep C (db, t) a = some (db', t')) :
    Db.step C db a = some db' ∧ t ≤ t' ∧ ∀ now, callTime a = some now → t < now ∧ t' = now := by
  unfold clockedStep at h
  split at h
  · next hclock =>
    obtain ⟨mid, hstep, hpair⟩ := Option.map_eq_some_iff.mp h
    obtain ⟨rfl, rfl⟩ := Prod.mk.inj hpair
    refine ⟨hstep, ?_, fun now hnow => ?_⟩
    · cases htime : callTime a with
      | none => exact le_refl t
      | some now =>
        rw [htime] at hclock
        exact Nat.le_of_lt (of_decide_eq_true hclock)
    · rw [hnow] at hclock
      exact ⟨of_decide_eq_true hclock, by rw [hnow]; rfl⟩
  · cases h

/-! ## The condition -/

/-- A further version is published of a proposal that work has been decided on. -/
def republishesDecided (db : Db) : Command → Bool
  | .publishProposalVersion _ proposal _ _ =>
    (db.proposals.get? proposal).any fun p => p.status = .inProgress
  | _ => false

/-! ## The invariant -/

/-- The decision on a proposal is later than its current version. -/
def DecidedLater (db : Db) (p : Proposal) : Prop :=
  ∃ decidedAt current v, p.decidedAt = some decidedAt ∧ p.currentVersion = some current ∧
    db.versions.get? current = some v ∧ v.createdAt < decidedAt

/-- No decision is on a proposal that awaits one, and every decision is later than the current
version. -/
structure DecisionInv (db : Db) (t : ℕ) : Prop where
  chain : ChainInv db
  created : ∀ pk v, db.versions.get? pk = some v → v.createdAt ≤ t
  undecided : ∀ pk p, db.proposals.get? pk = some p → p.status = .draft ∨ p.status = .published →
    p.decidedBy = none ∧ p.decidedAt = none
  decided : ∀ pk p, db.proposals.get? pk = some p → p.decidedBy ≠ none → DecidedLater db p

/-- A version is an old one, or published by this call. -/
theorem versions_dated (h : Db.step C db a = some db') (pk : ℕ) (v : ProposalVersion)
    (hv : db'.versions.get? pk = some v) :
    db.versions.get? pk = some v ∨ callTime a = some v.createdAt := by
  cases book_effect C db db' a h with
  | quiet _ hquiet =>
    rw [Table.get?_congr _ _ hquiet.versions] at hv
    exact .inl hv
  | publish creator args p =>
    rw [p.versions_get] at hv
    split at hv
    · cases hv
      rw [p.version_createdAt]
      exact .inr rfl
    · exact .inl hv
  | settle now member transfer eventId s =>
    rw [s.versions_eq] at hv
    exact .inl hv
  | openFund building fund funds _ result =>
    rw [result] at hv
    exact .inl hv
  | record now entryType amountVnd evidence recorder fundEntryId aware r =>
    rw [r.result] at hv
    exact .inl hv
  | verify now verifier v' =>
    rw [v'.result] at hv
    exact .inl hv

/-- A decision taken now is later than the version it is taken on. -/
theorem DecisionInv.decidedLater_now (hinv : DecisionInv db t) (pk now membership : ℕ) (p : Proposal)
    (proceed : Bool) (note : Text) (hp : db.proposals.get? pk = some p)
    (hpublished : p.status = .published) (hnow : t < now) :
    DecidedLater db (Proposal.decide now membership proceed note p) := by
  have hdraft : p.status ≠ .draft := by
    rw [hpublished]
    decide
  obtain ⟨current, v, hcurrent, hv⟩ := exists_current hinv.chain pk p hp hdraft
  exact ⟨now, current, v, rfl, hcurrent, hv, Nat.lt_of_le_of_lt (hinv.created current v hv) hnow⟩

theorem DecidedLater.mono (p p' : Proposal) (h : DecidedLater db p)
    (hversions : ∀ pk v, db.versions.get? pk = some v → db'.versions.get? pk = some v)
    (hdecided : p'.decidedAt = p.decidedAt) (hcurrent : p'.currentVersion = p.currentVersion) :
    DecidedLater db' p' := by
  obtain ⟨decidedAt, current, v, hat, hof, hv, hlater⟩ := h
  exact ⟨decidedAt, current, v, hdecided.trans hat, hcurrent.trans hof, hversions current v hv,
    hlater⟩

theorem decisionInv_empty : DecisionInv Db.empty 0 where
  chain := chainInv_empty
  created _ _ h := by cases h
  undecided _ _ h := by cases h
  decided _ _ h := by cases h

/-- A decision ends the wait for it. -/
theorem DecisionInv.decide (hinv : DecisionInv db t)
    (hversions : ∀ pk v, db.versions.get? pk = some v → db'.versions.get? pk = some v)
    (pk now membership : ℕ) (p : Proposal) (proceed : Bool) (note : Text)
    (hp : db.proposals.get? pk = some p) (hpublished : p.status = .published) (hnow : t < now) :
    ((Proposal.decide now membership proceed note p).status = .draft ∨
        (Proposal.decide now membership proceed note p).status = .published →
      (Proposal.decide now membership proceed note p).decidedBy = none ∧
        (Proposal.decide now membership proceed note p).decidedAt = none) ∧
      ((Proposal.decide now membership proceed note p).decidedBy ≠ none →
        DecidedLater db' (Proposal.decide now membership proceed note p)) := by
  constructor
  · intro hstatus
    cases proceed with
    | true => rcases hstatus with hdraft | hagain <;> cases ‹_›
    | false => rcases hstatus with hdraft | hagain <;> cases ‹_›
  · intro _
    have hlater := hinv.decidedLater_now pk now membership p proceed note hp hpublished hnow
    exact hlater.mono _ _ hversions rfl rfl

/-- What one write to a proposal leaves of the decision on it. -/
theorem DecisionInv.change (hinv : DecisionInv db t) (hclock : ∀ now, callTime a = some now → t < now)
    (hversions : ∀ pk v, db.versions.get? pk = some v → db'.versions.get? pk = some v)
    (hok : republishesDecided db a = false) (pk : ℕ) (p p' : Proposal)
    (hp : db.proposals.get? pk = some p) (h : ProposalChange db pk p a p') :
    (p'.status = .draft ∨ p'.status = .published → p'.decidedBy = none ∧ p'.decidedAt = none) ∧
      (p'.decidedBy ≠ none → DecidedLater db' p') := by
  have hundecided := hinv.undecided pk p hp
  have hdecided := hinv.decided pk p hp
  cases h with
  | kept => exact ⟨hundecided, fun hsome => (hdecided hsome).mono p p hversions rfl rfl⟩
  | decided now manager membership proceed note stored hpublished =>
    exact hinv.decide hversions pk now membership p proceed stored hp hpublished (hclock now rfl)
  | decidedInView now manager membership proceed note stored hpublished =>
    exact hinv.decide hversions pk now membership p proceed stored hp hpublished (hclock now rfl)
  | completed =>
    constructor
    · intro hstatus
      rcases hstatus with hdraft | hpublished <;> cases ‹_›
    · exact fun hsome => (hdecided hsome).mono p _ hversions rfl rfl
  | closed =>
    constructor
    · intro hstatus
      rcases hstatus with hdraft | hpublished <;> cases ‹_›
    · exact fun hsome => (hdecided hsome).mono p _ hversions rfl rfl
  | published now creator args token hopen =>
    -- The guard leaves the proposals that nobody has decided on.
    have hnone : p.decidedBy = none ∧ p.decidedAt = none := by
      refine hundecided ?_
      rcases hopen with hdraft | hpublished | hinProgress
      · exact .inl hdraft
      · exact .inr hpublished
      · rw [republishesDecided, hp] at hok
        simp [hinProgress] at hok
    exact ⟨fun _ => hnone, fun hsome => absurd hnone.1 hsome⟩

theorem DecisionInv.step (hinv : DecisionInv db t) (hok : republishesDecided db a = false)
    (h : clockedStep C (db, t) a = some (db', t')) : DecisionInv db' t' := by
  obtain ⟨hstep, hle, hclock⟩ := clockedStep_eq_some h
  have hbook := bookStep_of_step C db db' a hstep
  have hext := hbook.extends hinv.chain.ownership
  have hproposal : ∀ pk p', db'.proposals.get? pk = some p' →
      (p'.status = .draft ∨ p'.status = .published → p'.decidedBy = none ∧ p'.decidedAt = none) ∧
        (p'.decidedBy ≠ none → DecidedLater db' p') := by
    intro pk p' hp'
    rcases (proposals_changed C db db' a hstep).found pk p' hp' with ⟨p, hp, hchange⟩ | ⟨_, hnew⟩
    · exact hinv.change (fun now hnow => (hclock now hnow).1) hext.versions hok pk p p' hp hchange
    · cases hnew with
      | forCase => exact ⟨fun _ => ⟨rfl, rfl⟩, fun hsome => absurd rfl hsome⟩
      | standalone => exact ⟨fun _ => ⟨rfl, rfl⟩, fun hsome => absurd rfl hsome⟩
  refine ⟨hinv.chain.step hbook, fun pk v hv => ?_, fun pk p hp => (hproposal pk p hp).1,
    fun pk p hp => (hproposal pk p hp).2⟩
  rcases versions_dated hstep pk v hv with hold | htime
  · exact (hinv.created pk v hold).trans hle
  · rw [(hclock _ htime).2]

theorem decisionInv_of_run (h : Reaches (clockedStep C)
    (fun s a => republishesDecided s.1 a = false) (Db.empty, 0) (db, t)) : DecisionInv db t := by
  refine h.preserves (fun s => DecisionInv s.1 s.2) ?_ decisionInv_empty
  rintro ⟨u, r⟩ a ⟨v, r'⟩ hinv hok hstep
  exact hinv.step hok hstep

/-- A run under the clock is a run. -/
theorem reachable_of_clocked (ok : Db × ℕ → Command → Prop)
    (h : Reaches (clockedStep C) ok (Db.empty, 0) (db, t)) : db.Reachable C := by
  refine h.preserves (fun s => s.1.Reachable C) ?_ Relation.ReflTransGen.refl
  rintro ⟨u, r⟩ a ⟨v, r'⟩ hreach _ hstep
  exact hreach.tail ⟨a, trivial, (clockedStep_eq_some hstep).1⟩

/-! ## The readers -/

/-- The proposals of a building that are published. -/
def publishedIn (db : Db) (building : ℕ) : List (ℕ × Proposal) :=
  db.proposals.select fun p => p.building = building && p.status = .published

/-- A published proposal without a decision is in the inbox, when no more than thirty are
published. -/
theorem mem_proposalDecisionItems (pk : ℕ) (p : Proposal) (hp : db.proposals.get? pk = some p)
    (hpublished : p.status = .published) (hnone : p.decidedAt = none)
    (hfew : (publishedIn db p.building).length ≤ 30) :
    proposalDecisionItem pk ∈ proposalDecisionItems db p.building := by
  let waiting := (db.proposals.select fun q =>
    q.building = p.building && q.status = .published && q.decidedAt = none).insertionSort
      fun a b => a.2.createdAt ≤ b.2.createdAt
  have hlength : waiting.length ≤ 30 := by
    have hsub : (db.proposals.select fun q => q.building = p.building && q.status = .published &&
        q.decidedAt = none).length ≤ (publishedIn db p.building).length := by
      refine List.Sublist.length_le (List.monotone_filter_right _ fun r hr => ?_)
      simp only [Bool.and_eq_true] at hr ⊢
      exact hr.1
    rw [List.length_insertionSort]
    exact hsub.trans hfew
  have hmem : (pk, p) ∈ waiting := by
    rw [List.mem_insertionSort, Table.mem_select]
    exact ⟨hp, by simp [hpublished, hnone]⟩
  show proposalDecisionItem pk ∈ (waiting.take 30).map fun r => proposalDecisionItem r.1
  rw [List.take_of_length_le hlength]
  exact List.mem_map.mpr ⟨(pk, p), hmem, rfl⟩

/-- **A decision belongs to the version it was made on.** In a run in which no further version is
published of a proposal in progress: a published proposal is the one its case waits for, it shows
no decision, and the inbox lists it when no more than thirty are published in the building; and a
decision that is shown is later than the current version. -/
theorem decision_belongs_to_version (h : Reaches (clockedStep C)
    (fun s a => republishesDecided s.1 a = false) (Db.empty, 0) (db, t)) (pk : ℕ) (p : Proposal)
    (hp : db.proposals.get? pk = some p) :
    (p.status = .published →
      (∀ case, p.case = some case → proposalAwaitingDecision db case = some (pk, p)) ∧
      proceedDecision db (some p) = none ∧
      ((publishedIn db p.building).length ≤ 30 →
        proposalDecisionItem pk ∈ proposalDecisionItems db p.building)) ∧
    ∀ d, proceedDecision db (some p) = some d →
      ∃ decidedAt current v, d.decidedAt = some decidedAt ∧ p.currentVersion = some current ∧
        db.versions.get? current = some v ∧ v.createdAt < decidedAt := by
  have hinv := decisionInv_of_run h
  have hcases := CaseInv.reachable C db (reachable_of_clocked _ h)
  constructor
  · intro hpublished
    obtain ⟨hby, hat⟩ := hinv.undecided pk p hp (.inr hpublished)
    refine ⟨fun case hcase => ?_, ?_, mem_proposalDecisionItems pk p hp hpublished hat⟩
    · refine Table.first?_eq_of_unique _ _ pk p hp (by simp [hcase, hpublished]) ?_
      intro key q hq hboth
      simp only [Bool.and_eq_true, decide_eq_true_eq] at hboth
      exact hcases.once key q pk p case hq hp hboth.1 hcase
    · rw [proceedDecision, hby]
  · intro d hd
    cases hby : p.decidedBy with
    | none =>
      rw [proceedDecision, hby] at hd
      cases hd
    | some membership =>
      have hlater := hinv.decided pk p hp (by rw [hby]; exact fun h => by cases h)
      obtain ⟨decidedAt, current, v, hat, hcurrent, hv, hlt⟩ := hlater
      simp only [proceedDecision, hby] at hd
      split at hd
      · cases hd
      · cases hd
        exact ⟨decidedAt, current, v, hat, hcurrent, hv, hlt⟩

/-! ## A further version of a decided proposal -/

/-- A step at a later time. -/
theorem clockedStep_of_step (htime : (callTime a).all (t < ·) = true)
    (h : Db.step C db a = some db') :
    clockedStep C (db, t) a = some (db', (callTime a).getD t) := by
  rw [clockedStep, if_pos htime, h]
  rfl

/-- The calls are made at later and later times. -/
def rising : ℕ → List Command → Bool
  | _, [] => true
  | t, a :: as => (callTime a).all (t < ·) && rising ((callTime a).getD t) as

/-- A schedule at rising times is a schedule under the clock. -/
theorem clocked_of_run (as : List Command) (hrising : rising t as = true)
    (h : run (Db.step C) db as = some db') :
    run (clockedStep C) (db, t) as = some (db', as.foldl (fun t a => (callTime a).getD t) t) := by
  induction as generalizing db t with
  | nil =>
    cases h
    rfl
  | cons a as ih =>
    obtain ⟨u, hu, hrest⟩ := Option.bind_eq_some_iff.mp h
    rw [rising, Bool.and_eq_true] at hrising
    rw [run, clockedStep_of_step hrising.1 hu, Option.bind_some]
    exact ih hrising.2 hrest

/-- The decision on the sample proposal is later than its version. -/
theorem decision_belongs_to_version_sample : ∃ (db : Db) (t : ℕ) (p : Proposal),
    Reaches (clockedStep sampleConfig) (fun s a => republishesDecided s.1 a = false) (Db.empty, 0)
      (db, t) ∧ db.proposals.get? 1 = some p ∧ p.status = .inProgress ∧
    ∀ d, proceedDecision db (some p) = some d → ∃ decidedAt current v,
      d.decidedAt = some decidedAt ∧ p.currentVersion = some current ∧
        db.versions.get? current = some v ∧ v.createdAt < decidedAt := by
  obtain ⟨draft, db, hdraft, hstatus, hdecided, hfacts⟩ := standalone_run
  obtain ⟨mid, hpublish, hrest⟩ := Option.bind_eq_some_iff.mp hdecided
  obtain ⟨db, hdecide, hnil⟩ := Option.bind_eq_some_iff.mp hrest
  cases hnil
  have hclocked := clocked_of_run (t := 0) draftedStandalone (by decide) hdraft
  have hfirst : Reaches (clockedStep sampleConfig) (fun s a => republishesDecided s.1 a = false)
      (Db.empty, 0) (draft, 500) :=
    reaches_of_run_where _ (by simp [draftedStandalone, republishesDecided]) hclocked
  -- The first version is published of a draft.
  have hok : republishesDecided draft
      (.publishProposalVersion 1000 1 7 (samplePublication 500 '1')) = false := by
    obtain ⟨p, hp, hpair⟩ := Option.map_eq_some_iff.mp hstatus
    rw [republishesDecided, hp, Option.any_some, (Prod.mk.inj hpair).1]
    decide
  have hreach := (hfirst.tail ⟨_, hok, clockedStep_of_step (by decide) hpublish⟩).tail
    ⟨_, rfl, clockedStep_of_step (by decide) hdecide⟩
  obtain ⟨p, hp, hpair⟩ := Option.map_eq_some_iff.mp hfacts.status
  exact ⟨db, _, p, hreach, hp, (Prod.mk.inj hpair).1, (decision_belongs_to_version hreach 1 p hp).2⟩

/-- An item of the inbox is about a proposal without a decision. -/
theorem undecided_of_mem_items (building pk : ℕ)
    (h : proposalDecisionItem pk ∈ proposalDecisionItems db building) :
    ∃ p, db.proposals.get? pk = some p ∧ p.decidedAt = none := by
  obtain ⟨⟨key, p⟩, hmem, hitem⟩ := List.mem_map.mp h
  have hkey : key = pk := congrArg ActionItem.targetId hitem
  have hselected := List.mem_of_mem_take hmem
  rw [List.mem_insertionSort, Table.mem_select] at hselected
  obtain ⟨hp, hfields⟩ := hselected
  simp only [Bool.and_eq_true, decide_eq_true_eq] at hfields
  rw [hkey] at hp
  exact ⟨p, hp, hfields.2⟩

/-- A further version of the decided proposal waits for a decision, shows the old one, which is
earlier than the version, and is not in the inbox. -/
theorem decision_on_older_version : ∃ (db : Db) (t : ℕ) (p : Proposal) (d : ProceedDecision)
    (current : ℕ) (v : ProposalVersion),
    Reaches (clockedStep sampleConfig) Always (Db.empty, 0) (db, t) ∧
    db.proposals.get? 1 = some p ∧ p.status = .published ∧
    (publishedIn db p.building).length ≤ 30 ∧
    proposalDecisionItem 1 ∉ proposalDecisionItems db p.building ∧
    proceedDecision db (some p) = some d ∧ d.decidedAt = some 3000 ∧
    p.currentVersion = some current ∧ db.versions.get? current = some v ∧ v.createdAt = 4000 := by
  obtain ⟨draft, db, hdraft, _, hdecided, hfacts⟩ := standalone_run
  obtain ⟨last, hpublish, hlast⟩ := (Option.any_eq_true _ _).mp hfacts.republished
  obtain ⟨hrow, hcount⟩ := of_decide_eq_true hlast
  obtain ⟨p, hp, hfields⟩ := (Option.any_eq_true _ _).mp hrow
  simp only [Bool.and_eq_true, decide_eq_true_eq] at hfields
  obtain ⟨⟨⟨hstatus, hby⟩, hat⟩, hversion⟩ := hfields
  obtain ⟨v, hv, hcreated⟩ := (Option.any_eq_true _ _).mp hversion
  obtain ⟨current, hcurrent, hget⟩ := Option.bind_eq_some_iff.mp hv
  obtain ⟨membership, hmembership⟩ := Option.isSome_iff_exists.mp hby
  have hfirst := reaches_of_run _ (clocked_of_run (t := 0) draftedStandalone (by decide) hdraft)
  have hsecond := reaches_of_run _ (clocked_of_run (t := 500) decidedStandalone (by decide) hdecided)
  have hreach := (hfirst.trans hsecond).tail
    ⟨_, trivial, clockedStep_of_step (by decide) hpublish⟩
  refine ⟨last, _, p, ⟨(last.memberships.get? membership).map (·.user), p.decidedAt⟩, current, v,
    hreach, hp, hstatus, ?_, fun hmem => ?_, ?_, hat, hcurrent, hget, of_decide_eq_true hcreated⟩
  · have hle : (publishedIn last p.building).length ≤ last.proposals.rows.length :=
      List.length_filter_le _ _
    omega
  · obtain ⟨q, hq, hnone⟩ := undecided_of_mem_items p.building 1 hmem
    cases hp.symm.trans hq
    rw [hat] at hnone
    cases hnone
  · rw [proceedDecision, hmembership]
    exact if_neg (by rw [hstatus]; decide)

end LamTo.Analysis
