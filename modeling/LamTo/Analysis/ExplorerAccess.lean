import LamTo.Analysis.ResidentDownloads

/-!
# The explorer and the residents

The public explorer shows the transfer of a settlement once the event of the settlement is settled,
and calls this the rule of the residents. The rule of the residents also asks for the event of the
current version of the proposal. The two events settle on their own, so the explorer is more open
than the residents' rule exactly where the settlement's event is settled before the version's
(`explorer_as_closed_iff`).

That the expense is published follows from the settlement, and that the hash of the route leads to
the transfer and not to a quotation from the kinds of the two.

SOURCE: src/lamto/explorer/views.py:244-276, 366-384, src/lamto/api/downloads.py:95-137
-/

set_option autoImplicit false

namespace LamTo.Analysis

open LamTo.Library LamTo.Model

variable {K : ArchiveConfig} {s : Archive}

/-- The settlement of a proposal. -/
def settlementOf (db : Db) (proposal : ℕ) : Option (ℕ × Settlement) :=
  db.settlements.first? fun t => t.proposal = proposal

/-- The page shows the transfer of the proposal, or the route serves it for some hash. -/
def ExposesTransfer (db : Db) (proposal version : ℕ) : Prop :=
  (settlementOf db proposal).map (fun t => t.2.transfer) = some version ∧
    (explorerShowsTransfer db proposal = true ∨
      ∃ sha256, explorerDocument db proposal sha256 = some version)

/-- The residents' rule for the transfer of a proposal. -/
structure ResidentsHave (s : Archive) (proposal : ℕ) (p : Proposal) (version : ℕ) : Prop where
  allowed : ∀ user, Occupies s.db user p.building → residentCanDownload s user version = true
  current : currentVersionSettled s.db p = true
  settlement : ∃ pk t, s.db.settlements.get? pk = some t ∧ t.proposal = proposal ∧
    t.transfer = version ∧ settlementSettled s.db t = true
  published : ∃ pk l, s.db.ledger.get? pk = some l ∧ l.proposal = proposal

/-- A settlement with both events settled is one the residents have. -/
theorem LinksInv.residentsHave (hinv : LinksInv s) (proposal : ℕ) (p : Proposal) (key : ℕ)
    (t : Settlement) (hp : s.db.proposals.get? proposal = some p)
    (ht : s.db.settlements.get? key = some t) (hproposal : t.proposal = proposal)
    (hsettled : settlementSettled s.db t = true) (hcurrent : currentVersionSettled s.db p = true) :
    ResidentsHave s proposal p t.transfer := by
  obtain ⟨pk, l, hl, hsettlement⟩ := hinv.published key t ht
  obtain ⟨t', ht', hsame⟩ := hinv.ledger pk l hl
  rw [hsettlement, ht] at ht'
  cases ht'
  have hentry : l.proposal = proposal := hsame.symm.trans hproposal
  refine ⟨fun user hoccupies => ?_, hcurrent, ⟨key, t, ht, hproposal, rfl, hsettled⟩, pk, l, hl, hentry⟩
  obtain ⟨q, hq, hdoc⟩ := hinv.transfer key t ht
  rw [hproposal, hp] at hq
  cases hq
  obtain ⟨v, d, hv, hd, hkind, _⟩ := hdoc
  have hmem : p.building ∈ occupiedBuildings s.db user := (mem_occupiedBuildings _ _ _).mpr hoccupies
  have hin : settledIn s.db (occupiedBuildings s.db user) t.transfer = true := by
    refine (Table.any_eq_true _ _).mpr ⟨pk, l, hl, ?_⟩
    rw [hentry, hp, hsettlement, ht]
    simp only [Option.any_some, hmem, hcurrent, hsettled, decide_true, Bool.and_self]
  have hne : occupiedBuildings s.db user ≠ [] := List.ne_nil_of_mem hmem
  rw [residentCanDownload, hv, Option.any_some, hd, Option.any_some, hkind]
  rw [if_neg (by decide), if_neg (by decide), if_neg (by decide)]
  dsimp only
  rw [if_neg hne, if_neg (by simp), hin]

/-- The route serves the transfer of a proposal only when the event of the settlement is settled:
a quotation is another document. -/
theorem LinksInv.settled_of_exposed (hinv : LinksInv s) (proposal version key : ℕ) (t : Settlement)
    (ht : settlementOf s.db proposal = some (key, t)) (h : ExposesTransfer s.db proposal version) :
    settlementSettled s.db t = true := by
  obtain ⟨hversion, hshown | ⟨sha256, hserved⟩⟩ := h
  · unfold explorerShowsTransfer at hshown
    unfold settlementOf at ht
    rw [ht, Option.any_some] at hshown
    exact hshown
  · rw [ht, Option.map_some] at hversion
    cases hversion
    unfold explorerDocument at hserved
    unfold settlementOf at ht
    dsimp only at hserved
    rw [ht] at hserved
    dsimp only at hserved
    split at hserved
    · next hboth => exact ((Bool.and_eq_true _ _).mp hboth).1
    · obtain ⟨⟨pk, v⟩, hfind, hpk⟩ := Option.map_eq_some_iff.mp hserved
      dsimp only at hpk
      have hlinked := List.find?_some hfind
      rw [Bool.and_eq_true] at hlinked
      obtain ⟨link, d, hd, hboth⟩ := (Table.any_eq_true _ _).mp hlinked.2
      rw [Bool.and_eq_true, decide_eq_true_eq] at hboth
      obtain ⟨_, q, _, _, hquotation⟩ := hinv.quotation link d hd
      obtain ⟨_, _, hproof⟩ := hinv.transfer key t (Table.first?_eq_some _ _ _ _ ht).1
      rw [hboth.1, hpk] at hquotation
      have hkinds := (hquotation.unique _ _ _ _ _ _ hproof).1
      cases hkinds

/-- **The explorer is as closed as the residents' rule** exactly when the current version's event
is settled whenever the settlement's is, in every archive the services reach. -/
theorem explorer_as_closed_iff (h : s.Reachable K) (proposal : ℕ) (p : Proposal)
    (hp : s.db.proposals.get? proposal = some p) :
    (∀ version, ExposesTransfer s.db proposal version → ResidentsHave s proposal p version) ↔
      ∀ key t, settlementOf s.db proposal = some (key, t) → settlementSettled s.db t = true →
        currentVersionSettled s.db p = true := by
  have hinv := LinksInv.reachable h
  constructor
  · intro hclosed key t ht hsettled
    have hexposed : ExposesTransfer s.db proposal t.transfer := by
      refine ⟨by rw [ht, Option.map_some], .inl ?_⟩
      unfold explorerShowsTransfer
      unfold settlementOf at ht
      rw [ht, Option.any_some]
      exact hsettled
    exact (hclosed t.transfer hexposed).current
  · intro hcondition version hexposed
    obtain ⟨⟨key, t⟩, ht, hversion⟩ := Option.map_eq_some_iff.mp hexposed.1
    dsimp only at hversion
    have hsettled := hinv.settled_of_exposed proposal version key t ht hexposed
    obtain ⟨hget, hproposal⟩ := Table.first?_eq_some _ _ _ _ ht
    rw [← hversion]
    exact hinv.residentsHave proposal p key t hp hget (of_decide_eq_true hproposal) hsettled
      (hcondition key t ht hsettled)

/-- The deliveries of the two events of `settledRun`: each worker's last write. -/
def deliveredRun (version settlement : Delivery) : List ArchiveAction :=
  settledRun ++ [.service (.deliver 1 version), .service (.deliver 2 settlement)]

/-- A row the worker confirmed from the record it found. -/
def confirmedDelivery (now : ℕ) : Delivery :=
  ((Delivery.fresh.claim now).markConfirmed now [] none 0).getD .fresh

/-- A row whose last attempt failed. -/
def retriedDelivery (now : ℕ) : Delivery :=
  (Delivery.fresh.claim now).markRetry now "rpc".toList

/-- With both events confirmed the resident has the transfer the explorer shows. -/
theorem explorer_as_closed_iff_sample : ∃ (s : Archive) (p : Proposal), s.Reachable sampleArchive ∧
    s.db.proposals.get? 1 = some p ∧ ExposesTransfer s.db 1 2 ∧ ResidentsHave s 1 p 2 := by
  obtain ⟨s, hreach, hproposal, htransfer, hshown, hcurrent⟩ := exists_of_run
    (Archive.step sampleArchive) Archive.empty
    (fun s => (s.db.proposals.get? 1).isSome = true ∧
      (settlementOf s.db 1).map (fun t => t.2.transfer) = some 2 ∧
      explorerShowsTransfer s.db 1 = true ∧
      (s.db.proposals.get? 1).all (currentVersionSettled s.db) = true)
    (deliveredRun (confirmedDelivery 2000) (confirmedDelivery 8000)) (by decide +kernel)
  obtain ⟨p, hp⟩ := Option.isSome_iff_exists.mp hproposal
  rw [hp, Option.all_some] at hcurrent
  have hexposed : ExposesTransfer s.db 1 2 := ⟨htransfer, .inl hshown⟩
  refine ⟨s, p, hreach, hp, hexposed, ?_⟩
  exact (explorer_as_closed_iff hreach 1 p hp).mpr (fun _ _ _ _ => hcurrent) 2 hexposed

/-- **The explorer shows a transfer the resident may not have**: the settlement's event is
confirmed, and the attempt to anchor the version's is still to be repeated. -/
theorem explorer_shows_unsettled_expense : ∃ (s : Archive) (p : Proposal),
    s.Reachable sampleArchive ∧ s.db.proposals.get? 1 = some p ∧ ExposesTransfer s.db 1 2 ∧
    Occupies s.db 8 p.building ∧ residentCanDownload s 8 2 = false := by
  obtain ⟨s, hreach, hproposal, htransfer, hshown, hoccupied, hrefused⟩ := exists_of_run
    (Archive.step sampleArchive) Archive.empty
    (fun s => (s.db.proposals.get? 1).isSome = true ∧
      (settlementOf s.db 1).map (fun t => t.2.transfer) = some 2 ∧
      explorerShowsTransfer s.db 1 = true ∧
      (s.db.proposals.get? 1).all (fun p => p.building ∈ occupiedBuildings s.db 8) = true ∧
      residentCanDownload s 8 2 = false)
    (deliveredRun (retriedDelivery 2000) (confirmedDelivery 8000)) (by decide +kernel)
  obtain ⟨p, hp⟩ := Option.isSome_iff_exists.mp hproposal
  rw [hp, Option.all_some, decide_eq_true_eq, mem_occupiedBuildings] at hoccupied
  exact ⟨s, p, hreach, hp, ⟨htransfer, .inl hshown⟩, hoccupied, hrefused⟩

end LamTo.Analysis
