import LamTo.Analysis.QueuedEvidence
import LamTo.Model.Exports

/-!
# What an exported file holds

An export is read in three states of the tables: one when the management context is chosen, one
when the export is recorded, and for the audit events and the documents one more when the file
is streamed. Whatever happens between them, the file reads back as a header and a row for each
row of the chosen building in key order, and no cell of it is a formula to a spreadsheet.

* `select_keys`: the keys of a selection are its rows' keys in order.
* `row_shape`: every row of a kind has the columns of its header, its key first.
* `export_reads_back` is the result about an accepted export.

SOURCE: src/lamto/web/views/exports.py:37-58, 99-160, 163-330
-/

set_option autoImplicit false

namespace LamTo.Analysis

open LamTo.Library LamTo.Model

/-! ## Cells -/

/-- A text that a spreadsheet does not take for a formula. -/
def NotFormula (cell : Text) : Prop := ∀ c ∈ cell.head?, c ∉ formulaPrefixes

theorem neutralizeCell_notFormula (value : Cell) : NotFormula (neutralizeCell value) := by
  intro c hc
  unfold neutralizeCell at hc
  split at hc
  · cases hc
  · rename_i d text hstr
    split at hc
    · obtain rfl := Option.some.inj hc
      decide
    · rename_i hstart
      obtain rfl := Option.some.inj hc
      exact fun hmem => hstart (List.contains_iff_mem.mpr hmem)

/-- The keys of the file are written as they are. -/
theorem neutralizeCell_nat (n : ℕ) : neutralizeCell (.nat n) = Nat.toDigits 10 n := by
  have hdigit : ∀ c ∈ Nat.toDigits 10 n, c ∉ formulaPrefixes := by
    intro c hc hstart
    have : c.isDigit = true := Nat.isDigit_of_mem_toDigits (by decide) (by decide) hc
    revert hstart
    simp only [formulaPrefixes, List.mem_cons, List.not_mem_nil, or_false]
    rintro (rfl | rfl | rfl | rfl | rfl | rfl) <;> cases this
  have hstr : (Cell.nat n).str = Nat.toDigits 10 n := rfl
  rw [neutralizeCell, hstr]
  cases hdigits : Nat.toDigits 10 n with
  | nil => rfl
  | cons c text =>
    have hc := hdigit c (hdigits ▸ List.mem_cons_self)
    have hcontains : formulaPrefixes.contains c = false := by
      rw [Bool.eq_false_iff]
      exact fun h => hc (List.contains_iff_mem.mp h)
    simp only [hcontains, Bool.false_eq_true, if_false]

theorem csvStream_eq (header : List String) (rows : List (List Cell)) :
    csvStream header rows = excel.writeRows
      ((header.map fun c => neutralizeCell (.text c.toList)) ::
        rows.map fun row => row.map neutralizeCell) := by
  rw [csvStream, CsvFormat.writeRows, List.flatMap_cons, List.flatMap_map]

/-! ## The rows of a building -/

/-- The keys of a selection stand in order and are those of the rows that were selected. -/
theorem select_keys {α : Type} (t : Table α) (p : α → Bool) :
    ((t.select p).map Prod.fst).Pairwise (· < ·) ∧
      ∀ pk, pk ∈ (t.select p).map Prod.fst ↔ ∃ a, t.get? pk = some a ∧ p a = true := by
  refine ⟨List.pairwise_map.mpr (t.ordered.filter _), fun pk => ?_⟩
  constructor
  · intro h
    obtain ⟨⟨key, a⟩, hmem, rfl⟩ := List.mem_map.mp h
    obtain ⟨hrow, hp⟩ := (t.mem_select p key a).mp hmem
    exact ⟨a, hrow, hp⟩
  · rintro ⟨a, hget, hp⟩
    exact List.mem_map.mpr
      ⟨(pk, a), (t.mem_select p pk a).mpr ⟨hget, hp⟩, rfl⟩

/-- The rows of a kind that belong to a building, by their keys. -/
def BelongsTo (db : ExportTables) (building : ℕ) : ExportKind → ℕ → Prop
  | .auditEvents, pk => ∃ event, db.audit.get? pk = some event ∧ ∃ key, event.membership = some key ∧
      ∃ m, db.memberships.get? key = some m ∧ m.building = building
  | .fundEntries, pk => ∃ entry, db.entries.get? pk = some entry ∧
      db.funds.get? entry.fund = some building
  | .documents, pk => ∃ version, db.versions.get? pk = some version ∧
      ∃ d, db.documents.get? version.document = some d ∧ d.building = building
  | .outbox, pk => ∃ event, db.outbox.get? pk = some event ∧ event.building = building
  | .observations, pk => ∃ obs, db.observations.get? pk = some obs ∧
      db.published.get? obs.publishedEntry = some building

/-- The keys of the rows a kind is exported with. -/
def exportedKeys (db : ExportTables) (building : ℕ) : ExportKind → List ℕ
  | .auditEvents => (db.auditOf building).map Prod.fst
  | .fundEntries => (db.entriesOf building).map Prod.fst
  | .documents => (db.versionsOf building).map Prod.fst
  | .outbox => (db.outboxOf building).map Prod.fst
  | .observations => (db.observationsOf building).map Prod.fst

theorem exportedKeys_ordered (db : ExportTables) (building : ℕ) (kind : ExportKind) :
    (exportedKeys db building kind).Pairwise (· < ·) := by
  cases kind <;> exact (select_keys _ _).1

theorem mem_exportedKeys (db : ExportTables) (building : ℕ) (kind : ExportKind) (pk : ℕ) :
    pk ∈ exportedKeys db building kind ↔ BelongsTo db building kind pk := by
  cases kind with
  | auditEvents =>
    simp only [exportedKeys, BelongsTo, ExportTables.auditOf, (select_keys _ _).2,
      Option.any_eq_true, decide_eq_true_eq]
  | fundEntries =>
    simp only [exportedKeys, BelongsTo, ExportTables.entriesOf, (select_keys _ _).2,
      decide_eq_true_eq]
  | documents =>
    simp only [exportedKeys, BelongsTo, ExportTables.versionsOf, (select_keys _ _).2,
      Option.any_eq_true, decide_eq_true_eq]
  | outbox =>
    simp only [exportedKeys, BelongsTo, ExportTables.outboxOf, (select_keys _ _).2,
      decide_eq_true_eq]
  | observations =>
    simp only [exportedKeys, BelongsTo, ExportTables.observationsOf, (select_keys _ _).2,
      decide_eq_true_eq]

/-- The tables the rows of a kind are read from: the recorded state, or the streamed one. -/
def readFrom (recorded streamed : ExportTables) : ExportKind → ExportTables
  | .auditEvents => streamed
  | .documents => streamed
  | _ => recorded

/-- A row of the file, its key first and a cell under each column. -/
def RowOf (header : List String) (row : List Cell) (pk : ℕ) : Prop :=
  row.length = header.length ∧ row.head? = some (.nat pk)

/-- Every row of a kind has the columns of its header, its key first. -/
theorem row_shape (config : ExportConfig) (recorded streamed : ExportTables) (building : ℕ)
    (kind : ExportKind) :
    List.Forall₂ (RowOf (exportRows config recorded building kind).header)
      ((exportRows config recorded building kind).rows streamed)
      (exportedKeys (readFrom recorded streamed kind) building kind) := by
  cases kind <;>
    exact List.forall₂_map_left_iff.mpr (List.forall₂_map_right_iff.mpr
      (List.forall₂_same.mpr fun _ _ => ⟨rfl, rfl⟩))

/-! ## An accepted export -/

/-- The selected membership is an active one of the user. -/
theorem of_resolveActiveManagement (config : ExportConfig) (db : ExportTables) (user : ℕ)
    (building : Option Text) (session : Option ℕ) (context : ℕ × Membership)
    (h : resolveActiveManagement config db user building session = .ok context) :
    db.memberships.get? context.1 = some context.2 ∧ context.2.user = user ∧
      context.2.active = true := by
  have hmem : context ∈ userMemberships config db user := by
    unfold resolveActiveManagement at h
    split at h
    · cases h
    · rename_i first rest hlist
      obtain rfl := Except.ok.inj h
      rw [hlist]
      cases hfound : Option.bind _ _ with
      | none => exact List.mem_cons_self
      | some found =>
        obtain ⟨cid, _, hfind⟩ := Option.bind_eq_some_iff.mp hfound
        exact List.mem_of_find?_eq_some hfind
  obtain ⟨hget, hown⟩ := (db.memberships.mem_select _ context.1 context.2).mp
    (List.mem_mergeSort.mp hmem)
  rw [Bool.and_eq_true, decide_eq_true_eq] at hown
  exact ⟨hget, hown.1, hown.2⟩

/-- What an accepted export is: its rows, and one more audit event. -/
theorem of_auditExport (config : ExportConfig) (db db' : ExportTables) (user : ℕ)
    (context : ℕ × Membership) (asked : Option Text) (now : UtcTime) (response : ExportResponse)
    (h : auditExport config db user context asked now = (db', .ok response)) :
    response = exportRows config db context.2.building (requestedKind config asked) ∧
      ((db.memberships.get? context.1).any fun m => m.user = user && m.active) = true := by
  simp only [auditExport] at h
  split at h
  · rename_i recorded hrecord
    obtain ⟨-, hresponse⟩ := Prod.mk.inj h
    unfold recordExport at hrecord
    split at hrecord
    · exact ⟨(Except.ok.inj hresponse).symm, by assumption⟩
    · cases hrecord
  · split at h
    · cases (Prod.mk.inj h).2
    · cases (Prod.mk.inj h).2

theorem headers_plain :
    ∀ header ∈ [auditEventHeader, fundEntryHeader, documentHeader, outboxHeader, observationHeader],
      (header.map fun c => neutralizeCell (.text c.toList)) = header.map String.toList := by
  decide +kernel

/-- The header cells are written as they are. -/
theorem header_neutralized (config : ExportConfig) (db : ExportTables) (building : ℕ)
    (kind : ExportKind) :
    ((exportRows config db building kind).header.map fun c => neutralizeCell (.text c.toList)) =
      (exportRows config db building kind).header.map String.toList := by
  apply headers_plain
  cases kind <;> simp only [exportRows, List.mem_cons, true_or, or_true]

theorem exportedKeys_counted (db : ExportTables) (building : ℕ) (kind : ExportKind)
    (h : kind ≠ .observations) :
    (kind.name, (exportedKeys db building kind).length) ∈ kindCounts db building := by
  unfold exportedKeys kindCounts
  cases kind with
  | auditEvents =>
    rw [List.length_map]
    exact List.mem_cons_self
  | fundEntries =>
    rw [List.length_map]
    exact List.mem_cons_of_mem _ List.mem_cons_self
  | documents =>
    rw [List.length_map]
    exact List.mem_cons_of_mem _ (List.mem_cons_of_mem _ List.mem_cons_self)
  | outbox =>
    rw [List.length_map]
    exact List.mem_cons_of_mem _ (List.mem_cons_of_mem _ (List.mem_cons_of_mem _
      List.mem_cons_self))
  | observations => exact absurd rfl h

/-- **An exported file reads back as the rows of one building.** The tables may change between
the choice of the building, the export and the streaming in any way. The building is one the
user manages; the file is the header and one row for each row of the building, in key order and
under the columns of the header, as many as the chooser page counts; and no cell is a formula. -/
theorem export_reads_back (config : ExportConfig) (chosen db db' streamed : ExportTables)
    (user : ℕ) (building : Option Text) (session : Option ℕ) (context : ℕ × Membership)
    (asked : Option Text) (now : UtcTime) (response : ExportResponse)
    (hcontext : resolveActiveManagement config chosen user building session = .ok context)
    (hexport : auditExport config db user context asked now = (db', .ok response)) :
    (∃ m, chosen.memberships.get? context.1 = some m ∧ m.user = user ∧ m.active = true ∧
      m.building = context.2.building) ∧
    ∃ (table : List (List Text)) (keys : List ℕ), excel.readRows (response.file streamed) =
        some (response.header.map String.toList :: table) ∧
      table = (response.rows streamed).map (fun row => row.map neutralizeCell) ∧
      (∀ row ∈ table, row.length = response.header.length ∧ ∀ cell ∈ row, NotFormula cell) ∧
      table.map List.head? = keys.map (fun pk => some (Nat.toDigits 10 pk)) ∧
      keys.Pairwise (· < ·) ∧
      (∀ pk, pk ∈ keys ↔ BelongsTo (readFrom db streamed (requestedKind config asked))
        context.2.building (requestedKind config asked) pk) ∧
      (requestedKind config asked ≠ .observations →
        ((requestedKind config asked).name, table.length) ∈
          kindCounts (readFrom db streamed (requestedKind config asked)) context.2.building) := by
  obtain ⟨hget, huser, hactive⟩ := of_resolveActiveManagement config chosen user building session
    context hcontext
  obtain ⟨rfl, -⟩ := of_auditExport config db db' user context asked now response hexport
  generalize requestedKind config asked = kind
  obtain ⟨hcolumns, hkeys⟩ := (List.forall₂_and_left _ _).mp
    (row_shape config db streamed context.2.building kind)
  refine ⟨⟨context.2, hget, huser, hactive, rfl⟩, _,
    exportedKeys (readFrom db streamed kind) context.2.building kind, ?_, rfl, ?_, ?_,
    exportedKeys_ordered _ _ _, mem_exportedKeys _ _ _, fun hkind => ?_⟩
  · rw [ExportResponse.file, csvStream_eq, CsvFormat.readRows_writeRows, header_neutralized]
  · intro row hrow
    obtain ⟨cells, hcells, rfl⟩ := List.mem_map.mp hrow
    refine ⟨(List.length_map _).trans (hcolumns cells hcells), fun cell hcell => ?_⟩
    obtain ⟨value, _, rfl⟩ := List.mem_map.mp hcell
    exact neutralizeCell_notFormula value
  · have hheads : List.Forall₂ (fun row pk =>
        (List.map neutralizeCell row).head? = some (Nat.toDigits 10 pk)) _ _ :=
      hkeys.imp fun row pk hrow => by
        rw [List.head?_map, hrow, Option.map_some, neutralizeCell_nat]
    rw [List.map_map, ← List.forall₂_eq_eq_eq]
    exact List.forall₂_map_left_iff.mpr (List.forall₂_map_right_iff.mpr hheads)
  · rw [List.length_map, hkeys.length_eq]
    exact exportedKeys_counted _ _ kind hkind

def sampleExportConfig : ExportConfig where
  unicode := asciiUnicode
  readInt := fun _ => none
  strJson := Json.render
  beforeByName := fun a b => a.1 ≤ b.1

/-- A manager of building 7, and an audit event whose target is a formula. -/
def sampleExport : ExportTables where
  memberships := Table.empty.insert ⟨3, 7, true⟩
  documents := Table.empty
  funds := Table.empty
  published := Table.empty
  audit := Table.empty.insert ⟨⟨⟨2026, 3, 1, by decide⟩, 8, 30, 0, 5, by decide⟩, 3, some 1,
    "case.open".toList, "Case".toList, "=1+1".toList, "accepted".toList⟩
  entries := Table.empty
  versions := Table.empty
  outbox := Table.empty
  observations := Table.empty

theorem export_reads_back_formula :
    ∃ table, excel.readRows ((exportRows sampleExportConfig sampleExport 7 .auditEvents).file
        sampleExport) = some (auditEventHeader.map String.toList :: table) ∧
      ∀ row ∈ table, ∀ cell ∈ row, NotFormula cell := by
  have hcontext : resolveActiveManagement sampleExportConfig sampleExport 3 none none =
      .ok (1, ⟨3, 7, true⟩) := by
    have hsort : userMemberships sampleExportConfig sampleExport 3 = [(1, ⟨3, 7, true⟩)] :=
      List.mergeSort_singleton _
    simp only [resolveActiveManagement, hsort, Option.map_none, Option.bind_none,
      Option.getD_none]
  have hexport : auditExport sampleExportConfig sampleExport 3 (1, ⟨3, 7, true⟩) none
      ⟨⟨2026, 3, 1, by decide⟩, 8, 31, 0, 0, by decide⟩ = (_, .ok
        (exportRows sampleExportConfig sampleExport 7 .auditEvents)) := rfl
  obtain ⟨_, table, _, hread, _, hcells, _⟩ := export_reads_back sampleExportConfig sampleExport
    sampleExport _ sampleExport 3 none none (1, ⟨3, 7, true⟩) none _ _ hcontext hexport
  exact ⟨table, hread, fun row hrow => (hcells row hrow).2⟩

end LamTo.Analysis
