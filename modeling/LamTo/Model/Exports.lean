import LamTo.Library.Csv
import LamTo.Model.ChainSteps
import LamTo.Model.Integrity
import LamTo.Model.Maintenance

/-!
# Exports for the auditor

The embedding of `web/views/exports.py` and of the choice of the management context in
`web/staff.py`. A request chooses the building it is for, the rows of one kind are read, the
export is recorded, and the file is streamed after the view has returned.

* A row holds the columns that are exported and the key of the row that names its building.
* Two of the kinds are lazy: their rows are read when the file is streamed, so the response is
  given the tables of that moment. The other three are read before the export is recorded.
* `int(text)`, `str` of a JSON value, and the database's order by the name of the building are
  parameters.
* The chooser page is its counts. The file's name and the headers of the response are left out.

SOURCE: src/lamto/web/views/exports.py, src/lamto/web/staff.py:12-51
-/

set_option autoImplicit false

namespace LamTo.Model

open LamTo.Library

/-! ## The tables -/

/-- `AuditEvent`. -/
structure AuditLine where
  createdAt : UtcTime
  actor : ℕ
  membership : Option ℕ
  action : Text
  targetType : Text
  targetId : Text
  result : Text

/-- `MaintenanceFundEntry`. -/
structure FundLine where
  fund : ℕ
  entryType : Text
  amountVnd : ℤ
  evidenceHash : Text
  recorder : Option ℕ
  sourceKey : Text
  recordedAt : UtcTime

/-- `DocumentVersion`. -/
structure VersionLine where
  document : ℕ
  version : ℕ
  filename : Text
  contentType : Text
  byteSize : ℕ
  sha256 : Text
  scanStatus : Text
  uploader : ℕ
  createdAt : UtcTime

/-- `BlockchainOutboxEvent`. -/
structure OutboxLine where
  building : ℕ
  eventId : Text
  eventType : ℕ
  payloadHash : Text
  status : Status
  transactionHash : Text
  chainConfirmedBlock : Option ℤ
  signerAddress : Text
  createdAt : UtcTime
  confirmedAt : Option UtcTime

/-- `VerificationObservation`. -/
structure ObservationLine where
  publishedEntry : ℕ
  result : Text
  details : Json
  observedAt : UtcTime

/-- `funds` and `published` give the building of a fund and of a published entry's proposal. -/
structure ExportTables where
  memberships : Table Membership
  documents : Table Document
  funds : Table ℕ
  published : Table ℕ
  audit : Table AuditLine
  entries : Table FundLine
  versions : Table VersionLine
  outbox : Table OutboxLine
  observations : Table ObservationLine

/-- What the code takes from Python and from the database. -/
structure ExportConfig where
  unicode : Unicode
  readInt : Text → Option ℤ
  strJson : Json → Text
  beforeByName : ℕ × Membership → ℕ × Membership → Bool

inductive ExportError where
  | permissionDenied (message : String)
deriving DecidableEq

/-! ## The management context -/

/-- `user_memberships` -/
def userMemberships (config : ExportConfig) (db : ExportTables) (user : ℕ) :
    List (ℕ × Membership) :=
  (db.memberships.select fun m => m.user = user && m.active).mergeSort config.beforeByName

/-- `resolve_active_management`: the selected membership, whose key is what the session then
holds. A building that is asked for is compared with the keys of the memberships. -/
def resolveActiveManagement (config : ExportConfig) (db : ExportTables) (user : ℕ)
    (building : Option Text) (session : Option ℕ) : Except ExportError (ℕ × Membership) :=
  match userMemberships config db user with
  | [] => .error (.permissionDenied "An active management membership is required.")
  | first :: rest =>
    let candidate : Option ℤ := match building with
      | some (c :: text) => config.readInt (c :: text)
      | _ => session.map Int.ofNat
    .ok ((candidate.bind fun cid => (first :: rest).find? fun m => (m.1 : ℤ) = cid).getD first)

/-! ## Cells -/

/-- A value of a row. -/
inductive Cell where
  | none
  | text (t : Text)
  | int (i : ℤ)
  | time (t : UtcTime)

namespace Cell

def nat (n : ℕ) : Cell := .int n

def optionalInt (value : Option ℤ) : Cell := (value.map .int).getD .none

end Cell

/-- `str(t)` of a UTC time with the separator ` `, `t.isoformat()` with `T`. -/
def timeText (separator : Char) (t : UtcTime) : Text :=
  t.date.isoformat ++ separator :: Date.zeroFilled 2 t.hour ++ ':' :: Date.zeroFilled 2 t.minute
    ++ ':' :: Date.zeroFilled 2 t.second
    ++ (if t.microsecond = 0 then [] else '.' :: Date.zeroFilled 6 t.microsecond)
    ++ "+00:00".toList

def isoTime (t : UtcTime) : Cell := .text (timeText 'T' t)

/-- `str(value)`, `None` apart -/
def Cell.str : Cell → Text
  | .none => []
  | .text t => t
  | .int i => Json.renderInt i
  | .time t => timeText ' ' t

/-- `FORMULA_PREFIXES` -/
def formulaPrefixes : List Char := ['=', '+', '-', '@', '\t', '\r']

/-- `neutralize_cell` -/
def neutralizeCell (value : Cell) : Text :=
  match value.str with
  | [] => []
  | c :: text => if formulaPrefixes.contains c then Char.ofNat 39 :: c :: text else c :: text

/-- The `excel` dialect. -/
def excel : CsvFormat Char where
  delimiter := ','
  quote := '"'
  cr := '\r'
  lf := '\n'
  quote_ne_delimiter := by decide
  cr_ne_delimiter := by decide
  lf_ne_delimiter := by decide
  cr_ne_quote := by decide
  lf_ne_quote := by decide
  lf_ne_cr := by decide

/-- `_csv_stream`, its parts joined -/
def csvStream (header : List String) (rows : List (List Cell)) : Text :=
  excel.writeRow (header.map fun c => neutralizeCell (.text c.toList)) ++
    rows.flatMap fun row => excel.writeRow (row.map neutralizeCell)

/-! ## The rows of a kind -/

inductive ExportKind where
  | auditEvents
  | fundEntries
  | documents
  | outbox
  | observations
deriving DecidableEq

def ExportKind.name : ExportKind → Text
  | .auditEvents => "audit_events".toList
  | .fundEntries => "fund_entries".toList
  | .documents => "documents".toList
  | .outbox => "outbox".toList
  | .observations => "observations".toList

namespace ExportTables

/-- `membership__building_id=building_id` -/
def auditOf (db : ExportTables) (building : ℕ) : List (ℕ × AuditLine) :=
  db.audit.select fun event => event.membership.any fun pk =>
    (db.memberships.get? pk).any fun m => m.building = building

/-- `fund__building_id=building_id` -/
def entriesOf (db : ExportTables) (building : ℕ) : List (ℕ × FundLine) :=
  db.entries.select fun entry => db.funds.get? entry.fund = some building

/-- `document__building_id=building_id` -/
def versionsOf (db : ExportTables) (building : ℕ) : List (ℕ × VersionLine) :=
  db.versions.select fun version =>
    (db.documents.get? version.document).any fun d => d.building = building

def outboxOf (db : ExportTables) (building : ℕ) : List (ℕ × OutboxLine) :=
  db.outbox.select fun event => event.building = building

/-- `published_entry__proposal__building_id=building_id` -/
def observationsOf (db : ExportTables) (building : ℕ) : List (ℕ × ObservationLine) :=
  db.observations.select fun obs => db.published.get? obs.publishedEntry = some building

end ExportTables

/-- `_audit_event_rows` -/
def auditEventRows (db : ExportTables) (building : ℕ) : List (List Cell) :=
  (db.auditOf building).map fun (pk, event) =>
    [.nat pk, .time event.createdAt, .nat event.actor, .optionalInt (event.membership.map Int.ofNat),
      .text event.action, .text event.targetType, .text event.targetId, .text event.result]

/-- `_fund_entry_rows` -/
def fundEntryRows (db : ExportTables) (building : ℕ) : List (List Cell) :=
  (db.entriesOf building).map fun (pk, entry) =>
    [.nat pk, .text entry.entryType, .int entry.amountVnd, .text entry.evidenceHash,
      .optionalInt (entry.recorder.map Int.ofNat), .text entry.sourceKey, isoTime entry.recordedAt]

/-- `_document_rows` -/
def documentRows (db : ExportTables) (building : ℕ) : List (List Cell) :=
  (db.versionsOf building).map fun (pk, version) =>
    [.nat pk, .nat version.document, .nat version.version, .text version.filename,
      .text version.contentType, .nat version.byteSize, .text version.sha256,
      .text version.scanStatus, .nat version.uploader, .time version.createdAt]

/-- The value of an evidence level. -/
def EvidenceLevel.name : EvidenceLevel → Text
  | .chainConfirmed => "CHAIN_CONFIRMED".toList
  | .localSigned => "LOCAL_SIGNED".toList
  | .pending => "PENDING".toList
  | .mismatch => "MISMATCH".toList

/-- `_outbox_rows` -/
def outboxRows (db : ExportTables) (building : ℕ) : List (List Cell) :=
  (db.outboxOf building).map fun (pk, event) =>
    [.nat pk, .text event.eventId, .nat event.eventType, .text event.payloadHash,
      .text event.status.code, .text event.status.evidenceLevel.name, .text event.transactionHash,
      .optionalInt event.chainConfirmedBlock, .text event.signerAddress, isoTime event.createdAt,
      (event.confirmedAt.map isoTime).getD (.text [])]

/-- `_observation_rows` -/
def observationRows (config : ExportConfig) (db : ExportTables) (building : ℕ) :
    List (List Cell) :=
  (db.observationsOf building).map fun (pk, obs) =>
    [.nat pk, .nat obs.publishedEntry, .text obs.result,
      .text (if truthy obs.details then config.strJson obs.details else []),
      isoTime obs.observedAt]

def auditEventHeader : List String :=
  ["id", "created_at", "actor_id", "membership_id", "action", "target_type", "target_id", "result"]

def fundEntryHeader : List String :=
  ["id", "entry_type", "amount_vnd", "evidence_hash", "recorder_membership_id", "source_key",
    "recorded_at"]

def documentHeader : List String :=
  ["id", "document_id", "version", "filename", "content_type", "byte_size", "sha256",
    "scan_status", "uploader_id", "created_at"]

def outboxHeader : List String :=
  ["id", "event_id", "event_type", "payload_hash", "status", "evidence_level", "transaction_hash",
    "chain_confirmed_block", "signer_address", "created_at", "confirmed_at"]

def observationHeader : List String :=
  ["id", "published_entry_id", "result", "details", "observed_at"]

/-- `_kind_counts` -/
def kindCounts (db : ExportTables) (building : ℕ) : List (Text × ℕ) :=
  [("audit_events".toList, (db.auditOf building).length),
    ("fund_entries".toList, (db.entriesOf building).length),
    ("documents".toList, (db.versionsOf building).length),
    ("outbox".toList, (db.outboxOf building).length)]

/-! ## The view -/

/-- The header, and the rows given the tables at the time of streaming. -/
structure ExportResponse where
  header : List String
  rows : ExportTables → List (List Cell)

/-- The file of a response that is streamed from the tables `db`. -/
def ExportResponse.file (response : ExportResponse) (db : ExportTables) : Text :=
  csvStream response.header (response.rows db)

/-- `record_audit` under the selected membership. SOURCE: audit/services.py:28-40 -/
def recordExport (db : ExportTables) (user membership : ℕ) (kind : Text) (result : String)
    (now : UtcTime) : Except ExportError ExportTables :=
  if (db.memberships.get? membership).any fun m => m.user = user && m.active then
    let event := ⟨now, user, some membership, "audit.export".toList, "Export".toList, kind,
      result.toList⟩
    .ok { db with audit := db.audit.insert event }
  else .error (.permissionDenied "Audit membership attribution is invalid.")

/-- The kind a request asks for; what is not a kind asks for the audit events. -/
def requestedKind (config : ExportConfig) (kind : Option Text) : ExportKind :=
  let asked := strip config.unicode ((kind.filter fun t => t ≠ []).getD "audit_events".toList)
  (([.fundEntries, .documents, .outbox, .observations] : List ExportKind).find? fun k =>
    k.name = asked).getD .auditEvents

/-- The header and the rows of a kind; audit events and documents are read with the file. -/
def exportRows (config : ExportConfig) (db : ExportTables) (building : ℕ) :
    ExportKind → ExportResponse
  | .auditEvents => ⟨auditEventHeader, fun later => auditEventRows later building⟩
  | .fundEntries => ⟨fundEntryHeader, fun _ => fundEntryRows db building⟩
  | .documents => ⟨documentHeader, fun later => documentRows later building⟩
  | .outbox => ⟨outboxHeader, fun _ => outboxRows db building⟩
  | .observations => ⟨observationHeader, fun _ => observationRows config db building⟩

/-- `audit_export` after the context was chosen: the tables it leaves, and the response. A
refusal is recorded too, where that is accepted. -/
def auditExport (config : ExportConfig) (db : ExportTables) (user : ℕ)
    (context : ℕ × Membership) (asked : Option Text) (now : UtcTime) :
    ExportTables × Except ExportError ExportResponse :=
  let kind := requestedKind config asked
  let response := exportRows config db context.2.building kind
  match recordExport db user context.1 kind.name "accepted" now with
  | .ok db => (db, .ok response)
  | .error error =>
    match recordExport db user context.1 kind.name "denied" now with
    | .ok db => (db, .error error)
    | .error _ => (db, .error error)

end LamTo.Model
