import LamTo.Library.Transition
import LamTo.Library.Versions
import LamTo.Model.Maintenance
import LamTo.Model.Uploads

/-!
# Reports and their photos, submitted more than once

Any number of calls of `submit_report_idempotent` and of `attach_report_photo` run beside each
other, each in its own transaction. A step is a statement, or a group of statements that only read
what the call has locked: the first look at the table, the checks under the lock of the unit, the
insertion, the end of the transaction, the look after a failed insertion. Between two steps
occupancies, locations and documents may change, and the connection of a call may break.

A unique constraint makes an insertion wait for a row that is not committed, and fail on one that
is; an integrity error outside a savepoint ends the transaction. The triage job, the audit trail
and the receipt of a new report are left out: nothing reads them here.

SOURCE: src/lamto/maintenance/reporting.py, maintenance/models.py:128-163
-/

set_option autoImplicit false

namespace LamTo.Model

open LamTo.Library

/-! ## Reports -/

structure Place where
  building : ℕ
  name : Text
  active : Bool
  parent : Option ℕ
deriving DecidableEq

/-- `IssueReport`, as far as its submission writes it. -/
structure StoredReport where
  reporter : ℕ
  unit : ℕ
  building : ℕ
  text : Text
  location : ℕ
  locationPath : Text
  clientRef : Option ℕ
  isPrivate : Bool
deriving DecidableEq

structure SubmitRequest where
  resident : ℕ
  unit : Option ℕ
  text : Text
  location : Option ℕ
  photos : List ℕ
  clientRef : ℕ
  isPrivate : Bool
deriving DecidableEq

/-- What the checks read: the building of a unit, the name of a building, who lives where, the
locations, and which photo versions a resident may attach in a building. -/
structure Premises where
  unitBuilding : Table ℕ
  buildingName : ℕ → Text
  occupies : ℕ → ℕ → Bool
  places : Table Place
  attachable : ℕ → ℕ → ℕ → Bool

/-- The content of a document version never changes; `photoSha` is its digest. -/
structure SubmitConfig where
  unicode : Unicode
  photoSha : ℕ → Text

inductive SubmitError where
  | validation (message : Text)
  | permissionDenied (message : Text)
  | integrity
  | database
  | connection
deriving DecidableEq

/-- `_content_matches`. SOURCE: reporting.py:114-120 -/
def contentMatches (K : SubmitConfig) (existing : StoredReport) (request : SubmitRequest) : Bool :=
  existing.text = strip K.unicode request.text && some existing.unit = request.unit &&
    some existing.location = request.location && existing.isPrivate = request.isPrivate

def hierarchyMessage : Text :=
  "Report location hierarchy must be active and belong to the unit building.".toList

/-- The names from a location up to its root; `fuel` is the number of rows not yet seen, so that a
location met without fuel was seen before. SOURCE: reporting.py:36-54 -/
def pathNames (places : Table Place) (building : ℕ) :
    ℕ → List ℕ → ℕ → Except SubmitError (List Text)
  | fuel, seen, pk =>
    match places.get? pk with
    | none => .error (.validation "Report location hierarchy is invalid.".toList)
    | some place =>
      if seen.contains pk || !place.active || place.building ≠ building then
        .error (.validation hierarchyMessage)
      else match fuel, place.parent with
        | _, none => .ok [place.name]
        | 0, some _ => .error (.validation hierarchyMessage)
        | fuel + 1, some parent =>
          (pathNames places building fuel (pk :: seen) parent).map fun names => place.name :: names

/-- `" / ".join` -/
def joinPath : List Text → Text
  | [] => []
  | [name] => name
  | name :: rest => name ++ " / ".toList ++ joinPath rest

/-- The checks of `submit_report` and its row. SOURCE: reporting.py:21-87 -/
def reportRow (K : SubmitConfig) (w : Premises) (request : SubmitRequest) :
    Except SubmitError StoredReport := do
  let unit ← orRaise request.unit (SubmitError.validation "Report unit is required.".toList)
  let building ← orRaise (w.unitBuilding.get? unit)
    (SubmitError.validation "Report unit is required.".toList)
  require (w.occupies request.resident unit = true)
    (SubmitError.permissionDenied "Active occupancy is required to submit a report.".toList)
  let text := strip K.unicode request.text
  require (text ≠ []) (SubmitError.validation "Report text is required.".toList)
  let location ← orRaise request.location
    (SubmitError.validation "Report location is required.".toList)
  require ((w.places.get? location).isSome = true)
    (SubmitError.validation "Report location is required.".toList)
  let names ← pathNames w.places building w.places.rows.length [] location
  require request.photos.Nodup
    (SubmitError.validation "A photo version can only be attached once.".toList)
  require (request.photos.all (w.attachable request.resident building) = true)
    (SubmitError.validation
      "Report photos must be owned, clean original photos in the unit building.".toList)
  let path := joinPath (w.buildingName building :: names.reverse)
  require (text.contains nul = false ∧ path.contains nul = false ∧ path.length ≤ 1000)
    SubmitError.database
  return {
    reporter := request.resident, unit, building, text, location, locationPath := path,
    clientRef := some request.clientRef, isPrivate := request.isPrivate }

inductive SubmitResult where
  | returned (report : ℕ) (created : Bool)
  | conflict
  | failed (error : SubmitError)
deriving DecidableEq

/-- How far a call is. It holds its unit from the checks to the end of its transaction. -/
inductive SubmitPhase where
  | idle
  | checking (request : SubmitRequest)
  | validated (request : SubmitRequest) (row : StoredReport)
  | inserted (request : SubmitRequest) (report : ℕ)
  | recovering (request : SubmitRequest)
  | finished (request : SubmitRequest) (result : SubmitResult)
deriving DecidableEq

structure SubmitState (C : Type) where
  premises : Premises
  reports : Versions C StoredReport
  unitHolder : ℕ → Option C
  phase : C → SubmitPhase

inductive SubmitAction (C : Type) where
  | setPremises (premises : Premises)
  | other (row : StoredReport)
  | begin (c : C) (request : SubmitRequest)
  | check (c : C)
  | insert (c : C)
  | finish (c : C)
  | recover (c : C)
  | disconnect (c : C)

namespace SubmitState

variable {C : Type} [DecidableEq C]

def empty (premises : Premises) : SubmitState C where
  premises := premises
  reports := .empty
  unitHolder _ := none
  phase _ := .idle

def setPhase (s : SubmitState C) (c : C) (phase : SubmitPhase) : SubmitState C :=
  { s with phase := Function.update s.phase c phase }

@[simp] theorem phase_setPhase_self (s : SubmitState C) (c : C) (phase : SubmitPhase) :
    (s.setPhase c phase).phase c = phase := Function.update_self _ _ _

/-- The rows of the constraint `report_client_ref_once`. -/
def sameRef (resident clientRef : ℕ) (row : StoredReport) : Bool :=
  row.reporter = resident && row.clientRef = some clientRef

/-- The transaction of a call is over: its unit is free. -/
def release (s : SubmitState C) (c : C) : SubmitState C :=
  { s with unitHolder := fun unit => (s.unitHolder unit).filter (· ≠ c) }

/-- The transaction of a call is rolled back. -/
def rollback (s : SubmitState C) (c : C) : SubmitState C :=
  { s.release c with reports := s.reports.rollback c }

/-- What a look at the table answers when it finds a report. -/
def answer (K : SubmitConfig) (request : SubmitRequest) (found : ℕ × StoredReport) : SubmitResult :=
  if contentMatches K found.2 request then .returned found.1 false else .conflict

def lookFor (s : SubmitState C) (request : SubmitRequest) : Option (ℕ × StoredReport) :=
  s.reports.committed.first? (sameRef request.resident request.clientRef)

/-- The first look at the table. SOURCE: reporting.py:125-129 -/
def begin (K : SubmitConfig) (s : SubmitState C) (c : C) (request : SubmitRequest) :
    Option (SubmitState C) :=
  match s.phase c with
  | .idle =>
    match s.lookFor request with
    | some found => some (s.setPhase c (.finished request (answer K request found)))
    | none => some (s.setPhase c (.checking request))
  | _ => none

/-- The checks, under the lock of the unit. SOURCE: reporting.py:20-76 -/
def check (K : SubmitConfig) (s : SubmitState C) (c : C) : Option (SubmitState C) :=
  match s.phase c with
  | .checking request =>
    if request.unit.any fun unit => (s.unitHolder unit).isSome then none
    else match reportRow K s.premises request with
      | .error e => some (s.setPhase c (.finished request (.failed e)))
      | .ok row => some ({ s with
          unitHolder := Function.update s.unitHolder row.unit (some c) }.setPhase c
            (.validated request row))
  | _ => none

/-- The insertion of the row. SOURCE: reporting.py:78-87, models.py:128-134 -/
def insert (s : SubmitState C) (c : C) : Option (SubmitState C) :=
  match s.phase c with
  | .validated request row =>
    let same := sameRef request.resident request.clientRef
    if s.reports.awaits c same then none
    else if (s.reports.view c).any same then
      some ((s.rollback c).setPhase c (.recovering request))
    else some ({ s with reports := s.reports.insert c row }.setPhase c
      (.inserted request s.reports.committed.next))
  | _ => none

/-- The rows of the photos, and the commit. Two photos of one content break the constraint
`report_photo_content_sha_once`. SOURCE: reporting.py:88-111 -/
def finish (K : SubmitConfig) (s : SubmitState C) (c : C) : Option (SubmitState C) :=
  match s.phase c with
  | .inserted request report =>
    if (request.photos.map K.photoSha).Nodup then
      some ({ s.release c with reports := s.reports.commit c }.setPhase c
        (.finished request (.returned report true)))
    else some ((s.rollback c).setPhase c (.recovering request))
  | _ => none

/-- The look after an integrity error. SOURCE: reporting.py:135-143 -/
def recover (K : SubmitConfig) (s : SubmitState C) (c : C) : Option (SubmitState C) :=
  match s.phase c with
  | .recovering request =>
    match s.lookFor request with
    | some found => some (s.setPhase c (.finished request (answer K request found)))
    | none => some (s.setPhase c (.finished request (.failed .integrity)))
  | _ => none

/-- The connection of a call breaks: what it has not committed is lost. -/
def disconnect (s : SubmitState C) (c : C) : Option (SubmitState C) :=
  match s.phase c with
  | .checking request | .validated request _ | .inserted request _ | .recovering request =>
    some ((s.rollback c).setPhase c (.finished request (.failed .connection)))
  | _ => none

/-- One step. Other rows of the table have no reference of a client. -/
def step (K : SubmitConfig) (s : SubmitState C) : SubmitAction C → Option (SubmitState C)
  | .setPremises premises => some { s with premises }
  | .other row =>
    if row.clientRef = none then some { s with reports := s.reports.insertNow row } else none
  | .begin c request => s.begin K c request
  | .check c => s.check K c
  | .insert c => s.insert c
  | .finish c => s.finish K c
  | .recover c => s.recover K c
  | .disconnect c => s.disconnect c

end SubmitState

/-! ## Photos -/

structure PhotoRequest where
  resident : ℕ
  report : ℕ
  building : ℕ
  file : UploadedFile

inductive PhotoResult where
  | returned (version : ℕ) (created : Bool)
  | permissionDenied
  | refused (error : UploadError)
  | integrity
  | connection
deriving DecidableEq

/-- How far a call is. It holds the row of its report from the recheck to its end. -/
inductive PhotoPhase where
  | idle
  | allowed (request : PhotoRequest)
  | waiting (request : PhotoRequest)
  | locked (request : PhotoRequest)
  | creating (request : PhotoRequest)
  | created (request : PhotoRequest) (version : ℕ)
  | linked (request : PhotoRequest) (version : ℕ)
  | finished (request : PhotoRequest) (result : PhotoResult)

/-- `livesIn` says who has an active occupancy in which building, `versions` has the digest of
every version of a report photo. -/
structure PhotoState (C : Type) where
  livesIn : ℕ → ℕ → Bool
  versions : Versions C Text
  photos : Versions C ReportPhoto
  reportHolder : ℕ → Option C
  phase : C → PhotoPhase

inductive PhotoAction (C : Type) where
  | setOccupancies (livesIn : ℕ → ℕ → Bool)
  | begin (c : C) (request : PhotoRequest)
  | look (c : C)
  | lock (c : C)
  | recheck (c : C)
  | create (c : C) (refusal : Option UploadError)
  | link (c : C)
  | finish (c : C)
  | disconnect (c : C)

namespace PhotoState

variable {C : Type} [DecidableEq C]

def empty (livesIn : ℕ → ℕ → Bool) : PhotoState C where
  livesIn := livesIn
  versions := .empty
  photos := .empty
  reportHolder _ := none
  phase _ := .idle

def setPhase (s : PhotoState C) (c : C) (phase : PhotoPhase) : PhotoState C :=
  { s with phase := Function.update s.phase c phase }

/-- The rows of the constraint `report_photo_content_sha_once`. -/
def samePhoto (report : ℕ) (sha : Text) (photo : ReportPhoto) : Bool :=
  photo.report = report && photo.contentSha = sha

/-- The rows that a new photo clashes with, by `report_photo_once` or by its content. -/
def clashes (new photo : ReportPhoto) : Bool :=
  samePhoto new.report new.contentSha photo ||
    (photo.report = new.report && photo.version = new.version)

def release (s : PhotoState C) (c : C) : PhotoState C :=
  { s with reportHolder := fun report => (s.reportHolder report).filter (· ≠ c) }

def rollback (s : PhotoState C) (c : C) : PhotoState C :=
  { s.release c with versions := s.versions.rollback c, photos := s.photos.rollback c }

def commit (s : PhotoState C) (c : C) : PhotoState C :=
  { s.release c with versions := s.versions.commit c, photos := s.photos.commit c }

def lookFor (K : ArchiveConfig) (s : PhotoState C) (request : PhotoRequest) :
    Option (ℕ × ReportPhoto) :=
  s.photos.committed.first? (samePhoto request.report (contentHash K request.file))

/-- SOURCE: reporting.py:171-175 -/
def begin (s : PhotoState C) (c : C) (request : PhotoRequest) : Option (PhotoState C) :=
  match s.phase c with
  | .idle =>
    if s.livesIn request.resident request.building then some (s.setPhase c (.allowed request))
    else some (s.setPhase c (.finished request .permissionDenied))
  | _ => none

/-- The look without the lock. SOURCE: reporting.py:177-185 -/
def look (K : ArchiveConfig) (s : PhotoState C) (c : C) : Option (PhotoState C) :=
  match s.phase c with
  | .allowed request =>
    match s.lookFor K request with
    | some photo => some (s.setPhase c (.finished request (.returned photo.2.version false)))
    | none => some (s.setPhase c (.waiting request))
  | _ => none

/-- SOURCE: reporting.py:189-190 -/
def lock (s : PhotoState C) (c : C) : Option (PhotoState C) :=
  match s.phase c with
  | .waiting request =>
    if (s.reportHolder request.report).isSome then none
    else some ({ s with
      reportHolder := Function.update s.reportHolder request.report (some c) }.setPhase c
        (.locked request))
  | _ => none

/-- The look under the lock. SOURCE: reporting.py:191-197 -/
def recheck (K : ArchiveConfig) (s : PhotoState C) (c : C) : Option (PhotoState C) :=
  match s.phase c with
  | .locked request =>
    match s.lookFor K request with
    | some photo =>
      some ((s.release c).setPhase c (.finished request (.returned photo.2.version false)))
    | none => some (s.setPhase c (.creating request))
  | _ => none

/-- After an integrity error the version is taken back, and the photo that is there is looked for
once more. SOURCE: reporting.py:208-216 -/
def recover (K : ArchiveConfig) (s : PhotoState C) (c : C) (request : PhotoRequest)
    (otherwise : PhotoResult) : PhotoState C :=
  match s.lookFor K request with
  | some photo =>
    (s.rollback c).setPhase c (.finished request (.returned photo.2.version false))
  | none => (s.rollback c).setPhase c (.finished request otherwise)

/-- `create_resident_report_photo`, which may refuse the file. SOURCE: reporting.py:200-204 -/
def create (K : ArchiveConfig) (s : PhotoState C) (c : C) (refusal : Option UploadError) :
    Option (PhotoState C) :=
  match s.phase c with
  | .creating request =>
    match refusal with
    | some (.service (.integrity constraint)) =>
      some (s.recover K c request (.refused (.service (.integrity constraint))))
    | some e => some ((s.rollback c).setPhase c (.finished request (.refused e)))
    | none =>
      some ({ s with versions := s.versions.insert c (contentHash K request.file) }.setPhase c
        (.created request s.versions.committed.next))
  | _ => none

/-- The row of the photo. SOURCE: reporting.py:205-207 -/
def link (K : ArchiveConfig) (s : PhotoState C) (c : C) : Option (PhotoState C) :=
  match s.phase c with
  | .created request version =>
    let photo : ReportPhoto := ⟨request.report, version, contentHash K request.file⟩
    if s.photos.awaits c (clashes photo) then none
    else if (s.photos.view c).any (clashes photo) then some (s.recover K c request .integrity)
    else some ({ s with photos := s.photos.insert c photo }.setPhase c (.linked request version))
  | _ => none

/-- SOURCE: reporting.py:217 -/
def finish (s : PhotoState C) (c : C) : Option (PhotoState C) :=
  match s.phase c with
  | .linked request version =>
    some ((s.commit c).setPhase c (.finished request (.returned version true)))
  | _ => none

/-- The connection of a call breaks: what it has not committed is lost. -/
def disconnect (s : PhotoState C) (c : C) : Option (PhotoState C) :=
  match s.phase c with
  | .allowed request | .waiting request | .locked request | .creating request
  | .created request _ | .linked request _ =>
    some ((s.rollback c).setPhase c (.finished request .connection))
  | _ => none

def step (K : ArchiveConfig) (s : PhotoState C) : PhotoAction C → Option (PhotoState C)
  | .setOccupancies livesIn => some { s with livesIn }
  | .begin c request => s.begin c request
  | .look c => s.look K c
  | .lock c => s.lock c
  | .recheck c => s.recheck K c
  | .create c refusal => s.create K c refusal
  | .link c => s.link K c
  | .finish c => s.finish c
  | .disconnect c => s.disconnect c

end PhotoState

end LamTo.Model
