import LamTo.Library.Best
import LamTo.Library.Table
import LamTo.Model.GatePhotos
import LamTo.Model.Plates
import Mathlib.Data.Rat.Defs

/-!
# Readers at the gate

Residents submit and revoke plates, managers decide on them, and readers report plates and faces
that they see. Every statement is a transaction of its own, and the statements of any number of
calls run in any order: a manager decides on a row as it was read, a submission saves the row it
found, and a reader records what was matched before.

* `save()` of a row that was deleted inserts it again under its key; with `update_fields` it
  raises.
* The two unique constraints on plates refuse a statement. The foreign keys of an event refuse a
  plate that is gone, and the deletion of a plate deletes its events.
* The embedder is a parameter, as are the comparison with a candidate, which may raise, or not
  take place for a vector of another shape, and the order of the candidates. A score is the
  rational number its float stands for.
* Enrolments come and go as their own services let them; here they are any table.
* A call may fail at any statement (`fail`). The authentication of a reader and its throttle are
  left out.

SOURCE: src/lamto/gate/{recognition,matching}.py, enrollment.py:76-95, review.py:18-20, 74-101,
retention.py:13-16, models.py:76-115, 147-248, src/lamto/web/views/gate.py:60-84
-/

set_option autoImplicit false

namespace LamTo.Model

open LamTo.Library

/-! ## Rows -/

structure VehiclePlate where
  occupancy : ℕ
  building : ℕ
  plate : Text
  status : ReviewStatus
  submittedAt : ℕ
  reviewedBy : Option ℕ
  reviewedAt : Option ℕ
  reviewNote : Text
deriving DecidableEq

/-- `GateEvent.Kind` -/
inductive GateKind where
  | face
  | plate
deriving DecidableEq

/-- `GateDevice.Direction` -/
inductive ReaderDirection where
  | entry
  | exit
deriving DecidableEq

structure GateEvent where
  building : ℕ
  device : ℕ
  kind : GateKind
  direction : ReaderDirection
  occurredAt : ℕ
  matchedOccupancy : Option ℕ
  matchedPlate : Option ℕ
  rawPlateText : Text
  normalizedPlateText : Text
  modelName : Text
  modelVersion : Text
  matchMetric : Text
  thresholdUsed : Option ℚ
  matchScore : Option ℚ
deriving DecidableEq

/-- `GateDevice`, as far as a recognition reads it. -/
structure GateReader where
  building : ℕ
  direction : ReaderDirection

/-- The user and the building of a `ManagementMembership`. -/
structure GateManager where
  user : ℕ
  building : ℕ
deriving DecidableEq

/-- The deployment, and what no service changes: where an occupancy is, what it is shown as, the
readers and the memberships. -/
structure ReaderConfig where
  folding : Folding
  homeBuilding : ℕ → ℕ
  displayName : ℕ → Text
  unitLabel : ℕ → Text
  reader : ℕ → GateReader
  manager : ℕ → GateManager
  /-- `GATE_FACE_CALIBRATED` -/
  faceCalibrated : Bool
  /-- `GATE_FACE_MATCH_THRESHOLD` -/
  faceMatchThreshold : ℚ
  /-- `GATE_EVENT_RETENTION_HOURS`, in the unit of the clock -/
  eventRetention : ℕ
  /-- `get_embedder().embed`; none when it raises -/
  embed : List UInt8 → Option EmbeddingResult
  /-- `unit_vector(probe)` does not raise. -/
  unitable : List UInt8 → Bool
  /-- A sealed candidate against the probe: no score for another shape -/
  candidateScore : List UInt8 → List UInt8 → Except Unit (Option ℚ)

/-! ## Calls -/

/-- `FaceMatch` -/
structure FaceMatch where
  occupancy : Option ℕ
  score : ℚ
deriving DecidableEq

structure RecognitionOutcome where
  matched : Bool
  displayName : Text
  unitLabel : Text
  direction : ReaderDirection
  score : Option ℚ
  event : ℕ
deriving DecidableEq

inductive ReadingResult where
  | returned (plate : ℕ)
  | recognized (outcome : RecognitionOutcome)
  | plateFormat (message : String)
  | plateAlreadyRegistered
  | notFound
  | notPermitted
  | notPossible
  | faceEmbedder
  | raised
  | integrity
  | database
deriving DecidableEq

/-- How far a call is, with the rows it has read. -/
inductive ReadingPhase where
  | idle
  | checked (occupancy : ℕ) (plate : Text)
  | creating (occupancy : ℕ) (plate : Text)
  | refetching (occupancy : ℕ) (plate : Text)
  | reopening (pk : ℕ) (row : VehiclePlate)
  | reviewing (membership pk : ℕ) (row : VehiclePlate)
  | approving (membership pk : ℕ) (row : VehiclePlate)
  | sawPlate (device : ℕ) (raw : Option Text) (normalized : Text)
    (found : Option (ℕ × VehiclePlate))
  | sawFace (device : ℕ) (result : EmbeddingResult) (found : FaceMatch)
  | finished (result : ReadingResult)

/-- `active` says which occupancies are active, `manages` which memberships. -/
structure ReadingState (C : Type) where
  now : ℕ
  active : ℕ → Bool
  manages : ℕ → Bool
  faces : Table FaceEnrollment
  plates : Table VehiclePlate
  events : Table GateEvent
  phase : C → ReadingPhase

inductive ReadingAction (C : Type) where
  | tick (elapsed : ℕ)
  | setActive (occupancy : ℕ) (active : Bool)
  | setManages (membership : ℕ) (active : Bool)
  | setFaces (faces : Table FaceEnrollment)
  | purge
  | revoke (occupancy pk : ℕ)
  | submit (c : C) (occupancy : ℕ) (raw : Option Text)
  | find (c : C) (membership pk : ℕ)
  | approve (c : C)
  | reject (c : C) (note : Option Text)
  | readPlate (c : C) (device : ℕ) (raw : Option Text)
  | readFace (c : C) (device : ℕ) (image : List UInt8) (order : List (ℕ × FaceEnrollment))
  | next (c : C)
  | fail (c : C)

/-! ## The constraints -/

/-- Rows that `gate_plate_once_per_occupancy` or `gate_approved_plate_once_per_building` keeps
apart. SOURCE: models.py:104-114 -/
def VehiclePlate.clashes (a b : VehiclePlate) : Bool :=
  (a.occupancy = b.occupancy && a.plate = b.plate) ||
    (a.status = .approved && b.status = .approved && a.building = b.building && a.plate = b.plate)

/-- The row may stand under the key beside the others. -/
def platesAdmit (plates : Table VehiclePlate) (pk : ℕ) (row : VehiclePlate) : Bool :=
  plates.rows.all fun r => r.1 = pk || !row.clashes r.2

/-! ## The faces -/

/-- The rows that `match_face` asks for. SOURCE: matching.py:28-32 -/
def isFaceCandidate (K : ReaderConfig) (active : ℕ → Bool) (building : ℕ)
    (result : EmbeddingResult) (row : FaceEnrollment) : Bool :=
  row.status = .approved && row.embedding.isSome && row.modelName = result.modelName &&
    row.modelVersion = result.modelVersion && active row.occupancy &&
    K.homeBuilding row.occupancy = building

/-- One round of the loop of `match_face`. SOURCE: matching.py:34-39 -/
def considerFace (K : ReaderConfig) (probe : List UInt8) (best : Option ℕ × ℚ)
    (row : FaceEnrollment) : Except Unit (Option ℕ × ℚ) := do
  match ← K.candidateScore probe (row.embedding.getD []) with
  | none => return best
  | some score => return if best.2 < score then (some row.occupancy, score) else best

/-- `match_face` over the rows in the order they come in. SOURCE: matching.py:26-42 -/
def matchFace (K : ReaderConfig) (probe : List UInt8) (rows : List FaceEnrollment) :
    Except Unit FaceMatch := do
  require (K.unitable probe = true) ()
  let best ← rows.foldlM (considerFace K probe) (none, -1)
  match best.1 with
  | none => return ⟨none, 0⟩
  | some occupancy =>
    return ⟨if K.faceMatchThreshold ≤ best.2 then some occupancy else none, best.2⟩

/-- `MATCH_METRIC` -/
def matchMetric : Text := "cosine".toList

namespace ReadingState

variable {C : Type} [DecidableEq C]

def empty (now : ℕ) : ReadingState C where
  now := now
  active _ := false
  manages _ := false
  faces := .empty
  plates := .empty
  events := .empty
  phase _ := .idle

def setPhase (s : ReadingState C) (c : C) (phase : ReadingPhase) : ReadingState C :=
  { s with phase := Function.update s.phase c phase }

def finish (s : ReadingState C) (c : C) (result : ReadingResult) : ReadingState C :=
  s.setPhase c (.finished result)

/-! ## Plates of residents -/

/-- `submit_plate` up to its first look. SOURCE: enrollment.py:76-80 -/
def submit (K : ReaderConfig) (s : ReadingState C) (c : C) (occupancy : ℕ) (raw : Option Text) :
    ReadingState C :=
  match normalizePlate K.folding raw with
  | .error message => s.finish c (.plateFormat message)
  | .ok plate =>
    if s.plates.any fun r => r.building = K.homeBuilding occupancy && r.plate = plate &&
        r.status = .approved && !(r.occupancy = occupancy) then
      s.finish c .plateAlreadyRegistered
    else s.setPhase c (.checked occupancy plate)

/-- What follows the row that `get_or_create` has found. SOURCE: enrollment.py:85-91 -/
def found (s : ReadingState C) (c : C) (pk : ℕ) (row : VehiclePlate) : ReadingState C :=
  if row.status = .rejected then s.setPhase c (.reopening pk row)
  else s.finish c (.returned pk)

/-- `get` of `get_or_create`, and again after an integrity error. -/
def lookup (s : ReadingState C) (c : C) (occupancy : ℕ) (plate : Text) (missing : ReadingPhase) :
    ReadingState C :=
  match s.plates.first? fun r => r.occupancy = occupancy && r.plate = plate with
  | some (pk, row) => s.found c pk row
  | none => s.setPhase c missing

/-- The row of `get_or_create`. SOURCE: enrollment.py:81-84 -/
def newPlate (K : ReaderConfig) (now occupancy : ℕ) (plate : Text) : VehiclePlate where
  occupancy := occupancy
  building := K.homeBuilding occupancy
  plate := plate
  status := .pending
  submittedAt := now
  reviewedBy := none
  reviewedAt := none
  reviewNote := []

/-- `create` of `get_or_create`, in its savepoint. -/
def create (K : ReaderConfig) (s : ReadingState C) (c : C) (occupancy : ℕ) (plate : Text) :
    ReadingState C :=
  let row := newPlate K s.now occupancy plate
  if platesAdmit s.plates s.plates.next row then
    { s with plates := s.plates.insert row }.finish c (.returned s.plates.next)
  else s.setPhase c (.refetching occupancy plate)

/-- A rejected plate, submitted again. SOURCE: enrollment.py:86-89 -/
def reopened (now : ℕ) (row : VehiclePlate) : VehiclePlate :=
  { row with
    status := .pending
    reviewedBy := none
    reviewedAt := none
    reviewNote := []
    submittedAt := now }

/-- `obj.save()`: an update of every column, or an insertion under the key.
SOURCE: enrollment.py:90 -/
def reopen (s : ReadingState C) (c : C) (pk : ℕ) (row : VehiclePlate) : ReadingState C :=
  let row := reopened s.now row
  if !platesAdmit s.plates pk row then s.finish c .integrity
  else if h : 0 < pk ∧ ∀ r ∈ s.plates.rows, r.1 ≠ pk then
    { s with plates := s.plates.insertAt pk row h }.finish c (.returned pk)
  else { s with plates := s.plates.update pk fun _ => row }.finish c (.returned pk)

/-- `revoke_plate`, and what goes with a plate. SOURCE: enrollment.py:94-95, models.py:235-241 -/
def revoke (s : ReadingState C) (occupancy pk : ℕ) : ReadingState C :=
  match s.plates.get? pk with
  | some row =>
    if row.occupancy = occupancy then
      { s with
        plates := s.plates.remove fun q _ => q = pk
        events := s.events.remove fun _ e => e.matchedPlate = some pk }
    else s
  | none => s

/-! ## Decisions of managers -/

/-- `gate_plate_decide` up to its row, which is what `_assert_manages` asks for.
SOURCE: views/gate.py:63, review.py:18-20 -/
def find (K : ReaderConfig) (s : ReadingState C) (c : C) (membership pk : ℕ) : ReadingState C :=
  if s.manages membership then
    match s.plates.get? pk with
    | some row =>
      if row.building = (K.manager membership).building then
        s.setPhase c (.reviewing membership pk row)
      else s.finish c .notFound
    | none => s.finish c .notFound
  else s.finish c .notPermitted

/-- `approve_plate` up to its save. SOURCE: review.py:74-79 -/
def approve (s : ReadingState C) (c : C) (membership pk : ℕ) (row : VehiclePlate) :
    ReadingState C :=
  if row.status = .approved then s.finish c (.returned pk)
  else if s.plates.rows.any fun r => r.2.building = row.building && r.2.plate = row.plate &&
      r.2.status = .approved && !(r.1 = pk) then
    s.finish c .notPossible
  else s.setPhase c (.approving membership pk row)

/-- The columns of a decision. SOURCE: review.py:80-84, 92-96 -/
def decided (status : ReviewStatus) (user now : ℕ) (note : Text) (row : VehiclePlate) :
    VehiclePlate :=
  { row with
    status
    reviewedBy := some user
    reviewedAt := some now
    reviewNote := note }

/-- `save(update_fields=...)` of a decision, on the row as it is now. -/
def decide (K : ReaderConfig) (s : ReadingState C) (c : C) (membership pk : ℕ)
    (status : ReviewStatus) (note : Text) : ReadingState C :=
  match s.plates.get? pk with
  | none => s.finish c .database
  | some row =>
    let row := decided status (K.manager membership).user s.now note row
    if note.contains nul then s.finish c .database
    else if platesAdmit s.plates pk row then
      { s with plates := s.plates.update pk fun _ => row }.finish c (.returned pk)
    else s.finish c .integrity

/-- `reject_plate`; `revoke_plate_as_manager` is one with a note of its own.
SOURCE: review.py:88-101 -/
def reject (K : ReaderConfig) (s : ReadingState C) (c : C) (membership pk : ℕ)
    (note : Option Text) : ReadingState C :=
  let note := strip K.folding.toUnicode (note.getD [])
  if note = [] then s.finish c .notPossible
  else s.decide K c membership pk .rejected (note.take 255)

/-! ## Recognitions -/

/-- `match_plate`. SOURCE: matching.py:45-49 -/
def matchPlate (s : ReadingState C) (building : ℕ) (normalized : Text) :
    Option (ℕ × VehiclePlate) :=
  s.plates.first? fun r => r.building = building && r.plate = normalized &&
    r.status = .approved && s.active r.occupancy

/-- `recognize_plate` up to its event. SOURCE: recognition.py:42-46 -/
def readPlate (K : ReaderConfig) (s : ReadingState C) (c : C) (device : ℕ) (raw : Option Text) :
    ReadingState C :=
  match normalizePlate K.folding raw with
  | .error message => s.finish c (.plateFormat message)
  | .ok normalized =>
    s.setPhase c (.sawPlate device raw normalized
      (s.matchPlate (K.reader device).building normalized))

/-- `recognize_face` up to its event; `order` is how the candidates come.
SOURCE: recognition.py:27-31 -/
def readFace (K : ReaderConfig) (s : ReadingState C) (c : C) (device : ℕ) (image : List UInt8)
    (order : List (ℕ × FaceEnrollment)) : Option (ReadingState C) :=
  if K.faceCalibrated then
    match K.embed image with
    | none => some (s.finish c .faceEmbedder)
    | some result =>
      if order.Perm (s.faces.select
          (isFaceCandidate K s.active (K.reader device).building result)) then
        match matchFace K result.vector (order.map Prod.snd) with
        | .error () => some (s.finish c .raised)
        | .ok found => some (s.setPhase c (.sawFace device result found))
      else none
  else some (s.finish c .faceEmbedder)

/-- The event of a plate. SOURCE: recognition.py:47-52 -/
def plateEvent (K : ReaderConfig) (now device : ℕ) (raw : Option Text) (normalized : Text)
    (found : Option (ℕ × VehiclePlate)) : GateEvent where
  building := (K.reader device).building
  device := device
  kind := .plate
  direction := (K.reader device).direction
  occurredAt := now
  matchedOccupancy := found.map fun r => r.2.occupancy
  matchedPlate := found.map Prod.fst
  rawPlateText := (raw.getD []).take 64
  normalizedPlateText := normalized
  modelName := []
  modelVersion := []
  matchMetric := []
  thresholdUsed := none
  matchScore := none

/-- The event of a face. SOURCE: recognition.py:32-38 -/
def faceEvent (K : ReaderConfig) (now device : ℕ) (result : EmbeddingResult) (found : FaceMatch) :
    GateEvent where
  building := (K.reader device).building
  device := device
  kind := .face
  direction := (K.reader device).direction
  occurredAt := now
  matchedOccupancy := found.occupancy
  matchedPlate := none
  rawPlateText := []
  normalizedPlateText := []
  modelName := result.modelName
  modelVersion := result.modelVersion
  matchMetric := matchMetric
  thresholdUsed := some K.faceMatchThreshold
  matchScore := some found.score

/-- `_outcome`. SOURCE: recognition.py:56-60 -/
def outcome (K : ReaderConfig) (occupancy : Option ℕ) (device : ℕ) (score : Option ℚ)
    (event : ℕ) : RecognitionOutcome where
  matched := occupancy.isSome
  displayName := (occupancy.map K.displayName).getD []
  unitLabel := (occupancy.map K.unitLabel).getD []
  direction := (K.reader device).direction
  score := score
  event := event

/-- `GateEvent.objects.create`, and the outcome. -/
def record (K : ReaderConfig) (s : ReadingState C) (c : C) (event : GateEvent) : ReadingState C :=
  if event.matchedPlate.all fun pk => (s.plates.get? pk).isSome then
    if event.rawPlateText.contains nul then s.finish c .database
    else
      { s with events := s.events.insert event }.finish c (.recognized
        (outcome K event.matchedOccupancy event.device event.matchScore s.events.next))
  else s.finish c .integrity

/-! ## The system -/

/-- The next statement of a call. -/
def next (K : ReaderConfig) (s : ReadingState C) (c : C) : Option (ReadingState C) :=
  match s.phase c with
  | .checked occupancy plate => some (s.lookup c occupancy plate (.creating occupancy plate))
  | .creating occupancy plate => some (s.create K c occupancy plate)
  | .refetching occupancy plate => some (s.lookup c occupancy plate (.finished .integrity))
  | .reopening pk row => some (s.reopen c pk row)
  | .approving membership pk _ => some (s.decide K c membership pk .approved [])
  | .sawPlate device raw normalized found =>
    some (s.record K c (plateEvent K s.now device raw normalized found))
  | .sawFace device result found => some (s.record K c (faceEvent K s.now device result found))
  | _ => none

/-- `purge_expired_gate_events`. SOURCE: retention.py:13-16 -/
def purge (K : ReaderConfig) (s : ReadingState C) : ReadingState C :=
  { s with events := s.events.remove fun _ e => e.occurredAt + K.eventRetention < s.now }

def step (K : ReaderConfig) (s : ReadingState C) : ReadingAction C → Option (ReadingState C)
  | .tick elapsed => some { s with now := s.now + elapsed }
  | .setActive occupancy active =>
    some { s with active := Function.update s.active occupancy active }
  | .setManages membership active =>
    some { s with manages := Function.update s.manages membership active }
  | .setFaces faces => some { s with faces }
  | .purge => some (s.purge K)
  | .revoke occupancy pk => some (s.revoke occupancy pk)
  | .submit c occupancy raw =>
    match s.phase c with
    | .idle => some (s.submit K c occupancy raw)
    | _ => none
  | .find c membership pk =>
    match s.phase c with
    | .idle => some (s.find K c membership pk)
    | _ => none
  | .approve c =>
    match s.phase c with
    | .reviewing membership pk row => some (s.approve c membership pk row)
    | _ => none
  | .reject c note =>
    match s.phase c with
    | .reviewing membership pk _ => some (s.reject K c membership pk note)
    | _ => none
  | .readPlate c device raw =>
    match s.phase c with
    | .idle => some (s.readPlate K c device raw)
    | _ => none
  | .readFace c device image order =>
    match s.phase c with
    | .idle => s.readFace K c device image order
    | _ => none
  | .next c => s.next K c
  | .fail c =>
    match s.phase c with
    | .idle | .finished _ => none
    | _ => some (s.finish c .database)

end ReadingState

end LamTo.Model
