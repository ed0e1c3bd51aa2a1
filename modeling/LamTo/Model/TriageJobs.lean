import LamTo.Library.Versions
import LamTo.Model.PricePredictions
import Mathlib.Data.List.Sort

/-!
# Triage jobs

The embedding of `maintenance/ai.py`, of `find_duplicate_candidates` and of `process_triage_batch`.
Every submitted report has one job. Any number of workers claim jobs in a transaction that skips
the rows others have locked, ask a provider about the report, check its answer, and store a
suggestion or leave the report to the operator. Each statement after the claim is a transaction of
its own, and a database error or the end of a worker may strike any of them.

* `json.loads` is a parameter, on texts and on bytes: any function. The call of the provider is
  given by how it ends.
* The similarity of two texts is a parameter, and the order of equally similar reports is not
  given: an answer to the query is any list in descending order.
* A claim locks the rows of the report, its unit and its location with the row of the job, so it
  may skip any job: `held` are the ones it skips.
* The other services move the status of a report, never back to `SUBMITTED`.
* Left out: the check of the settings, the system prompt, the headers and the log lines.

SOURCE: src/lamto/maintenance/{ai,candidates}.py, src/lamto/config/worker.py:38-53
-/

set_option autoImplicit false

namespace LamTo.Model

open LamTo.Library

/-! ## Rows -/

/-- `TriageJob.Status` -/
inductive TriageJobStatus where
  | pending
  | processing
  | succeeded
  | needsManual
deriving DecidableEq

structure TriageJob where
  report : ℕ
  status : TriageJobStatus
  failureReason : PyText
  startedAt : Option ℕ
  completedAt : Option ℕ
deriving DecidableEq

/-- The columns of `IssueReport` that triage uses. -/
structure TriagedReport where
  building : ℕ
  isPrivate : Bool
  status : ReportStatus
  text : Text
  locationPathSnapshot : Text
deriving DecidableEq

/-- The checked answer of the provider. -/
structure TriageAnswer where
  category : PyText
  interpretedLocation : PyText
  urgency : Urgency
  confidencePercent : ℕ
  requiresManualReview : Bool
  duplicateReportIds : List ℤ
  managementQueue : PyText
  deadlineMinutes : ℕ
  missingInformation : List PyText
deriving DecidableEq

/-- All columns of `TriageSuggestion`; a decision reads fewer. -/
structure SuggestionRow where
  job : ℕ
  category : CaseCategory
  interpretedLocation : PyText
  urgency : Urgency
  confidencePercent : ℕ
  duplicateReportIds : List ℤ
  managementQueue : ManagementQueue
  deadlineMinutes : ℕ
  missingInformation : List PyText
  rawResponse : TriageAnswer × PyText
  providerRequestId : PyText
  candidateIds : List ℕ
  elapsedMs : ℕ
  createdAt : ℕ
deriving DecidableEq

/-! ## The answer of the provider -/

/-- How `json.loads` fails: with a `JSONDecodeError` or a `UnicodeDecodeError`, or with another
exception. -/
inductive JsonFailure where
  | decode (message : PyText)
  | raised

/-- How the request ends: with a body, or with an exception of `_endpoint_url`, of the transport, or
another one. -/
inductive TriageCall where
  | answered (raw : List UInt8)
  | misconfigured (message : PyText)
  | unreachable (message : PyText)
  | broken

/-- The deployment: the character tables, `json.loads` and `TrigramSimilarity`. -/
structure TriageConfig where
  unicode : Unicode
  loads : PyText → Except JsonFailure Decoded
  loadsBytes : List UInt8 → Except JsonFailure Decoded
  similarity : Text → Text → ℚ

/-- An exception that the guard catches, with its text, or another one. -/
inductive TriageError where
  | caught (message : PyText)
  | raised

/-- `type(value).__name__` -/
def Decoded.typeName : Decoded → String
  | .none => "NoneType"
  | .bool _ => "bool"
  | .int _ => "int"
  | .float _ => "float"
  | .str _ => "str"
  | .list _ => "list"
  | .dict _ => "dict"

/-- `value[key]`; what fails is one of `KeyError`, `IndexError` and `TypeError`. -/
def Decoded.item (key : String) : Decoded → Except String Decoded
  | .dict ms => orRaise (dictGet key ms) ("'" ++ key ++ "'")
  | .list _ => throw "list indices must be integers or slices, not str"
  | .str _ => throw "string indices must be integers, not 'str'"
  | v => throw ("'" ++ v.typeName ++ "' object is not subscriptable")

/-- `value[0]` -/
def Decoded.first : Decoded → Except String Decoded
  | .list (x :: _) => return x
  | .list [] => throw "list index out of range"
  | .str (c :: _) => return .str [c]
  | .str [] => throw "string index out of range"
  | .dict _ => throw "0"
  | v => throw ("'" ++ v.typeName ++ "' object is not subscriptable")

/-- `envelope["choices"][0]["message"]["content"]` -/
def messageContent (envelope : Decoded) : Except String Decoded := do
  let choices ← envelope.item "choices"
  let choice ← choices.first
  let message ← choice.item "message"
  message.item "content"

/-- A text of the source as an error. -/
def TriageError.validation (message : String) : TriageError := .caught (pyText message)

def JsonFailure.toTriage : JsonFailure → TriageError
  | .decode message => .caught message
  | .raised => .raised

/-- `_extract_triage`. SOURCE: ai.py:188-213 -/
def extractTriage (loads : PyText → Except JsonFailure Decoded) (envelope : Decoded) :
    Except TriageError (PyText × Decoded) := do
  let .dict members := envelope
    | throw (.validation "provider envelope is not an object")
  let .str (first :: rest) := (dictGet "id" members).getD .none
    | throw (.validation "provider envelope is missing id")
  require ((first :: rest).length ≤ 255)
    (TriageError.validation "provider envelope id exceeds 255 characters")
  let content ← (messageContent envelope).mapError fun error =>
    .validation ("missing choices/message/content: " ++ error)
  let .str (head :: tail) := content | throw (.validation "provider message content is empty")
  let triage ← (loads (unfenced (pyStrip (head :: tail)))).mapError JsonFailure.toTriage
  return (first :: rest, triage)

/-- `MODEL_KEYS` -/
def modelKeys : List PyText :=
  ["category", "interpreted_location", "urgency", "confidence_percent", "requires_manual_review",
    "duplicate_report_ids", "management_queue", "deadline_minutes", "missing_information"].map pyText

/-- `_valid_string`, and the text itself. -/
def validString : Decoded → Option PyText
  | .str (c :: cs) => some (c :: cs)
  | _ => none

/-- `type(value) is int`, and the number itself. -/
def validInt : Decoded → Option ℤ
  | .int i => some i
  | _ => none

/-- The check of one text of the answer. -/
def answerText (payload : List (PyText × Decoded)) (key : String) : Except String PyText :=
  orRaise ((dictGet key payload).bind validString) "response strings must be non-empty strings"

/-- `payload["urgency"] not in URGENCIES` -/
def answerUrgency (payload : List (PyText × Decoded)) : Except String Urgency :=
  match dictGet "urgency" payload with
  | some (.str s) => orRaise (Urgency.values.find? fun u => u.code.map Char.toNat = s)
    "response urgency is invalid"
  | some (.list _) => throw "unhashable type: 'list'"
  | some (.dict _) => throw "unhashable type: 'dict'"
  | _ => throw "response urgency is invalid"

/-- The elements of a list that pass a check, one and all. -/
def answerList {α : Type} (payload : List (PyText × Decoded)) (key : String)
    (check : Decoded → Option α) (message : String) : Except String (List α) :=
  match dictGet key payload with
  | some (.list xs) => orRaise (xs.mapM check) message
  | _ => throw message

/-- An integer of the answer between two bounds. -/
def answerInt (payload : List (PyText × Decoded)) (key : String) (ok : ℤ → Bool)
    (message : String) : Except String ℕ := do
  let i ← orRaise ((dictGet key payload).bind validInt) message
  require (ok i = true) message
  return i.toNat

/-- `_validate_response`: every exception it raises is caught. SOURCE: ai.py:106-140 -/
def validateTriage (candidateIds : List ℕ) : Decoded → Except String TriageAnswer
  | .dict payload => do
    require (payload.map Prod.fst ⊆ modelKeys ∧ modelKeys ⊆ payload.map Prod.fst)
      "response keys do not match the contract"
    let category ← answerText payload "category"
    let interpretedLocation ← answerText payload "interpreted_location"
    let managementQueue ← answerText payload "management_queue"
    require (category.length ≤ 128) "response category exceeds 128 characters"
    require (managementQueue.length ≤ 32) "response management_queue exceeds 32 characters"
    require (interpretedLocation.length ≤ 1000)
      "response interpreted_location exceeds 1000 characters"
    let urgency ← answerUrgency payload
    let confidencePercent ← answerInt payload "confidence_percent" (fun i => 0 ≤ i && i ≤ 100)
      "response confidence_percent is invalid"
    let some (.bool requiresManualReview) := dictGet "requires_manual_review" payload
      | throw "response requires_manual_review is invalid"
    let duplicateReportIds ← answerList payload "duplicate_report_ids" validInt
      "response duplicate_report_ids is invalid"
    require (duplicateReportIds ⊆ candidateIds.map Int.ofNat)
      "response duplicate_report_ids were not supplied as candidates"
    let deadlineMinutes ← answerInt payload "deadline_minutes" (fun i => 0 < i)
      "response deadline_minutes is invalid"
    let missingInformation ← answerList payload "missing_information" validString
      "response missing_information is invalid"
    return ⟨category, interpretedLocation, urgency, confidencePercent, requiresManualReview,
      duplicateReportIds, managementQueue, deadlineMinutes, missingInformation⟩
  | _ => throw "response keys do not match the contract"

/-- How a job goes on once the request has ended. -/
inductive TriageVerdict where
  | manual (reason : PyText)
  | suggest (requestId : PyText) (answer : TriageAnswer)
  | raised
deriving DecidableEq

/-- The two guarded parts of `_process_claimed_job`. SOURCE: ai.py:220-260 -/
def judgeTriage (K : TriageConfig) (candidateIds : List ℕ) : TriageCall → TriageVerdict
  | .misconfigured message => .manual (pyText "config: " ++ message)
  | .unreachable message => .manual (pyText "transport: " ++ message)
  | .broken => .raised
  | .answered raw =>
    match ((K.loadsBytes raw).mapError JsonFailure.toTriage).bind (extractTriage K.loads) with
    | .error (.caught message) => .manual (pyText "invalid envelope: " ++ message)
    | .error .raised => .raised
    | .ok (requestId, triage) =>
      match validateTriage candidateIds triage with
      | .error message => .manual (pyText ("schema: " ++ message))
      | .ok answer =>
        if answer.requiresManualReview then .manual (pyText "provider requested manual review")
        else .suggest requestId answer

/-! ## What the columns hold -/

/-- A text with the code points that no `Text` has replaced; none of them is a letter or a digit. -/
def PyText.toText (t : PyText) : Text :=
  t.map fun c => if h : c.isValidChar then Char.ofNatAux c h else '\uFFFD'

/-- What a text in a `jsonb` column holds: no NUL, and surrogates in pairs only. -/
def isJsonbText : PyText → Bool
  | [] => true
  | c :: cs =>
    if c = 0 then false
    else if 0xD800 ≤ c && c ≤ 0xDBFF then
      match cs with
      | d :: ds => (0xDC00 ≤ d && d ≤ 0xDFFF) && isJsonbText ds
      | [] => false
    else if 0xDC00 ≤ c && c ≤ 0xDFFF then false
    else isJsonbText cs

/-- The failure reason fits its column once it is cut. -/
def storesReason (reason : PyText) : Bool := isStorable (reason.take 255)

/-- The columns of a suggestion hold the answer. -/
def storesAnswer (requestId : PyText) (answer : TriageAnswer) (elapsedMs : ℕ) : Bool :=
  isStorable requestId && isStorable answer.interpretedLocation && answer.deadlineMinutes < 2 ^ 31 &&
    elapsedMs < 2 ^ 31 && isJsonbText answer.category && isJsonbText answer.managementQueue &&
    answer.missingInformation.all isJsonbText

/-- The values of `TriageSuggestion.objects.create`. SOURCE: ai.py:263-277 -/
def newSuggestion (U : Unicode) (job : ℕ) (candidateIds : List ℕ) (requestId : PyText)
    (answer : TriageAnswer) (elapsedMs now : ℕ) : SuggestionRow where
  job := job
  category := normalizeCategory U answer.category.toText
  interpretedLocation := answer.interpretedLocation
  urgency := answer.urgency
  confidencePercent := answer.confidencePercent
  duplicateReportIds := answer.duplicateReportIds
  managementQueue := normalizeManagementQueue U answer.managementQueue.toText
  deadlineMinutes := answer.deadlineMinutes
  missingInformation := answer.missingInformation
  rawResponse := (answer, requestId)
  providerRequestId := requestId
  candidateIds := candidateIds.insertionSort (· ≤ ·)
  elapsedMs := elapsedMs
  createdAt := now

/-! ## Candidates -/

/-- The reports `find_duplicate_candidates` looks among. SOURCE: candidates.py:7-20 -/
def isCandidate (K : TriageConfig) (pk : ℕ) (report : TriagedReport) (q : ℕ) (r : TriagedReport) :
    Bool :=
  (r.status = .submitted || r.status = .inReview || r.status = .needsInfo) &&
    r.building = report.building && q ≠ pk && !r.isPrivate &&
    (1 / 5 : ℚ) ≤ K.similarity r.text report.text

/-- The rows are the candidates, the most similar first. -/
def ranksCandidates (K : TriageConfig) (reports : Table TriagedReport) (pk : ℕ)
    (report : TriagedReport) (ranked : List (ℕ × TriagedReport)) : Bool :=
  ranked.isPerm (reports.rows.filter fun r => isCandidate K pk report r.1 r.2) &&
    decide (ranked.Pairwise fun a b =>
      K.similarity b.2.text report.text ≤ K.similarity a.2.text report.text)

/-- The part of `_chat_body` that is about reports. SOURCE: ai.py:164-186 -/
structure TriagePrompt where
  report : ℕ
  text : Text
  locationPathSnapshot : Text
  candidates : List (ℕ × Text × Text)
deriving DecidableEq

def chatBody (pk : ℕ) (report : TriagedReport) (candidates : List (ℕ × TriagedReport)) :
    TriagePrompt where
  report := pk
  text := report.text.take 4000
  locationPathSnapshot := report.locationPathSnapshot
  candidates := candidates.map fun c => (c.1, c.2.text.take 1000, c.2.locationPathSnapshot)

/-! ## Workers -/

/-- A run of `process_triage_batch`, or of `process_triage_job` for one job: the claims it may still
make, and the jobs it has processed. -/
structure TriageBatch where
  target : Option ℕ
  left : ℕ
  count : ℕ
deriving DecidableEq

/-- A job in work, as it was claimed. -/
structure TriageWork where
  batch : TriageBatch
  job : ℕ
  row : TriageJob

inductive TriagePhase where
  | idle
  | looping (batch : TriageBatch)
  | claiming (work : TriageWork)
  | claimed (work : TriageWork)
  | asking (work : TriageWork) (candidates : List (ℕ × TriagedReport))
  | answered (work : TriageWork) (candidateIds : List ℕ) (call : TriageCall) (elapsedMs : ℕ)
  | suggested (work : TriageWork)
  | closing (work : TriageWork)
  | ended (ok : Bool) (count : ℕ)

/-- What a step of a worker is told: the jobs a claim skips, the candidates, the end of the call. -/
structure TriageAnswers where
  held : List ℕ
  ranked : List (ℕ × TriagedReport)
  call : TriageCall
  elapsedMs : ℕ

/-- A request that has ended. -/
structure AskedTriage where
  job : ℕ
  prompt : TriagePrompt
  candidateIds : List ℕ
  call : TriageCall
  elapsedMs : ℕ

/-- `asked` remembers the requests. -/
structure TriageSystem (C : Type) where
  now : ℕ
  reports : Table TriagedReport
  jobs : Versions C TriageJob
  suggestions : Table SuggestionRow
  asked : List AskedTriage
  phase : C → TriagePhase

inductive TriageAction (C : Type) where
  | tick (elapsed : ℕ)
  | submit (building : ℕ) (isPrivate : Bool) (text locationPathSnapshot : Text)
  | move (report : ℕ) (status : ReportStatus)
  | begin (c : C) (target : Option ℕ) (limit : ℕ)
  | next (c : C) (w : TriageAnswers)
  | commit (c : C)
  | lost (c : C) (w : TriageAnswers)
  | fail (c : C)

namespace TriageSystem

variable {C : Type} [DecidableEq C]

omit [DecidableEq C] in
def empty (now : ℕ) : TriageSystem C where
  now := now
  reports := .empty
  jobs := .empty
  suggestions := .empty
  asked := []
  phase _ := .idle

def setPhase (s : TriageSystem C) (c : C) (phase : TriagePhase) : TriageSystem C :=
  { s with phase := Function.update s.phase c phase }

/-- A report and its job are submitted. SOURCE: reporting.py:76-95 -/
def submit (s : TriageSystem C) (building : ℕ) (isPrivate : Bool)
    (text locationPathSnapshot : Text) : TriageSystem C :=
  { s with
    reports := s.reports.insert ⟨building, isPrivate, .submitted, text, locationPathSnapshot⟩
    jobs := s.jobs.insertNow ⟨s.reports.next, .pending, [], none, none⟩ }

/-- A job that a claim may take. -/
def claimable (s : TriageSystem C) (c : C) (target : Option ℕ) (held : List ℕ) (pk : ℕ)
    (row : TriageJob) : Bool :=
  row.status = .pending && target.all (· = pk) && !held.contains pk && !s.jobs.locked c pk

/-- `_claim_triage_job` up to its commit; without a job the loop ends. SOURCE: ai.py:55-73 -/
def claim (s : TriageSystem C) (c : C) (batch : TriageBatch) (held : List ℕ) : TriageSystem C :=
  match s.jobs.committed.rows.find? fun r => s.claimable c batch.target held r.1 r.2 with
  | none => s.setPhase c (.ended true batch.count)
  | some (job, row) =>
    let row := { row with status := .processing, startedAt := some s.now, failureReason := [] }
    { s with jobs := s.jobs.write c job (some row) }.setPhase c
      (.claiming ⟨⟨batch.target, batch.left - 1, batch.count⟩, job, row⟩)

/-- `job.save(…)`, a transaction of its own. -/
def saveJob (s : TriageSystem C) (work : TriageWork) (f : TriageJob → TriageJob) :
    TriageSystem C :=
  { s with jobs := s.jobs.updateNow work.job f }

/-- `find_duplicate_candidates`, at most five. SOURCE: ai.py:218, candidates.py:20 -/
def readCandidates (K : TriageConfig) (s : TriageSystem C) (c : C) (work : TriageWork)
    (ranked : List (ℕ × TriagedReport)) : Option (TriageSystem C) :=
  match s.reports.get? work.row.report with
  | none => none
  | some report =>
    if ranksCandidates K s.reports work.row.report report ranked then
      some (s.setPhase c (.asking work (ranked.take 5)))
    else none

/-- The request, from the moment it is sent to the moment it has ended. -/
def ask (s : TriageSystem C) (c : C) (work : TriageWork) (candidates : List (ℕ × TriagedReport))
    (call : TriageCall) (elapsedMs : ℕ) : Option (TriageSystem C) :=
  match s.reports.get? work.row.report with
  | none => none
  | some report =>
    let ids := candidates.map Prod.fst
    some ({ s with asked := ⟨work.job, chatBody work.row.report report candidates, ids, call,
      elapsedMs⟩ :: s.asked }.setPhase c (.answered work ids call elapsedMs))

/-- `_manual` up to the save of the job, or `TriageSuggestion.objects.create`.
SOURCE: ai.py:143-148, 263-277 -/
def record (K : TriageConfig) (s : TriageSystem C) (c : C) (work : TriageWork)
    (candidateIds : List ℕ) (elapsedMs : ℕ) : TriageVerdict → TriageSystem C
  | .raised => s.setPhase c (.ended false 0)
  | .manual reason =>
    if storesReason reason then
      (s.saveJob work fun row => { row with
        status := .needsManual
        failureReason := reason.take 255
        completedAt := some s.now }).setPhase c (.closing work)
    else s.setPhase c (.ended false 0)
  | .suggest requestId answer =>
    if s.suggestions.any fun r => r.job = work.job then s.setPhase c (.ended false 0)
    else if storesAnswer requestId answer elapsedMs then
      { s with suggestions := s.suggestions.insert (newSuggestion K.unicode work.job candidateIds
        requestId answer elapsedMs s.now) }.setPhase c (.suggested work)
    else s.setPhase c (.ended false 0)

/-- The report of a job that has ended is in review. SOURCE: ai.py:149-151, 281-283 -/
def reviewReport (s : TriageSystem C) (report : ℕ) : TriageSystem C :=
  { s with reports := s.reports.update report fun r =>
      if r.status = .submitted then { r with status := .inReview } else r }

/-- The next statement of a worker. -/
def next (K : TriageConfig) (s : TriageSystem C) (c : C) (w : TriageAnswers) :
    Option (TriageSystem C) :=
  match s.phase c with
  | .looping batch =>
    if batch.left = 0 then some (s.setPhase c (.ended true batch.count))
    else some (s.claim c batch w.held)
  | .claimed work => s.readCandidates K c work w.ranked
  | .asking work candidates => s.ask c work candidates w.call w.elapsedMs
  | .answered work candidateIds call elapsedMs =>
    some (s.record K c work candidateIds elapsedMs (judgeTriage K candidateIds call))
  | .suggested work => some ((s.saveJob work fun row =>
      { row with status := .succeeded, completedAt := some s.now }).setPhase c (.closing work))
  | .closing work => some ((s.reviewReport work.row.report).setPhase c
      (.looping { work.batch with count := work.batch.count + 1 }))
  | .idle | .claiming _ | .ended _ _ => none

/-- The commit of a claim. -/
def commit (s : TriageSystem C) (c : C) : Option (TriageSystem C) :=
  match s.phase c with
  | .claiming work => some ({ s with jobs := s.jobs.commit c }.setPhase c (.claimed work))
  | _ => none

/-- The worker is at work. -/
def busy (s : TriageSystem C) (c : C) : Bool :=
  match s.phase c with
  | .idle | .ended _ _ => false
  | _ => true

/-- A database error, or the end of the worker, strikes the statement: what it had not committed is
undone. -/
def fail (s : TriageSystem C) (c : C) : Option (TriageSystem C) :=
  if s.busy c then some ({ s with jobs := s.jobs.rollback c }.setPhase c (.ended false 0)) else none

/-- The statement is carried out, and its worker does not learn of it. -/
def lost (K : TriageConfig) (s : TriageSystem C) (c : C) (w : TriageAnswers) :
    Option (TriageSystem C) :=
  match s.phase c with
  | .claiming _ => (s.commit c).map fun t => t.setPhase c (.ended false 0)
  | .answered _ _ _ _ | .suggested _ | .closing _ =>
    (s.next K c w).map fun t => t.setPhase c (.ended false 0)
  | _ => none

def step (K : TriageConfig) (s : TriageSystem C) : TriageAction C → Option (TriageSystem C)
  | .tick elapsed => some { s with now := s.now + elapsed }
  | .submit building isPrivate text path => some (s.submit building isPrivate text path)
  | .move report status =>
    if status = .submitted then none
    else some { s with reports := s.reports.update report fun r => { r with status } }
  | .begin c target limit =>
    if s.busy c then none else some (s.setPhase c (.looping ⟨target, limit, 0⟩))
  | .next c w => s.next K c w
  | .commit c => s.commit c
  | .lost c w => s.lost K c w
  | .fail c => s.fail c

end TriageSystem

end LamTo.Model
