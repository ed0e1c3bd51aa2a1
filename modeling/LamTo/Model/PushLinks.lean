import LamTo.Model.Announcements
import LamTo.Model.BillCalls
import LamTo.Model.Deliveries
import LamTo.Model.Notifications

/-!
# Where a notice leads

The embedding of `build_push_payload` of the server, and of `parsePushLink` and `parseEventKey` of
the resident application. A notice has a key; the server reads the key to make the data of a push,
and the application reads that data, or the key itself for the row of the notice in the feed.

* `int.tryParse` is a definition over integers of 64 bits: decimal digits, or hexadecimal ones
  after `0x`, with a sign before them and blanks around; what does not fit is refused, except that
  a hexadecimal value may use the highest bit.
* `NoticeSubject` has one case for each key that the services write.

SOURCE: src/lamto/notifications/{push,hooks}.py, src/app/lib/features/notifications/deep_link.dart
-/

set_option autoImplicit false

namespace LamTo.Model

open LamTo.Library

/-! ## The push -/

/-- `_DEFAULT_COPY`, a title and a body. -/
def defaultCopy : Text × Text := ("Thông báo mới".toList, "Bạn có một thông báo mới.".toList)

/-- `PUSH_COPY`. SOURCE: push.py:13-19 -/
def pushCopy : List (Text × Text × Text) :=
  [("report.receipt".toList, "Đã nhận phản ánh".toList,
      "Phản ánh của bạn đã được ghi nhận.".toList),
    ("triage.status".toList, "Phản ánh đã được phân loại".toList,
      "Phản ánh của bạn đã được mở thành yêu cầu xử lý.".toList),
    ("work.completed".toList, "Công việc đã hoàn thành".toList,
      "Vui lòng đánh giá công việc đã thực hiện.".toList),
    ("ledger.publication".toList, "Khoản chi mới được công bố".toList,
      "Có khoản chi mới trong sổ quỹ tòa nhà.".toList),
    ("building.bill_issued".toList, "Có hóa đơn mới từ ban quản lý".toList,
      "Mở ứng dụng để xem chi tiết.".toList)]

/-- `_ANNOUNCEMENT_COPY`. SOURCE: push.py:21-34 -/
def announcementCopy : List (Text × Text × Text) :=
  [("published".toList, "Thông báo mới từ ban quản lý".toList,
      "Mở ứng dụng để xem nội dung.".toList),
    ("updated".toList, "Thông báo của ban quản lý đã được cập nhật".toList,
      "Mở ứng dụng để xem nội dung mới.".toList),
    ("withdrawn".toList, "Thông báo của ban quản lý đã được thu hồi".toList,
      "Mở ứng dụng để kiểm tra.".toList)]

/-- `DEEP_LINK_TYPES` -/
def deepLinkTypes : List (Text × Text) :=
  [("report".toList, "report".toList), ("case".toList, "case".toList),
    ("entry".toList, "ledger".toList), ("bill".toList, "bill".toList)]

/-- `str.split(":")`, and `split(':')` of the application -/
def keyParts (eventKey : Text) : List Text := eventKey.splitOn ':'

/-- `_parse_reference`. SOURCE: push.py:105-109 -/
def parseReference (eventKey : Text) : Option (Text × Text) :=
  match keyParts eventKey with
  | _ :: entity :: id :: _ => some (entity, id)
  | _ => none

/-- The title and the body, and the strings of `data`. -/
structure PushPayload where
  title : Text
  body : Text
  linkType : Text
  linkId : Text
  deliveryId : Text
deriving DecidableEq

/-- The copy of a push. SOURCE: push.py:121-127 -/
def copyOf (r : DeliveryRow) : Text × Text :=
  if r.code = eventAnnouncement then
    (announcementCopy.lookup ((keyParts r.eventKey).getLastD [])).getD defaultCopy
  else (pushCopy.lookup r.code).getD defaultCopy

/-- `build_push_payload`. SOURCE: push.py:119-131 -/
def buildPushPayload (pk : ℕ) (r : DeliveryRow) : PushPayload where
  title := (copyOf r).1
  body := (copyOf r).2
  linkType := (((parseReference r.eventKey).bind fun reference =>
    deepLinkTypes.lookup reference.1)).getD "notifications".toList
  linkId := ((parseReference r.eventKey).map Prod.snd).getD []
  deliveryId := decimal pk

/-! ## The application -/

inductive DeepLink where
  | report (id : ℤ)
  | ledger (id : ℤ)
  | bill (id : ℤ)
  | feed
deriving DecidableEq

/-- The blanks of the application. -/
def isDartSpace (c : Char) : Bool :=
  let n := c.toNat
  (9 ≤ n && n ≤ 13) || n = 32 || n = 0x85 || n = 0xA0 || n = 0x1680 ||
    (0x2000 ≤ n && n ≤ 0x200A) || n = 0x2028 || n = 0x2029 || n = 0x202F || n = 0x205F ||
    n = 0x3000 || n = 0xFEFF

/-- The digits of an integer: their value, and whether they are hexadecimal. -/
def intDigits : Text → Option (ℕ × Bool)
  | '0' :: x :: digits =>
    if x = 'x' || x = 'X' then
      if digits ≠ [] && digits.all fun c => (Json.hexValue c).isSome then
        some (hexNat digits, true)
      else none
    else if (x :: digits).all Char.isDigit then
      some (Nat.ofDigitChars 10 ('0' :: x :: digits) 0, false)
    else none
  | digits =>
    if digits ≠ [] && digits.all Char.isDigit then some (Nat.ofDigitChars 10 digits 0, false)
    else none

/-- The sign of an integer, and what follows it. -/
def intSign : Text → Bool × Text
  | '-' :: rest => (true, rest)
  | '+' :: rest => (false, rest)
  | rest => (false, rest)

/-- The integer of a value, when it has one of 64 bits. -/
def fitInt (negative hexadecimal : Bool) (n : ℕ) : Option ℤ :=
  if n < 9223372036854775808 then some (if negative then -n else n)
  else if negative && n = 9223372036854775808 then some (-9223372036854775808)
  else if hexadecimal && !negative && n < 18446744073709551616 then
    some (n - 18446744073709551616)
  else none

/-- `int.tryParse` -/
def intTryParse (source : Text) : Option ℤ :=
  let (negative, digits) := intSign ((source.dropWhile isDartSpace).rdropWhile isDartSpace)
  (intDigits digits).bind fun (n, hexadecimal) => fitInt negative hexadecimal n

/-- `parsePushLink`. SOURCE: deep_link.dart:59-67 -/
def parsePushLink (type id : Option Text) : DeepLink :=
  match intTryParse (id.getD []) with
  | none => .feed
  | some parsed =>
    if type = some "report".toList then .report parsed
    else if type = some "ledger".toList then .ledger parsed
    else if type = some "bill".toList then .bill parsed
    else .feed

/-- `parseEventKey`. SOURCE: deep_link.dart:75-86 -/
def parseEventKey (eventKey : Text) : DeepLink :=
  match keyParts eventKey with
  | _ :: entity :: id :: _ =>
    match intTryParse id with
    | none => .feed
    | some parsed =>
      if entity = "report".toList then .report parsed
      else if entity = "entry".toList then .ledger parsed
      else if entity = "bill".toList then .bill parsed
      else .feed
  | _ => .feed

/-! ## The keys of the services -/

/-- What a notice is about. -/
inductive NoticeSubject where
  | reportReceipt (report : ℕ)
  | infoRequested (report infoRequest : ℕ)
  | reportDeclined (report : ℕ)
  | triageConfirmed (case : ℕ)
  | deadlineRisk (case : ℕ) (day : Text)
  | progressUpdate (update : ℕ)
  | caseCompleted (case : ℕ)
  | settled (settlement : ℕ)
  | publication (entry : ℕ)
  | integrityMismatch (entry observation : ℕ)
  | quarantinedUpload (upload : ℕ)
  | announced (announcement : ℕ)
  | announcementPush (announcement revision : ℕ) (action : Text)
  | billed (bill : ℕ)
  | billPush (bill : ℕ)
deriving DecidableEq

/-- The keys. SOURCE: hooks.py:30-167, announcements.py:15-23, billing/services.py:31-36 -/
def NoticeSubject.eventKey : NoticeSubject → Text
  | .reportReceipt report => "report.receipt:report:".toList ++ decimal report
  | .infoRequested report info =>
    "info_requested:report:".toList ++ decimal report ++ ":info:".toList ++ decimal info
  | .reportDeclined report => "report_declined:report:".toList ++ decimal report
  | .triageConfirmed case => "triage.status:case:".toList ++ decimal case
  | .deadlineRisk case day =>
    "work.deadline_risk:case:".toList ++ decimal case ++ ":day:".toList ++ day
  | .progressUpdate update => "case_progress:update:".toList ++ decimal update
  | .caseCompleted case => "work.completed:case:".toList ++ decimal case
  | .settled settlement => "settlement:settled:".toList ++ decimal settlement
  | .publication entry => "ledger.publication:entry:".toList ++ decimal entry
  | .integrityMismatch entry observation => mismatchKey entry observation
  | .quarantinedUpload upload => "document.quarantined:upload:".toList ++ decimal upload
  | .announced announcement => inAppEventKey announcement
  | .announcementPush announcement revision action => pushEventKey announcement revision action
  | .billed bill => billInAppKey bill
  | .billPush bill => billPushKey bill

end LamTo.Model
