import LamTo.Model.PushLinks

/-!
# A push and its row in the feed lead to one screen

The server and the application each read the key of a notice. A push carries what the server has
read, a type and an id; the row in the feed carries the key. The two readings agree on every key,
and on the keys of the services they find the record that the key was made for.

* A key is cut at its colons: what stands before the first three colons is read off
  (`keyParts_of_key`), whatever comes after.
* The decimal text of an id is an integer of the application again, as long as it fits.

SOURCE: src/lamto/notifications/{push,hooks}.py, src/app/lib/features/notifications/deep_link.dart
-/

set_option autoImplicit false

namespace LamTo.Analysis

open LamTo.Library LamTo.Model

/-! ## Integers -/

theorem dropWhile_of_forall (p : Char → Bool) (t : Text) (h : ∀ c ∈ t, p c = false) :
    t.dropWhile p = t := by
  cases t with
  | nil => rfl
  | cons c t => rw [List.dropWhile_cons_of_neg (by rw [h c List.mem_cons_self]; simp)]

theorem trim_of_forall (p : Char → Bool) (t : Text) (h : ∀ c ∈ t, p c = false) :
    (t.dropWhile p).rdropWhile p = t := by
  rw [dropWhile_of_forall p t h, List.rdropWhile, dropWhile_of_forall p t.reverse,
    List.reverse_reverse]
  intro c hc
  exact h c (List.mem_reverse.mp hc)

/-- A digit is none of the other characters that an integer may have. -/
theorem digit_bounds (c : Char) (h : c.isDigit = true) : 48 ≤ c.toNat ∧ c.toNat ≤ 57 := by
  simp only [Char.isDigit, Bool.and_eq_true, decide_eq_true_eq, ge_iff_le,
    UInt32.le_iff_toNat_le] at h
  exact h

theorem not_isDartSpace (c : Char) (h : c.isDigit = true) : isDartSpace c = false := by
  obtain ⟨hlo, hhi⟩ := digit_bounds c h
  simp only [isDartSpace, Bool.or_eq_false_iff, Bool.and_eq_false_iff, decide_eq_false_iff_not]
  omega

theorem isDigit_of_mem_decimal (n : ℕ) (c : Char) (h : c ∈ decimal n) : c.isDigit = true :=
  Nat.isDigit_of_mem_toDigits (by decide) (by decide) h

theorem decimal_ne_nil (n : ℕ) : decimal n ≠ [] := Nat.toDigits_ne_nil

theorem intDigits_decimal (n : ℕ) : intDigits (decimal n) = some (n, false) := by
  have hall : (decimal n).all Char.isDigit = true :=
    List.all_eq_true.mpr fun c hc => isDigit_of_mem_decimal n c hc
  have hvalue : Nat.ofDigitChars 10 (decimal n) 0 = n := Nat.ofDigitChars_ten_toDigits
  unfold intDigits
  split
  · next x digits hdigits =>
    -- What follows a leading zero is a digit, not the letter of a hexadecimal literal.
    have hx : x.isDigit = true := isDigit_of_mem_decimal n x (by rw [hdigits]; simp)
    have hletter : (decide (x = 'x') || decide (x = 'X')) = false := by
      simp only [Bool.or_eq_false_iff, decide_eq_false_iff_not]
      constructor
      · rintro rfl
        exact absurd hx (by decide)
      · rintro rfl
        exact absurd hx (by decide)
    rw [hdigits, List.all_cons, Bool.and_eq_true] at hall
    rw [if_neg (by rw [hletter]; simp), if_pos hall.2, ← hdigits, hvalue]
  · rw [if_pos (by simp [decimal_ne_nil, hall]), hvalue]

theorem intSign_decimal (n : ℕ) : intSign (decimal n) = (false, decimal n) := by
  have hdigit := isDigit_of_mem_decimal n
  unfold intSign
  split
  · next rest hrest => exact absurd (hdigit '-' (by rw [hrest]; simp)) (by decide)
  · next rest hrest => exact absurd (hdigit '+' (by rw [hrest]; simp)) (by decide)
  · rfl

/-- **The decimal text of an id is the id again.** -/
theorem intTryParse_decimal (n : ℕ) (h : n < 9223372036854775808) :
    intTryParse (decimal n) = some (n : ℤ) := by
  have htrim := trim_of_forall isDartSpace (decimal n) fun c hc =>
    not_isDartSpace c (isDigit_of_mem_decimal n c hc)
  unfold intTryParse
  rw [htrim, intSign_decimal]
  dsimp only
  rw [intDigits_decimal, Option.bind_some]
  exact if_pos h

/-! ## The two readings -/

/-- The type that the server gives to an entity is the one the application reads from it. -/
theorem parsePushLink_type (entity id : Text) (parsed : ℤ) (hid : intTryParse id = some parsed) :
    parsePushLink (some ((deepLinkTypes.lookup entity).getD "notifications".toList)) (some id) =
      if entity = "report".toList then .report parsed
      else if entity = "entry".toList then .ledger parsed
      else if entity = "bill".toList then .bill parsed
      else .feed := by
  unfold parsePushLink
  rw [Option.getD_some, hid]
  by_cases hreport : entity = "report".toList
  · subst hreport
    rfl
  · by_cases hcase : entity = "case".toList
    · subst hcase
      rfl
    · by_cases hentry : entity = "entry".toList
      · subst hentry
        rfl
      · by_cases hbill : entity = "bill".toList
        · subst hbill
          rfl
        · have hnone : deepLinkTypes.lookup entity = none := by
            rw [List.lookup_eq_none_iff]
            intro p hp
            simp only [deepLinkTypes, List.mem_cons, List.not_mem_nil, or_false] at hp
            rcases hp with rfl | rfl | rfl | rfl
            · exact bne_iff_ne.mpr hreport
            · exact bne_iff_ne.mpr hcase
            · exact bne_iff_ne.mpr hentry
            · exact bne_iff_ne.mpr hbill
          rw [hnone, if_neg hreport, if_neg hentry, if_neg hbill]
          rfl

/-- Without an id there is nothing to open. -/
theorem parsePushLink_none (type : Option Text) : parsePushLink type (some []) = .feed := rfl

/-- **A push leads where its row in the feed leads**, whatever the key. -/
theorem parsePushLink_payload (pk : ℕ) (r : DeliveryRow) :
    parsePushLink (some (buildPushPayload pk r).linkType) (some (buildPushPayload pk r).linkId) =
      parseEventKey r.eventKey := by
  simp only [buildPushPayload, parseReference, parseEventKey]
  rcases keyParts r.eventKey with _ | ⟨code, _ | ⟨entity, _ | ⟨id, rest⟩⟩⟩
  · exact parsePushLink_none _
  · exact parsePushLink_none _
  · exact parsePushLink_none _
  · simp only [Option.bind_some, Option.map_some, Option.getD_some]
    cases hid : intTryParse id with
    | none =>
      unfold parsePushLink
      rw [Option.getD_some, hid]
    | some parsed => exact parsePushLink_type entity id parsed hid

/-! ## What a push says -/

theorem mem_of_lookup (xs : List (Text × Text × Text)) (k : Text) (d : Text × Text) :
    (xs.lookup k).getD d ∈ d :: xs.map Prod.snd := by
  induction xs with
  | nil => exact List.mem_cons_self
  | cons x xs ih =>
    obtain ⟨key, copy⟩ := x
    rw [List.lookup_cons]
    split
    · exact List.mem_cons_of_mem d (List.mem_cons_self)
    · rcases List.mem_cons.mp ih with heq | hmem
      · rw [heq]
        exact List.mem_cons_self
      · exact List.mem_cons_of_mem d (List.mem_cons_of_mem copy hmem)

/-- The copies that a push may have. -/
def genericCopies : List (Text × Text) :=
  defaultCopy :: (announcementCopy.map Prod.snd ++ pushCopy.map Prod.snd)

theorem copyOf_mem (r : DeliveryRow) : copyOf r ∈ genericCopies := by
  unfold copyOf genericCopies
  split
  · rcases List.mem_cons.mp (mem_of_lookup announcementCopy _ defaultCopy) with heq | hmem
    · rw [heq]
      exact List.mem_cons_self
    · exact List.mem_cons_of_mem _ (List.mem_append_left _ hmem)
  · rcases List.mem_cons.mp (mem_of_lookup pushCopy r.code defaultCopy) with heq | hmem
    · rw [heq]
      exact List.mem_cons_self
    · exact List.mem_cons_of_mem _ (List.mem_append_right _ hmem)

/-! ## The keys of the services -/

/-- A key is cut at its first two colons, and its id at the next one or at the end. -/
theorem keyParts_of_key (code entity id rest : Text) (hcode : ':' ∉ code) (hentity : ':' ∉ entity)
    (hid : ':' ∉ id) (hrest : rest = [] ∨ rest.head? = some ':') :
    ∃ parts, keyParts (code ++ ':' :: (entity ++ ':' :: (id ++ rest))) =
      code :: entity :: id :: parts := by
  have hfree : ∀ t : Text, ':' ∉ t → ∀ c ∈ t, (c == ':') = false := by
    intro t ht c hc
    rw [beq_eq_false_iff_ne]
    rintro rfl
    exact ht hc
  unfold keyParts
  rw [List.splitOn_eq_splitOnP, List.splitOnP_append_cons_of_forall_mem (hfree code hcode) ':' rfl,
    List.splitOnP_append_cons_of_forall_mem (hfree entity hentity) ':' rfl]
  rcases hrest with rfl | hhead
  · rw [List.append_nil, List.splitOnP_eq_singleton (hfree id hid)]
    exact ⟨[], rfl⟩
  · cases rest with
    | nil => cases hhead
    | cons c rest =>
      obtain rfl : c = ':' := Option.some.inj hhead
      rw [List.splitOnP_append_cons_of_forall_mem (hfree id hid) ':' rfl]
      exact ⟨_, rfl⟩

/-- The parts of a key: its code, its entity, its id and what follows. -/
structure KeyForm where
  code : Text
  entity : Text
  id : ℕ
  rest : Text

def KeyForm.text (k : KeyForm) : Text :=
  k.code ++ ':' :: (k.entity ++ ':' :: (decimal k.id ++ k.rest))

def noticeForm : NoticeSubject → KeyForm
  | .reportReceipt report => ⟨"report.receipt".toList, "report".toList, report, []⟩
  | .infoRequested report info =>
    ⟨"info_requested".toList, "report".toList, report, ":info:".toList ++ decimal info⟩
  | .reportDeclined report => ⟨"report_declined".toList, "report".toList, report, []⟩
  | .triageConfirmed case => ⟨"triage.status".toList, "case".toList, case, []⟩
  | .deadlineRisk case day =>
    ⟨"work.deadline_risk".toList, "case".toList, case, ":day:".toList ++ day⟩
  | .progressUpdate update => ⟨"case_progress".toList, "update".toList, update, []⟩
  | .caseCompleted case => ⟨"work.completed".toList, "case".toList, case, []⟩
  | .settled settlement => ⟨"settlement".toList, "settled".toList, settlement, []⟩
  | .publication entry => ⟨"ledger.publication".toList, "entry".toList, entry, []⟩
  | .integrityMismatch entry observation =>
    ⟨"integrity.mismatch".toList, "entry".toList, entry, ":obs:".toList ++ decimal observation⟩
  | .quarantinedUpload upload => ⟨"document.quarantined".toList, "upload".toList, upload, []⟩
  | .announced announcement => ⟨eventAnnouncement, "announcement".toList, announcement, []⟩
  | .announcementPush announcement revision action => ⟨eventAnnouncement, "announcement".toList,
      announcement, ":revision:".toList ++ (decimal revision ++ (":".toList ++ action))⟩
  | .billed bill => ⟨eventBillIssued, "bill".toList, bill, []⟩
  | .billPush bill => ⟨eventBillIssued, "bill".toList, bill, ":issued".toList⟩

/-- What a notice is meant to open: a report, an entry of the ledger or a bill has a screen. -/
def noticeDestination : NoticeSubject → DeepLink
  | .reportReceipt report | .infoRequested report _ | .reportDeclined report => .report report
  | .publication entry | .integrityMismatch entry _ => .ledger entry
  | .billed bill | .billPush bill => .bill bill
  | _ => .feed

theorem KeyForm.text_eq (k : KeyForm) (lead : Text)
    (h : lead = k.code ++ ':' :: (k.entity ++ [':'])) :
    k.text = lead ++ (decimal k.id ++ k.rest) := by
  rw [h, KeyForm.text]
  simp only [List.append_assoc, List.cons_append, List.nil_append]

theorem append_four (t a b c d : Text) : t ++ a ++ b ++ c ++ d = t ++ (a ++ (b ++ (c ++ d))) := by
  simp only [List.append_assoc]

/-- Every key has its form. -/
theorem eventKey_eq (n : NoticeSubject) : n.eventKey = (noticeForm n).text := by
  -- A key without more to it, by what stands before its id.
  have hplain : ∀ lead : Text, n.eventKey = lead ++ decimal (noticeForm n).id →
      (noticeForm n).rest = [] →
      lead = (noticeForm n).code ++ ':' :: ((noticeForm n).entity ++ [':']) →
      n.eventKey = (noticeForm n).text := by
    intro lead hkey hrest hlead
    rw [KeyForm.text_eq _ lead hlead, hrest, List.append_nil, hkey]
  cases n with
  | reportReceipt report => exact hplain "report.receipt:report:".toList rfl rfl rfl
  | infoRequested report info =>
    rw [KeyForm.text_eq _ "info_requested:report:".toList rfl, ← List.append_assoc]
    exact List.append_assoc _ _ _
  | reportDeclined report => exact hplain "report_declined:report:".toList rfl rfl rfl
  | triageConfirmed case => exact hplain "triage.status:case:".toList rfl rfl rfl
  | deadlineRisk case day =>
    rw [KeyForm.text_eq _ "work.deadline_risk:case:".toList rfl, ← List.append_assoc]
    exact List.append_assoc _ _ _
  | progressUpdate update => exact hplain "case_progress:update:".toList rfl rfl rfl
  | caseCompleted case => exact hplain "work.completed:case:".toList rfl rfl rfl
  | settled settlement => exact hplain "settlement:settled:".toList rfl rfl rfl
  | publication entry => exact hplain "ledger.publication:entry:".toList rfl rfl rfl
  | integrityMismatch entry observation =>
    rw [KeyForm.text_eq _ "integrity.mismatch:entry:".toList rfl, ← List.append_assoc]
    exact List.append_assoc _ _ _
  | quarantinedUpload upload => exact hplain "document.quarantined:upload:".toList rfl rfl rfl
  | announced announcement =>
    exact hplain (eventAnnouncement ++ ":announcement:".toList) rfl rfl rfl
  | announcementPush announcement revision action =>
    rw [KeyForm.text_eq _ (eventAnnouncement ++ ":announcement:".toList) rfl, ← List.append_assoc]
    exact append_four _ _ _ _ _
  | billed bill => exact hplain (eventBillIssued ++ ":bill:".toList) rfl rfl rfl
  | billPush bill =>
    rw [KeyForm.text_eq _ (eventBillIssued ++ ":bill:".toList) rfl, ← List.append_assoc]
    rfl

theorem colon_notMem_code (n : NoticeSubject) : ':' ∉ (noticeForm n).code := by
  cases n <;> exact of_decide_eq_true rfl

theorem colon_notMem_entity (n : NoticeSubject) : ':' ∉ (noticeForm n).entity := by
  cases n <;> exact of_decide_eq_true rfl

theorem rest_of_form (n : NoticeSubject) :
    (noticeForm n).rest = [] ∨ (noticeForm n).rest.head? = some ':' := by
  cases n <;> first | exact .inl rfl | exact .inr rfl

theorem colon_notMem_decimal (n : ℕ) : ':' ∉ decimal n := by
  intro h
  exact absurd (isDigit_of_mem_decimal n ':' h) (by decide)

/-- **The key of a notice opens its record**, if the id fits into an integer. -/
theorem parseEventKey_notice (n : NoticeSubject) (h : (noticeForm n).id < 9223372036854775808) :
    parseEventKey n.eventKey = noticeDestination n := by
  obtain ⟨parts, hparts⟩ := keyParts_of_key _ _ (decimal (noticeForm n).id) _ (colon_notMem_code n)
    (colon_notMem_entity n) (colon_notMem_decimal _) (rest_of_form n)
  rw [eventKey_eq]
  unfold parseEventKey KeyForm.text
  rw [hparts]
  dsimp only
  rw [intTryParse_decimal _ h]
  cases n <;> rfl

/-- **A notice leads to its record, and its push says nothing more.** For every delivery a push
opens what the row of the feed opens, and has one of the fixed copies; and the key of every notice
of the services opens the record it is about, when that has a screen, and the feed otherwise. -/
theorem notices_open_records :
    (∀ (pk : ℕ) (r : DeliveryRow),
      parsePushLink (some (buildPushPayload pk r).linkType)
          (some (buildPushPayload pk r).linkId) = parseEventKey r.eventKey ∧
        ((buildPushPayload pk r).title, (buildPushPayload pk r).body) ∈ genericCopies) ∧
    ∀ n : NoticeSubject, (noticeForm n).id < 9223372036854775808 →
      parseEventKey n.eventKey = noticeDestination n :=
  ⟨fun pk r => ⟨parsePushLink_payload pk r, copyOf_mem r⟩, parseEventKey_notice⟩

/-- The notice about a mismatch opens its entry of the ledger. -/
theorem notices_open_records_mismatch :
    parseEventKey (NoticeSubject.integrityMismatch 12 7).eventKey = .ledger 12 :=
  notices_open_records.2 (.integrityMismatch 12 7) (by decide)

end LamTo.Analysis
