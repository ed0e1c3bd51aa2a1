import LamTo.Model.LogFilters

/-!
# Log messages without tokens

The messages that pass the filter name no token, and do not depend on the tokens of the messages
that came in. Both are the general facts on texts with a marker, at the marker of downloads.

SOURCE: src/lamto/config/log_filters.py
-/

set_option autoImplicit false

namespace LamTo.Analysis

open LamTo.Library LamTo.Model

variable {A : Type}

theorem scrub_eq_redact (text : PyText) :
    scrubDownloadTokenInText text = downloadTokenInText.redact text := by
  unfold scrubDownloadTokenInText
  split
  · next hnil => rw [hnil, Redaction.redact_nil]
  · rfl

/-- **What is logged is the message that came in, scrubbed.** -/
theorem getMessage_filter (format : PyText → A → Option PyText) (record : LogRecord A) :
    (downloadTokenLogFilter format record).getMessage format =
      (record.getMessage format).map downloadTokenInText.redact := by
  unfold downloadTokenLogFilter
  cases hmessage : record.getMessage format with
  | none => exact hmessage
  | some message =>
    simp only [scrub_eq_redact, Option.map_some]
    split
    · rfl
    · next hsame => rw [hmessage, not_not.mp hsame]

/-- **A message that is logged names no token**: behind every download path in it stands
`[redacted]`, or nothing of a token. A record is passed on as it is exactly when its message is of
that kind, or could not be made, so that a further handler with the filter changes nothing. -/
theorem log_names_no_token (format : PyText → A → Option PyText) (record : LogRecord A) :
    (∀ message, (downloadTokenLogFilter format record).getMessage format = some message →
      downloadTokenInText.Clean message) ∧
    (downloadTokenLogFilter format record = record ↔
      ∀ message, record.getMessage format = some message → downloadTokenInText.Clean message) ∧
    downloadTokenLogFilter format (downloadTokenLogFilter format record) =
      downloadTokenLogFilter format record := by
  have hclean : ∀ r : LogRecord A, ∀ message,
      (downloadTokenLogFilter format r).getMessage format = some message →
        downloadTokenInText.Clean message := by
    intro r message hmessage
    rw [getMessage_filter] at hmessage
    obtain ⟨before, -, rfl⟩ := Option.map_eq_some_iff.mp hmessage
    exact Redaction.clean_redact before
  have hfixed : ∀ r : LogRecord A,
      (∀ message, r.getMessage format = some message → downloadTokenInText.Clean message) →
        downloadTokenLogFilter format r = r := by
    intro r hr
    unfold downloadTokenLogFilter
    cases hmessage : r.getMessage format with
    | none => rfl
    | some message =>
      have hself := (Redaction.redact_eq_self message).mpr (hr message hmessage)
      exact if_neg (not_not.mpr ((scrub_eq_redact message).trans hself))
  refine ⟨hclean record, ⟨fun hsame message hmessage => ?_, hfixed record⟩, ?_⟩
  · rw [← hsame] at hmessage
    exact hclean record message hmessage
  · exact hfixed _ (hclean record)

/-! ## Tokens do not show -/

/-- The marker falls on itself in its last character only. -/
theorem endsApart_documents (before : PyText) (h : ¬ pyText "/api/v1/documents" <:+ before) :
    downloadTokenInText.EndsApart before := by
  refine Redaction.endsApart_of_border before (fun k hk hlt hborder => ?_) h
  have hall : ∀ k < (pyText "/api/v1/documents/").length, 0 < k →
      (pyText "/api/v1/documents/").drop ((pyText "/api/v1/documents/").length - k) =
        (pyText "/api/v1/documents/").take k → k = 1 := by decide
  exact hall k hlt hk hborder

/-- **The log does not tell tokens apart.** Two records whose messages differ in the token behind a
download path, and in nothing else, are logged alike, unless another download path runs into that
one. -/
theorem log_hides_token (format : PyText → A → Option PyText) (record record' : LogRecord A)
    (before token token' after : PyText) (hne : token ≠ []) (hne' : token' ≠ [])
    (htoken : ∀ c ∈ token, isTokenCharacter c = true)
    (htoken' : ∀ c ∈ token', isTokenCharacter c = true)
    (hafter : ∀ c ∈ after.head?, isTokenCharacter c = false)
    (hbefore : ¬ pyText "/api/v1/documents" <:+ before)
    (hmessage : record.getMessage format =
      some (before ++ (pyText "/api/v1/documents/" ++ (token ++ after))))
    (hmessage' : record'.getMessage format =
      some (before ++ (pyText "/api/v1/documents/" ++ (token' ++ after)))) :
    (downloadTokenLogFilter format record).getMessage format =
      (downloadTokenLogFilter format record').getMessage format := by
  rw [getMessage_filter, getMessage_filter, hmessage, hmessage', Option.map_some, Option.map_some]
  exact congrArg some (Redaction.redact_token before token token' after hne hne' htoken htoken'
    hafter (endsApart_documents before hbefore))

/-- The token of a request line, with its arguments filled in. -/
theorem log_hides_token_request :
    (downloadTokenLogFilter (fun msg args => some (msg ++ args))
        (⟨pyText "GET /api/v1/documents/", some (pyText "abc.def:ghi HTTP/1.1")⟩)).getMessage
        (fun msg args => some (msg ++ args)) =
      (downloadTokenLogFilter (fun msg args => some (msg ++ args))
        (⟨pyText "GET /api/v1/documents/uvw.xyz:0", some (pyText " HTTP/1.1")⟩)).getMessage
        (fun msg args => some (msg ++ args)) :=
  log_hides_token _ _ _ (pyText "GET ") (pyText "abc.def:ghi") (pyText "uvw.xyz:0")
    (pyText " HTTP/1.1") (by decide) (by decide) (by decide) (by decide) (by decide) (by decide)
    (by decide) (by decide)

end LamTo.Analysis
