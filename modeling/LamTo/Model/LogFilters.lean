import LamTo.Library.Redaction
import LamTo.Model.PricePredictions

/-!
# Download tokens in log messages

The path of a download holds a signed token, which lets whoever has it fetch the document. A filter
on the log handler strikes it out of every message before the message is written.

* The pattern is `(/api/v1/documents/)([^/?\s#"']+)`: `sub` replaces the longest run of token
  characters behind each marker, from left to right, and goes on after it.
* `msg % args` is a parameter, which may raise.

SOURCE: src/lamto/config/log_filters.py
-/

set_option autoImplicit false

namespace LamTo.Model

open LamTo.Library

/-- `[^/?\s#"']` -/
def isTokenCharacter (c : ℕ) : Bool :=
  !(isPySpace c || c = 47 || c = 63 || c = 35 || c = 34 || c = 39)

/-- `_DOWNLOAD_TOKEN_IN_TEXT` and what it is replaced by. SOURCE: log_filters.py:13, 20 -/
def downloadTokenInText : Redaction ℕ where
  marker := pyText "/api/v1/documents/"
  replacement := pyText "[redacted]"
  isToken := isTokenCharacter
  marker_ne := by decide
  begins := by decide
  replacement_ne := by decide
  token := by decide
  apart := by
    have hoffsets : ∀ i < (pyText "/api/v1/documents/").length, 0 < i →
        ¬ pyText "/api/v1/documents/" <+:
          (pyText "/api/v1/documents/" ++ pyText "[redacted]").drop i ∧
        ¬ (pyText "/api/v1/documents/" ++ pyText "[redacted]").drop i <+:
          pyText "/api/v1/documents/" := by decide
    exact fun i hi hlt => hoffsets i hlt hi

/-- `scrub_download_token_in_text` -/
def scrubDownloadTokenInText (text : PyText) : PyText :=
  if text = [] then text else downloadTokenInText.redact text

/-- A `LogRecord`: `msg` as `str` shows it, and its arguments, if there are any. -/
structure LogRecord (A : Type) where
  msg : PyText
  args : Option A

/-- `record.getMessage()`, unless it raises. -/
def LogRecord.getMessage {A : Type} (format : PyText → A → Option PyText) (record : LogRecord A) :
    Option PyText :=
  match record.args with
  | none => some record.msg
  | some args => format record.msg args

/-- `DownloadTokenLogFilter.filter`: the record as it is passed on. SOURCE: log_filters.py:26-35 -/
def downloadTokenLogFilter {A : Type} (format : PyText → A → Option PyText)
    (record : LogRecord A) : LogRecord A :=
  match record.getMessage format with
  | none => record
  | some message =>
    if scrubDownloadTokenInText message ≠ message then
      ⟨scrubDownloadTokenInText message, none⟩
    else record

end LamTo.Model
