import LamTo.Analysis.QueuedEvidence
import LamTo.Model.Downloads

/-!
# The name a download has

The header that goes with a served file, read by the grammar of headers: a word and two
parameters, whatever the stored name is.

* The extended parameter is the sanitized name, character by character; the plain one is its
  fallback, and both are the same exactly when the name is ASCII and holds no semicolon.
* A sanitized name is not empty and holds no separator of a path, no quote and no line end, and
  sanitizing it once more leaves it as it is.
* The header is ASCII without line ends: the name adds no header of its own.

SOURCE: src/lamto/api/downloads.py:50-87
-/

set_option autoImplicit false

namespace LamTo.Analysis

open LamTo.Library LamTo.Model

variable (U : Unicode)

/-! ## Blanks -/

theorem mem_of_mem_strip (t : Text) (c : Char) (h : c ∈ strip U t) : c ∈ t :=
  (List.dropWhile_suffix _).subset ((List.rdropWhile_prefix _ _).subset h)

theorem strip_eq_self (t : Text) (h : ∀ c ∈ t, U.isSpace c = false) : strip U t = t := by
  have hfront : t.dropWhile U.isSpace = t := by
    cases t with
    | nil => rfl
    | cons c t =>
      refine List.dropWhile_cons_of_neg ?_
      rw [h c List.mem_cons_self]
      exact Bool.false_ne_true
  unfold strip
  rw [hfront, List.rdropWhile_eq_self_iff]
  intro hne
  rw [h _ (List.getLast_mem hne)]
  exact Bool.false_ne_true

/-- What is left has no blank to be stripped. -/
theorem strip_idem (t : Text) : strip U (strip U t) = strip U t := by
  have hlocal := List.rdropWhile_prefix U.isSpace (t.dropWhile U.isSpace)
  have hfront : (strip U t).dropWhile U.isSpace = strip U t := by
    rw [List.dropWhile_eq_self_iff]
    intro hne
    have hlen : 0 < (t.dropWhile U.isSpace).length := Nat.lt_of_lt_of_le hne hlocal.length_le
    have hhead : ¬ U.isSpace (t.dropWhile U.isSpace)[0] = true :=
      List.dropWhile_get_zero_not U.isSpace t hlen
    rw [← hlocal.getElem hne] at hhead
    exact hhead
  rw [strip, hfront]
  exact List.rdropWhile_idempotent _ _

/-! ## Sanitized names -/

/-- A character that could leave the file's name or the header. -/
def isUnsafe (c : Char) : Bool := c = '/' || c = '\\' || c = '\r' || c = '\n' || c = '"'

theorem mem_basename (path : Text) (c : Char) (h : c ∈ basename path) : c ∈ path ∧ c ≠ '/' := by
  have h := List.mem_reverse.mp h
  refine ⟨List.mem_reverse.mp ((List.takeWhile_prefix _).subset h), ?_⟩
  simpa using List.mem_takeWhile_imp h

theorem basename_eq_self (path : Text) (h : ∀ c ∈ path, c ≠ '/') : basename path = path := by
  have htake : path.reverse.takeWhile (· ≠ '/') = path.reverse :=
    List.takeWhile_eq_self_iff.mpr fun c hc => decide_eq_true (h c (List.mem_reverse.mp hc))
  rw [basename, htake, List.reverse_reverse]

/-- The characters that the name is stripped of before the blanks. -/
theorem not_isUnsafe_of_mem (t : Text) (c : Char)
    (h : c ∈ (basename (t.map fun c => if c = '\\' then '/' else c)).filter
      fun c => c ≠ '\r' && c ≠ '\n' && c ≠ '"') : isUnsafe c = false := by
  obtain ⟨hc, hrest⟩ := List.mem_filter.mp h
  obtain ⟨hmem, hslash⟩ := mem_basename _ c hc
  have hback : c ≠ '\\' := by
    rintro rfl
    obtain ⟨d, _, hd⟩ := List.mem_map.mp hmem
    split at hd
    · exact absurd hd (by decide)
    · next hne => exact hne hd
  simp only [Bool.and_eq_true, decide_eq_true_eq] at hrest
  simp [isUnsafe, hslash, hback, hrest.1.1, hrest.1.2, hrest.2]

/-- A name that is kept as it is: not empty, without blanks at its ends and unsafe characters. -/
structure SafeName (name : Text) : Prop where
  ne_nil : name ≠ []
  stripped : strip U name = name
  safe : ∀ c ∈ name, isUnsafe c = false

theorem safeName_download (hletters : ∀ c ∈ "download".toList, U.isSpace c = false) :
    SafeName U "download".toList where
  ne_nil := by decide
  stripped := strip_eq_self U _ hletters
  safe := by
    have hall : ("download".toList.all fun c => !isUnsafe c) = true := by decide
    exact fun c hc => Bool.not_eq_true' _ ▸ List.all_eq_true.mp hall c hc

theorem orDownload_strip (t : Text) (hletters : ∀ c ∈ "download".toList, U.isSpace c = false)
    (h : ∀ c ∈ t, isUnsafe c = false) : SafeName U (orDownload (strip U t)) := by
  unfold orDownload
  split
  · exact safeName_download U hletters
  · next hne => exact ⟨hne, strip_idem U t, fun c hc => h c (mem_of_mem_strip U t c hc)⟩

theorem safeName_sanitize (filename : Option Text)
    (hletters : ∀ c ∈ "download".toList, U.isSpace c = false) :
    SafeName U (sanitizeDownloadFilename U filename) := by
  match filename with
  | none | some [] => exact safeName_download U hletters
  | some (c :: t) => exact orDownload_strip U _ hletters (not_isUnsafe_of_mem (c :: t))

theorem ne_of_not_isUnsafe (c : Char) (h : isUnsafe c = false) :
    c ≠ '/' ∧ c ≠ '\\' ∧ c ≠ '\r' ∧ c ≠ '\n' ∧ c ≠ '"' := by
  simp only [isUnsafe, Bool.or_eq_false_iff, decide_eq_false_iff_not] at h
  exact ⟨h.1.1.1.1, h.1.1.1.2, h.1.1.2, h.1.2, h.2⟩

/-- Sanitizing does nothing to a safe name. -/
theorem sanitize_of_safe (name : Text) (h : SafeName U name) :
    sanitizeDownloadFilename U (some name) = name := by
  obtain ⟨c, t, rfl⟩ := List.exists_cons_of_ne_nil h.ne_nil
  have hsafe := fun d hd => ne_of_not_isUnsafe d (h.safe d hd)
  have hmap : (c :: t).map (fun c => if c = '\\' then '/' else c) = c :: t := by
    have hcongr : (c :: t).map (fun c => if c = '\\' then '/' else c) = (c :: t).map id :=
      List.map_congr_left fun d hd => if_neg (hsafe d hd).2.1
    rw [hcongr, List.map_id]
  have hfilter : (c :: t).filter (fun c => c ≠ '\r' && c ≠ '\n' && c ≠ '"') = c :: t := by
    refine List.filter_eq_self.mpr fun d hd => ?_
    simp only [Bool.and_eq_true, decide_eq_true_eq]
    exact ⟨⟨(hsafe d hd).2.2.1, (hsafe d hd).2.2.2.1⟩, (hsafe d hd).2.2.2.2⟩
  have hname : sanitizeDownloadFilename U (some (c :: t)) = orDownload (strip U (c :: t)) := by
    show orDownload (strip U ((basename ((c :: t).map fun c => if c = '\\' then '/' else c)).filter
      fun c => c ≠ '\r' && c ≠ '\n' && c ≠ '"')) = _
    rw [hmap, basename_eq_self _ fun d hd => (hsafe d hd).1, hfilter]
  rw [hname, h.stripped, orDownload, if_neg h.ne_nil]

/-! ## The fallback -/

theorem mem_asciiFallback (name : Text) (c : Char) (h : c ∈ asciiFallbackFilename U name) :
    c ∈ "download".toList ∨ c ∈ name ∧ c.toNat < 128 ∧ c ≠ ';' := by
  unfold asciiFallbackFilename orDownload at h
  split at h
  · exact .inl h
  · obtain ⟨hascii, hplain⟩ := List.mem_filter.mp (mem_of_mem_strip U _ c h)
    obtain ⟨hmem, hlt⟩ := List.mem_filter.mp hascii
    simp only [Bool.and_eq_true, decide_eq_true_eq] at hplain hlt
    exact .inr ⟨hmem, hlt, hplain.2⟩

/-- A letter of the default name. -/
theorem plain_of_mem_download (c : Char) (h : c ∈ "download".toList) :
    c.toNat < 128 ∧ c ≠ ';' ∧ isUnsafe c = false := by
  have hall : ("download".toList.all fun c => c.toNat < 128 && c ≠ ';' && !isUnsafe c) = true := by
    decide
  have hc := List.all_eq_true.mp hall c h
  simp only [Bool.and_eq_true, decide_eq_true_eq, Bool.not_eq_true'] at hc
  exact ⟨hc.1.1, hc.1.2, hc.2⟩

theorem asciiFallback_safe (name : Text) (h : ∀ c ∈ name, isUnsafe c = false) (c : Char)
    (hc : c ∈ asciiFallbackFilename U name) : c.toNat < 128 ∧ isUnsafe c = false := by
  rcases mem_asciiFallback U name c hc with hc | ⟨hmem, hlt, _⟩
  · exact ⟨(plain_of_mem_download c hc).1, (plain_of_mem_download c hc).2.2⟩
  · exact ⟨hlt, h c hmem⟩

/-- **The fallback is the name** exactly when all of the name may stand in it. -/
theorem asciiFallback_eq_iff (name : Text) (h : SafeName U name) :
    asciiFallbackFilename U name = name ↔ ∀ c ∈ name, c.toNat < 128 ∧ c ≠ ';' := by
  constructor
  · intro heq c hc
    rw [← heq] at hc
    rcases mem_asciiFallback U name c hc with hc | ⟨_, hlt, hne⟩
    · exact ⟨(plain_of_mem_download c hc).1, (plain_of_mem_download c hc).2.1⟩
    · exact ⟨hlt, hne⟩
  · intro hplain
    have hascii : name.filter (fun c => c.toNat < 128) = name :=
      List.filter_eq_self.mpr fun c hc => decide_eq_true (hplain c hc).1
    have hfilter : name.filter (fun c => c ≠ '\\' && c ≠ ';') = name := by
      refine List.filter_eq_self.mpr fun c hc => ?_
      simp only [Bool.and_eq_true, decide_eq_true_eq]
      exact ⟨(ne_of_not_isUnsafe c (h.safe c hc)).2.1, (hplain c hc).2⟩
    rw [asciiFallbackFilename, hascii, hfilter, h.stripped, orDownload, if_neg h.ne_nil]

/-! ## The header -/

/-- The header as a list of parameters. -/
theorem contentDisposition_eq (filename : Option Text) :
    contentDispositionInline U filename = "inline".toList ++
      (Header.writeQuoted "filename".toList
        (asciiFallbackFilename U (sanitizeDownloadFilename U filename)) ++
      (Header.writeWord "filename*".toList
        (Header.writeExtended (sanitizeDownloadFilename U filename)) ++ [])) := by
  have hparts (fallback quoted : Text) : "inline; filename=\"".toList ++ (fallback ++
      ("\"; filename*=UTF-8''".toList ++ quoted)) = "inline".toList ++
      (Header.writeQuoted "filename".toList fallback ++
        (Header.writeWord "filename*".toList ("UTF-8".toList ++
          (Header.apostrophe :: Header.apostrophe :: quoted)) ++ [])) := by
    simp [Header.writeQuoted, Header.writeWord, Header.apostrophe]
  exact hparts _ _

theorem read_contentDisposition (filename : Option Text)
    (hname : SafeName U (sanitizeDownloadFilename U filename)) :
    Header.read (contentDispositionInline U filename) = some ("inline".toList,
      [("filename".toList, asciiFallbackFilename U (sanitizeDownloadFilename U filename)),
        ("filename*".toList, Header.writeExtended (sanitizeDownloadFilename U filename))]) := by
  rw [contentDisposition_eq]
  refine Header.read_quoted_word _ _ _ _ _ (List.all_eq_true.mp (by decide))
    (List.all_eq_true.mp (by decide)) (by decide) (fun c hc => ?_)
    (List.all_eq_true.mp (by decide)) (by decide) (Header.isWordChar_writeExtended _) (by
      exact List.append_ne_nil_of_left_ne_nil (by decide) _)
  have hsafe := ne_of_not_isUnsafe c (asciiFallback_safe U _ hname.safe c hc).2
  exact ⟨hsafe.2.2.2.2, hsafe.2.1⟩

/-- A character that may stand in a header. -/
def isPlain (c : Char) : Bool := c.toNat < 128 && c ≠ '\r' && c ≠ '\n'

theorem isPlain_quote (t : Text) (c : Char) (h : c ∈ Percent.quote t) : isPlain c = true := by
  rcases Percent.mem_quote t c h with hc | rfl
  · have hreturn : c ≠ '\r' := by
      rintro rfl
      revert hc
      decide
    have hline : c ≠ '\n' := by
      rintro rfl
      revert hc
      decide
    simp [isPlain, Percent.toNat_lt_of_isUnreserved c hc, hreturn, hline]
  · decide

theorem contentDisposition_plain (filename : Option Text)
    (hname : SafeName U (sanitizeDownloadFilename U filename)) (c : Char)
    (hc : c ∈ contentDispositionInline U filename) : isPlain c = true := by
  have hfront : ("inline; filename=\"".toList.all isPlain) = true := by decide
  have hmiddle : ("\"; filename*=UTF-8''".toList.all isPlain) = true := by decide
  rcases List.mem_append.mp hc with hc | hc
  · exact List.all_eq_true.mp hfront c hc
  · rcases List.mem_append.mp hc with hc | hc
    · obtain ⟨hlt, hsafe⟩ := asciiFallback_safe U _ hname.safe c hc
      have hne := ne_of_not_isUnsafe c hsafe
      simp [isPlain, hlt, hne.2.2.1, hne.2.2.2.1]
    · rcases List.mem_append.mp hc with hc | hc
      · exact List.all_eq_true.mp hmiddle c hc
      · exact isPlain_quote _ c hc

/-- **The header names the file.** Read as a header, it is `inline` with two parameters: the
sanitized name, encoded and read back character by character, and its fallback, which is the same
exactly when it may be. The header is ASCII on one line, the name is safe, and a stored name is
kept exactly when it is. -/
theorem disposition_names_file (filename : Option Text)
    (hletters : ∀ c ∈ "download".toList, U.isSpace c = false) :
    (∃ extended, Header.read (contentDispositionInline U filename) = some ("inline".toList,
        [("filename".toList, asciiFallbackFilename U (sanitizeDownloadFilename U filename)),
          ("filename*".toList, extended)]) ∧
      Header.readExtended extended = some (sanitizeDownloadFilename U filename)) ∧
    (asciiFallbackFilename U (sanitizeDownloadFilename U filename) =
        sanitizeDownloadFilename U filename ↔
      ∀ c ∈ sanitizeDownloadFilename U filename, c.toNat < 128 ∧ c ≠ ';') ∧
    (∀ c ∈ contentDispositionInline U filename, isPlain c = true) ∧
    SafeName U (sanitizeDownloadFilename U filename) ∧
    ∀ name, sanitizeDownloadFilename U (some name) = name ↔ SafeName U name := by
  have hname := safeName_sanitize U filename hletters
  refine ⟨⟨_, read_contentDisposition U filename hname, Header.readExtended_writeExtended _⟩,
    asciiFallback_eq_iff U _ hname, contentDisposition_plain U filename hname, hname,
    fun name => ⟨fun heq => ?_, sanitize_of_safe U name⟩⟩
  rw [← heq]
  exact safeName_sanitize U (some name) hletters

/-- A Vietnamese name in a folder of another system comes without its folder. -/
theorem disposition_names_file_folder :
    sanitizeDownloadFilename asciiUnicode (some "C:\\bills\\Hóa đơn \"5\".pdf".toList) =
        "Hóa đơn 5.pdf".toList ∧
      SafeName asciiUnicode (sanitizeDownloadFilename asciiUnicode
        (some "C:\\bills\\Hóa đơn \"5\".pdf".toList)) :=
  ⟨by decide, (disposition_names_file asciiUnicode _ fun c hc => by
    have hall : ("download".toList.all fun c => !asciiUnicode.isSpace c) = true := by decide
    exact Bool.not_eq_true' _ ▸ List.all_eq_true.mp hall c hc).2.2.2.1⟩

end LamTo.Analysis
