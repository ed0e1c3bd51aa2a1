import Mathlib.Data.List.Basic

/-!
# Comma-separated rows

A `CsvFormat` names the four characters that carry the structure of a file: the delimiter of
the fields, the quote, and the two characters of a line end. A field that holds one of them is
written between quotes, its own quotes doubled; a row is its fields joined by the delimiter,
with a line end after it. A row of one empty field is written as two quotes, so that it is not
an empty row.

The reader goes over the file character by character. Its state says where in a row it is; the
field and the row that are being read, and the rows that were read before, stand beside it. A
carriage return has to be followed by another line end character, and anything may stand
between quotes. What was written is read back, whatever characters the fields hold.
-/

set_option autoImplicit false

namespace LamTo.Library

variable {α : Type} [DecidableEq α]

/-- The characters that carry the structure of a file. -/
structure CsvFormat (α : Type) where
  delimiter : α
  quote : α
  cr : α
  lf : α
  quote_ne_delimiter : quote ≠ delimiter
  cr_ne_delimiter : cr ≠ delimiter
  lf_ne_delimiter : lf ≠ delimiter
  cr_ne_quote : cr ≠ quote
  lf_ne_quote : lf ≠ quote
  lf_ne_cr : lf ≠ cr

namespace CsvFormat

variable (f : CsvFormat α)

/-! ## The writer -/

/-- A character for which its field is quoted. -/
def special (c : α) : Bool := c = f.delimiter || c = f.quote || c = f.cr || c = f.lf

def doubled (field : List α) : List α :=
  field.flatMap fun c => if c = f.quote then [f.quote, f.quote] else [c]

def quoted (field : List α) : List α := f.quote :: f.doubled field ++ [f.quote]

def writeField (field : List α) : List α :=
  if field.any f.special then f.quoted field else field

def writeFields : List (List α) → List α
  | [] => []
  | [field] => f.writeField field
  | field :: fields => f.writeField field ++ f.delimiter :: writeFields fields

/-- `csv.writer(...).writerow(row)` in the `excel` dialect -/
def writeRow (row : List (List α)) : List α :=
  (if row = [[]] then f.quoted [] else f.writeFields row) ++ [f.cr, f.lf]

def writeRows (rows : List (List (List α))) : List α := rows.flatMap f.writeRow

end CsvFormat

/-! ## The reader -/

/-- Where in a row the reader is. -/
inductive CsvPlace where
  | startRow
  | startField
  | inField
  | inQuoted
  | quoteInQuoted
  | afterReturn
deriving DecidableEq

/-- The place, the field and the row that are being read, and the rows that were read. -/
structure CsvReader (α : Type) where
  place : CsvPlace
  field : List α
  row : List (List α)
  rows : List (List (List α))
deriving DecidableEq

namespace CsvReader

def start (rows : List (List (List α))) : CsvReader α := ⟨.startRow, [], [], rows⟩

def add (r : CsvReader α) (c : α) : CsvReader α := { r with field := r.field ++ [c] }

def go (r : CsvReader α) (place : CsvPlace) : CsvReader α := { r with place := place }

def saveField (r : CsvReader α) : CsvReader α :=
  { r with field := [], row := r.row ++ [r.field] }

def endRow (r : CsvReader α) : CsvReader α := start (r.rows ++ [r.row])

/-- The end of the file: a row that was begun is a row. -/
def eof (r : CsvReader α) : List (List (List α)) :=
  match r.place with
  | .startRow => r.rows
  | .afterReturn => r.rows ++ [r.row]
  | _ => r.rows ++ [r.saveField.row]

end CsvReader

namespace CsvFormat

variable (f : CsvFormat α)

/-- A character that may end a field that is not in quotes. -/
def readEnd (r : CsvReader α) (c : α) : Option (CsvReader α) :=
  if c = f.delimiter then some (r.saveField.go .startField)
  else if c = f.cr then some (r.saveField.go .afterReturn)
  else if c = f.lf then some r.saveField.endRow
  else none

def readStart (r : CsvReader α) (c : α) : CsvReader α :=
  if c = f.quote then r.go .inQuoted
  else (f.readEnd r c).getD ((r.add c).go .inField)

/-- One character of the file; a character after a lone carriage return is an error. -/
def readChar (r : CsvReader α) (c : α) : Option (CsvReader α) :=
  match r.place with
  | .startRow =>
    if c = f.cr then some (r.go .afterReturn)
    else if c = f.lf then some r.endRow
    else some (f.readStart r c)
  | .startField => some (f.readStart r c)
  | .inField => some ((f.readEnd r c).getD (r.add c))
  | .inQuoted => if c = f.quote then some (r.go .quoteInQuoted) else some (r.add c)
  | .quoteInQuoted =>
    if c = f.quote then some ((r.add c).go .inQuoted)
    else some ((f.readEnd r c).getD ((r.add c).go .inField))
  | .afterReturn =>
    if c = f.lf then some r.endRow else if c = f.cr then some r else none

/-- `list(csv.reader(file))`, `none` for the error of the reader -/
def readRows (file : List α) : Option (List (List (List α))) :=
  (file.foldlM f.readChar (CsvReader.start [])).map CsvReader.eof

/-! ## Reading what was written -/

variable {f}

@[simp] theorem not_special {c : α} : f.special c = false ↔
    c ≠ f.delimiter ∧ c ≠ f.quote ∧ c ≠ f.cr ∧ c ≠ f.lf := by
  simp only [special, Bool.or_eq_false_iff, decide_eq_false_iff_not]
  tauto

theorem readEnd_plain {c : α} (h : f.special c = false) (r : CsvReader α) :
    f.readEnd r c = none := by
  obtain ⟨hdelimiter, _, hcr, hlf⟩ := not_special.mp h
  simp only [readEnd, hdelimiter, hcr, hlf, if_false]

/-- What ends a written field: the delimiter before the next one, or the line end. -/
def EndsField (f : CsvFormat α) (c : α) : Prop := c = f.delimiter ∨ c = f.cr

omit [DecidableEq α] in
theorem EndsField.ne_quote {c : α} (h : f.EndsField c) : c ≠ f.quote := by
  rcases h with rfl | rfl
  · exact f.quote_ne_delimiter.symm
  · exact f.cr_ne_quote

/-- Where the reader is after the end of a field. -/
def afterEnd (f : CsvFormat α) (c : α) : CsvPlace :=
  if c = f.delimiter then .startField else .afterReturn

theorem EndsField.readEnd {c : α} (h : f.EndsField c) (r : CsvReader α) :
    f.readEnd r c = some (r.saveField.go (f.afterEnd c)) := by
  rcases h with rfl | rfl
  · simp only [CsvFormat.readEnd, afterEnd, if_true]
  · simp only [CsvFormat.readEnd, afterEnd, f.cr_ne_delimiter, if_true, if_false]

/-- Plain characters are added to an unquoted field. -/
theorem read_plain (field : List α) (h : ∀ c ∈ field, f.special c = false) (r : CsvReader α)
    (hr : r.place = .inField) (rest : List α) :
    (field ++ rest).foldlM f.readChar r =
      rest.foldlM f.readChar { r with field := r.field ++ field } := by
  induction field generalizing r with
  | nil => rw [List.append_nil, List.nil_append]
  | cons c field ih =>
    have hstep : f.readChar r c = some (r.add c) := by
      simp only [readChar, hr, readEnd_plain (h c List.mem_cons_self), Option.getD_none]
    rw [List.cons_append, List.foldlM_cons, hstep, Option.bind_eq_bind, Option.bind_some,
      ih (fun d hd => h d (List.mem_cons_of_mem c hd)) (r.add c) hr]
    simp only [CsvReader.add, List.append_assoc, List.singleton_append]

/-- Between quotes every character is added, a doubled quote as one. -/
theorem read_doubled (field : List α) (r : CsvReader α) (hr : r.place = .inQuoted)
    (rest : List α) :
    (f.doubled field ++ rest).foldlM f.readChar r =
      rest.foldlM f.readChar { r with field := r.field ++ field } := by
  induction field generalizing r with
  | nil => rw [doubled, List.flatMap_nil, List.append_nil, List.nil_append]
  | cons c field ih =>
    have hnext := ih (r.add c) hr
    simp only [CsvReader.add, List.append_assoc, List.singleton_append] at hnext
    rw [doubled, List.flatMap_cons, List.append_assoc]
    by_cases hc : c = f.quote
    · have hfirst : f.readChar r f.quote = some (r.go .quoteInQuoted) := by
        simp only [readChar, hr, if_true]
      have hsecond : f.readChar (r.go .quoteInQuoted) f.quote = some (r.add f.quote) := by
        simp only [readChar, CsvReader.go, CsvReader.add, if_true, ← hr]
      subst hc
      simp only [if_true, List.cons_append, List.nil_append, List.foldlM_cons, hfirst, hsecond,
        Option.bind_eq_bind, Option.bind_some]
      exact hnext
    · have hstep : f.readChar r c = some (r.add c) := by
        simp only [readChar, hr, hc, if_false]
      simp only [hc, if_false, List.cons_append, List.nil_append, List.foldlM_cons, hstep,
        Option.bind_eq_bind, Option.bind_some]
      exact hnext

/-- A quoted field and what ends it, at the beginning of a field. -/
theorem read_quoted (field : List α) (r : CsvReader α)
    (hr : r.place = .startRow ∨ r.place = .startField) (hfield : r.field = []) (c : α)
    (hc : f.EndsField c) (rest : List α) :
    (f.quoted field ++ c :: rest).foldlM f.readChar r =
      rest.foldlM f.readChar ⟨f.afterEnd c, [], r.row ++ [field], r.rows⟩ := by
  have hopen : f.readChar r f.quote = some (r.go .inQuoted) := by
    rcases hr with hr | hr
    · simp only [readChar, hr, f.cr_ne_quote.symm, f.lf_ne_quote.symm, if_false, readStart, if_true]
    · simp only [readChar, hr, readStart, if_true]
  have hclose : ∀ s : CsvReader α, s.place = .inQuoted →
      f.readChar s f.quote = some (s.go .quoteInQuoted) := by
    intro s hs
    simp only [readChar, hs, if_true]
  have hend : ∀ s : CsvReader α, s.place = .quoteInQuoted →
      f.readChar s c = some (s.saveField.go (f.afterEnd c)) := by
    intro s hs
    simp only [readChar, hs, hc.ne_quote, if_false, hc.readEnd, Option.getD_some]
  simp only [quoted, List.cons_append, List.append_assoc, List.nil_append]
  rw [List.foldlM_cons, hopen, Option.bind_eq_bind, Option.bind_some,
    read_doubled field _ rfl, List.foldlM_cons, hclose _ rfl, Option.bind_eq_bind,
    Option.bind_some, List.foldlM_cons, hend _ rfl, Option.bind_eq_bind, Option.bind_some]
  simp only [CsvReader.go, CsvReader.saveField, hfield, List.nil_append]

/-- A plain field and what ends it, at the beginning of a field; at the beginning of a row the
field must not be empty, or the end must be a delimiter. -/
theorem read_unquoted (field : List α) (h : ∀ c ∈ field, f.special c = false) (r : CsvReader α)
    (hfield : r.field = []) (c : α) (hc : f.EndsField c)
    (hr : r.place = .startField ∨ r.place = .startRow ∧ (field ≠ [] ∨ c = f.delimiter))
    (rest : List α) :
    (field ++ c :: rest).foldlM f.readChar r =
      rest.foldlM f.readChar ⟨f.afterEnd c, [], r.row ++ [field], r.rows⟩ := by
  cases field with
  | nil =>
    have hstep : f.readChar r c = some (r.saveField.go (f.afterEnd c)) := by
      have hstart : f.readStart r c = r.saveField.go (f.afterEnd c) := by
        simp only [readStart, hc.ne_quote, if_false, hc.readEnd, Option.getD_some]
      rcases hr with hr | ⟨hr, hne | hdelimiter⟩
      · simp only [readChar, hr, hstart]
      · exact absurd rfl hne
      · have hcr : c ≠ f.cr := hdelimiter ▸ f.cr_ne_delimiter.symm
        have hlf : c ≠ f.lf := hdelimiter ▸ f.lf_ne_delimiter.symm
        simp only [readChar, hr, hcr, hlf, if_false, hstart]
    rw [List.nil_append, List.foldlM_cons, hstep, Option.bind_eq_bind, Option.bind_some]
    simp only [CsvReader.go, CsvReader.saveField, hfield]
  | cons d field =>
    have hd := h d List.mem_cons_self
    obtain ⟨_, hquote, hcr, hlf⟩ := not_special.mp hd
    have hstart : f.readStart r d = (r.add d).go .inField := by
      simp only [readStart, hquote, if_false, readEnd_plain hd, Option.getD_none]
    have hstep : f.readChar r d = some ((r.add d).go .inField) := by
      rcases hr with hr | ⟨hr, -⟩
      · simp only [readChar, hr, hstart]
      · simp only [readChar, hr, hcr, hlf, if_false, hstart]
    have hend : ∀ s : CsvReader α, s.place = .inField →
        f.readChar s c = some (s.saveField.go (f.afterEnd c)) := by
      intro s hs
      simp only [readChar, hs, hc.readEnd, Option.getD_some]
    rw [List.cons_append, List.foldlM_cons, hstep, Option.bind_eq_bind, Option.bind_some,
      read_plain field (fun e he => h e (List.mem_cons_of_mem d he)) _ rfl, List.foldlM_cons,
      hend _ rfl, Option.bind_eq_bind, Option.bind_some]
    simp only [CsvReader.go, CsvReader.add, CsvReader.saveField, hfield, List.nil_append,
      List.singleton_append]

/-- A written field and what ends it. -/
theorem read_field (field : List α) (r : CsvReader α) (hfield : r.field = []) (c : α)
    (hc : f.EndsField c)
    (hr : r.place = .startField ∨ r.place = .startRow ∧ (field ≠ [] ∨ c = f.delimiter))
    (rest : List α) :
    (f.writeField field ++ c :: rest).foldlM f.readChar r =
      rest.foldlM f.readChar ⟨f.afterEnd c, [], r.row ++ [field], r.rows⟩ := by
  unfold writeField
  split
  · exact read_quoted field r (hr.symm.imp (fun h => h.1) id) hfield c hc rest
  · rename_i hplain
    rw [Bool.not_eq_true, List.any_eq_false] at hplain
    refine read_unquoted field (fun d hd => ?_) r hfield c hc hr rest
    exact Bool.eq_false_iff.mpr (hplain d hd)

/-- The written fields of a row and its line end, from the beginning of a field on. -/
theorem read_fields (fields : List (List α)) (hne : fields ≠ []) (r : CsvReader α)
    (hfield : r.field = []) (hr : r.place = .startField ∨ r.place = .startRow ∧ fields ≠ [[]])
    (rest : List α) :
    (f.writeFields fields ++ f.cr :: rest).foldlM f.readChar r =
      rest.foldlM f.readChar ⟨.afterReturn, [], r.row ++ fields, r.rows⟩ := by
  induction fields generalizing r with
  | nil => exact absurd rfl hne
  | cons field fields ih =>
    cases fields with
    | nil =>
      have hplace : r.place = .startField ∨
          r.place = .startRow ∧ (field ≠ [] ∨ f.cr = f.delimiter) :=
        hr.imp_right fun h => ⟨h.1, Or.inl fun he => h.2 (by rw [he])⟩
      have hafter : f.afterEnd f.cr = .afterReturn := if_neg f.cr_ne_delimiter
      rw [writeFields, read_field field r hfield f.cr (Or.inr rfl) hplace rest, hafter]
    | cons next fields =>
      have hplace : r.place = .startField ∨
          r.place = .startRow ∧ (field ≠ [] ∨ f.delimiter = f.delimiter) :=
        hr.imp_right fun h => ⟨h.1, Or.inr rfl⟩
      have hafter : f.afterEnd f.delimiter = .startField := if_pos rfl
      rw [writeFields, List.append_assoc, List.cons_append,
        read_field field r hfield f.delimiter (Or.inl rfl) hplace, hafter,
        ih (List.cons_ne_nil _ _) _ rfl (Or.inl rfl), List.append_assoc, List.singleton_append]
      exact fun h => by cases h

/-- **A written row is read as one row.** -/
theorem read_row (row : List (List α)) (rows : List (List (List α))) (rest : List α) :
    (f.writeRow row ++ rest).foldlM f.readChar (CsvReader.start rows) =
      rest.foldlM f.readChar (CsvReader.start (rows ++ [row])) := by
  have hafter : ∀ r : List (List α), f.readChar ⟨.afterReturn, [], r, rows⟩ f.lf =
      some (CsvReader.start (rows ++ [r])) := by
    intro r
    simp only [readChar, if_true, CsvReader.endRow]
  unfold writeRow
  rw [List.append_assoc, List.cons_append, List.cons_append, List.nil_append]
  split
  · rename_i hempty
    have hreturn : f.afterEnd f.cr = .afterReturn := if_neg f.cr_ne_delimiter
    rw [read_quoted [] (CsvReader.start rows) (Or.inl rfl) rfl f.cr (Or.inr rfl), hreturn,
      List.foldlM_cons]
    simp only [CsvReader.start, List.nil_append]
    rw [hafter, hempty]
    rfl
  · rename_i hempty
    cases row with
    | nil =>
      have hreturn : f.readChar (CsvReader.start rows) f.cr =
          some ⟨.afterReturn, [], [], rows⟩ := by
        simp only [readChar, CsvReader.start, if_true, CsvReader.go]
      rw [writeFields, List.nil_append, List.foldlM_cons, hreturn, Option.bind_eq_bind,
        Option.bind_some, List.foldlM_cons, hafter]
      rfl
    | cons field fields =>
      rw [read_fields (field :: fields) (List.cons_ne_nil _ _) (CsvReader.start rows) rfl
        (Or.inr ⟨rfl, hempty⟩), List.foldlM_cons]
      simp only [CsvReader.start, List.nil_append] at hafter ⊢
      rw [hafter]
      rfl

/-- **What was written is read back**, whatever the fields hold. -/
theorem readRows_writeRows (f : CsvFormat α) (rows : List (List (List α))) :
    f.readRows (f.writeRows rows) = some rows := by
  have hread : ∀ before : List (List (List α)),
      (f.writeRows rows).foldlM f.readChar (CsvReader.start before) =
        some (CsvReader.start (before ++ rows)) := by
    induction rows with
    | nil =>
      intro before
      rw [List.append_nil]
      rfl
    | cons row rows ih =>
      intro before
      rw [writeRows, List.flatMap_cons, read_row, ← writeRows, ih, List.append_assoc,
        List.singleton_append]
  rw [readRows, hread, Option.map_some]
  rfl

end CsvFormat

end LamTo.Library
