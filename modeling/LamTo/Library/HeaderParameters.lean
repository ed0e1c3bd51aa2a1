import LamTo.Library.PercentEncoding

/-!
# The parameters of a header

The value of a header is a word and a list of parameters, each after a semicolon: a name, an
equals sign, and a word or a quoted text, in which a backslash takes the next character as it is.
A value may also name a character set and a language and go on percent-encoded (`readExtended`).

What is written parameter by parameter is read back, as long as the names are words and a quoted
text holds no quote and no backslash.
-/

set_option autoImplicit false

namespace LamTo.Library.Header

/-- A character of a word. -/
def isWordChar (c : Char) : Bool := c.isAlphanum || c ∈ "!#$%&'*+-.^_`|~".toList

def isBlank (c : Char) : Bool := c = ' ' || c = '\t'

/-! ## The reader -/

/-- The text up to the closing quote, and what follows it. -/
def readQuoted : Text → Option (Text × Text)
  | [] => none
  | '"' :: t => some ([], t)
  | '\\' :: c :: t => (readQuoted t).map fun r => (c :: r.1, r.2)
  | c :: t => (readQuoted t).map fun r => (c :: r.1, r.2)

def readWord (t : Text) : Text × Text := (t.takeWhile isWordChar, t.dropWhile isWordChar)

def readValue : Text → Option (Text × Text)
  | '"' :: t => readQuoted t
  | t => some (readWord t)

/-- One parameter, and what follows it. -/
def readParameter (t : Text) : Option ((Text × Text) × Text) :=
  match readWord (t.dropWhile isBlank) with
  | (name, '=' :: t) => (readValue t).map fun r => ((name, r.1), r.2)
  | _ => none

/-- The parameters; `n` is at least the number of characters. -/
def readParameters : ℕ → Text → Option (List (Text × Text))
  | _, [] => some []
  | 0, _ :: _ => none
  | n + 1, c :: t =>
    if c = ';' then
      (readParameter t).bind fun r => (readParameters n (r.2.dropWhile isBlank)).map (r.1 :: ·)
    else none

/-- The word of a header and its parameters. -/
def read (t : Text) : Option (Text × List (Text × Text)) :=
  (readParameters (readWord t).2.length (readWord t).2).map fun ps => ((readWord t).1, ps)

/-- The quote that stands twice in an extended value. -/
def apostrophe : Char := Char.ofNat 39

/-- The text of an extended value in UTF-8, whatever its language is. -/
def readExtended (t : Text) : Option Text :=
  if (t.takeWhile (· ≠ apostrophe)).map Char.toLower = "utf-8".toList then
    Percent.unquote ((((t.dropWhile (· ≠ apostrophe)).drop 1).dropWhile (· ≠ apostrophe)).drop 1)
  else none

/-! ## The writer -/

def writeQuoted (name value : Text) : Text :=
  "; ".toList ++ (name ++ ("=\"".toList ++ (value ++ "\"".toList)))

def writeWord (name value : Text) : Text := "; ".toList ++ (name ++ ('=' :: value))

/-! ## Reading back -/

theorem isWordChar_of_isUnreserved (c : Char) (h : Percent.isUnreserved c = true) :
    isWordChar c = true := by
  simp only [Percent.isUnreserved, Bool.or_eq_true, decide_eq_true_eq] at h
  rcases h with (((h | rfl) | rfl) | rfl) | rfl
  · rw [isWordChar, h, Bool.true_or]
  all_goals decide

theorem not_isWordChar_equals : isWordChar '=' = false := by decide

theorem not_isBlank_of_isWordChar (c : Char) (h : isWordChar c = true) : isBlank c = false := by
  rw [isBlank, Bool.or_eq_false_iff, decide_eq_false_iff_not, decide_eq_false_iff_not]
  constructor
  · rintro rfl
    revert h
    decide
  · rintro rfl
    revert h
    decide

theorem readWord_append (word t : Text) (hword : ∀ c ∈ word, isWordChar c = true)
    (ht : ∀ c ∈ t.head?, isWordChar c = false) : readWord (word ++ t) = (word, t) := by
  have hdrop : t.dropWhile isWordChar = t := by
    cases t with
    | nil => rfl
    | cons c t => exact List.dropWhile_cons_of_neg (by rw [ht c rfl]; exact Bool.false_ne_true)
  have htake : t.takeWhile isWordChar = [] := by
    cases t with
    | nil => rfl
    | cons c t => exact List.takeWhile_cons_of_neg (by rw [ht c rfl]; exact Bool.false_ne_true)
  rw [readWord, List.takeWhile_append_of_pos hword, List.dropWhile_append_of_pos hword, htake,
    hdrop, List.append_nil]

theorem readQuoted_append (value t : Text) (h : ∀ c ∈ value, c ≠ '"' ∧ c ≠ '\\') :
    readQuoted (value ++ '"' :: t) = some (value, t) := by
  induction value with
  | nil => rw [List.nil_append, readQuoted]
  | cons c value ih =>
    obtain ⟨hquote, hback⟩ := h c List.mem_cons_self
    have ih := ih fun d hd => h d (List.mem_cons_of_mem c hd)
    rw [List.cons_append, readQuoted, ih]
    · rfl
    · exact fun heq => hquote heq
    · exact fun _ _ heq => absurd heq hback

/-- A parameter is read behind a blank. -/
theorem readParameter_append (name value written t : Text)
    (hname : ∀ c ∈ name, isWordChar c = true) (hne : name ≠ [])
    (hvalue : readValue (written ++ t) = some (value, t)) :
    readParameter (' ' :: (name ++ ('=' :: (written ++ t)))) = some ((name, value), t) := by
  have hblank : (' ' :: (name ++ ('=' :: (written ++ t)))).dropWhile isBlank =
      name ++ ('=' :: (written ++ t)) := by
    rw [List.dropWhile_cons_of_pos (by decide)]
    obtain ⟨c, rest, rfl⟩ := List.exists_cons_of_ne_nil hne
    rw [List.cons_append, List.dropWhile_cons_of_neg]
    rw [not_isBlank_of_isWordChar c (hname c List.mem_cons_self)]
    exact Bool.false_ne_true
  have hword : readWord (name ++ ('=' :: (written ++ t))) = (name, '=' :: (written ++ t)) :=
    readWord_append _ _ hname fun c hc => by
      rw [← Option.some.inj hc]
      exact not_isWordChar_equals
  rw [readParameter, hblank, hword]
  exact congrArg (Option.map fun r => ((name, r.1), r.2)) hvalue

/-- No blank stands between two parameters. -/
theorem dropWhile_isBlank (t : Text) (ht : ∀ c ∈ t.head?, c = ';') : t.dropWhile isBlank = t := by
  cases t with
  | nil => rfl
  | cons c t =>
    obtain rfl := ht c rfl
    exact List.dropWhile_cons_of_neg (by decide)

theorem readParameters_append (n : ℕ) (name value written t : Text)
    (hname : ∀ c ∈ name, isWordChar c = true) (hne : name ≠ [])
    (ht : ∀ c ∈ t.head?, c = ';') (hvalue : readValue (written ++ t) = some (value, t)) :
    readParameters (n + 1) (';' :: ' ' :: (name ++ ('=' :: (written ++ t)))) =
      (readParameters n t).map ((name, value) :: ·) := by
  rw [readParameters, if_pos rfl, readParameter_append name value written t hname hne hvalue,
    Option.bind_some, dropWhile_isBlank t ht]

/-- **A quoted parameter is read back**, and reading goes on behind it. -/
theorem readParameters_writeQuoted (n : ℕ) (name value t : Text)
    (hname : ∀ c ∈ name, isWordChar c = true) (hne : name ≠ [])
    (hvalue : ∀ c ∈ value, c ≠ '"' ∧ c ≠ '\\') (ht : ∀ c ∈ t.head?, c = ';') :
    readParameters (n + 1) (writeQuoted name value ++ t) =
      (readParameters n t).map ((name, value) :: ·) := by
  have hwritten : writeQuoted name value ++ t =
      ';' :: ' ' :: (name ++ ('=' :: (('"' :: (value ++ ['"'])) ++ t))) := by
    simp [writeQuoted]
  rw [hwritten]
  refine readParameters_append n name value _ t hname hne ht ?_
  rw [List.cons_append, List.append_assoc, readValue, List.singleton_append]
  exact readQuoted_append value t hvalue

/-- **A word is read back**, and reading goes on behind it. -/
theorem readParameters_writeWord (n : ℕ) (name value t : Text)
    (hname : ∀ c ∈ name, isWordChar c = true) (hne : name ≠ [])
    (hvalue : ∀ c ∈ value, isWordChar c = true) (hvalue' : value ≠ [])
    (ht : ∀ c ∈ t.head?, c = ';') :
    readParameters (n + 1) (writeWord name value ++ t) =
      (readParameters n t).map ((name, value) :: ·) := by
  have hwritten : writeWord name value ++ t =
      ';' :: ' ' :: (name ++ ('=' :: (value ++ t))) := by
    simp [writeWord]
  rw [hwritten]
  refine readParameters_append n name value value t hname hne ht ?_
  obtain ⟨c, rest, rfl⟩ := List.exists_cons_of_ne_nil hvalue'
  have hc : c ≠ '"' := by
    rintro rfl
    have := hvalue '"' List.mem_cons_self
    revert this
    decide
  rw [List.cons_append, readValue, ← List.cons_append, readWord_append _ _ hvalue]
  · intro d hd
    obtain rfl := ht d hd
    decide
  · exact fun _ heq => hc (List.cons.inj heq).1

/-- A text in UTF-8 and of no language. -/
def writeExtended (t : Text) : Text :=
  "UTF-8".toList ++ (apostrophe :: apostrophe :: Percent.quote t)

theorem readExtended_writeExtended (t : Text) : readExtended (writeExtended t) = some t := by
  have hcharset : ∀ c ∈ "UTF-8".toList, decide (c ≠ apostrophe) = true :=
    List.all_eq_true.mp (by decide)
  have hstop (rest : Text) : (apostrophe :: rest).takeWhile (· ≠ apostrophe) = [] :=
    List.takeWhile_cons_of_neg (by decide)
  have hgo (rest : Text) : (apostrophe :: rest).dropWhile (· ≠ apostrophe) = apostrophe :: rest :=
    List.dropWhile_cons_of_neg (by decide)
  rw [readExtended, writeExtended, List.takeWhile_append_of_pos hcharset, hstop, List.append_nil,
    if_pos (by decide), List.dropWhile_append_of_pos hcharset, hgo, List.drop_succ_cons,
    List.drop_zero, hgo, List.drop_succ_cons, List.drop_zero, Percent.unquote_quote]

/-- **A header of a quoted parameter and a word is read back.** -/
theorem read_quoted_word (word name value name' value' : Text)
    (hword : ∀ c ∈ word, isWordChar c = true) (hname : ∀ c ∈ name, isWordChar c = true)
    (hne : name ≠ []) (hvalue : ∀ c ∈ value, c ≠ '"' ∧ c ≠ '\\')
    (hname' : ∀ c ∈ name', isWordChar c = true) (hne' : name' ≠ [])
    (hvalue' : ∀ c ∈ value', isWordChar c = true) (hvalue'' : value' ≠ []) :
    read (word ++ (writeQuoted name value ++ (writeWord name' value' ++ []))) =
      some (word, [(name, value), (name', value')]) := by
  have hhead (t : Text) : ∀ c ∈ (writeWord name' t).head?, c = ';' :=
    fun c hc => (Option.some.inj hc).symm
  have hread : readWord (word ++ (writeQuoted name value ++ (writeWord name' value' ++ []))) =
      (word, writeQuoted name value ++ (writeWord name' value' ++ [])) :=
    readWord_append _ _ hword fun c hc => by
      obtain rfl : c = ';' := (Option.some.inj hc).symm
      decide
  obtain ⟨n, hn⟩ : ∃ n, (writeQuoted name value ++ (writeWord name' value' ++ [])).length =
      n + 1 + 1 := by
    refine ⟨(writeQuoted name value ++ (writeWord name' value' ++ [])).length - 2, ?_⟩
    have hlength : 2 ≤ (writeQuoted name value).length := by
      simp [writeQuoted]
    rw [List.length_append]
    omega
  rw [read, hread]
  dsimp only
  rw [hn, readParameters_writeQuoted _ name value _ hname hne hvalue,
    readParameters_writeWord _ name' value' [] hname' hne' hvalue' hvalue'']
  · cases n <;> rfl
  · exact fun c hc => by cases hc
  · rw [List.append_nil]
    exact hhead value'

/-- An extended value is a word. -/
theorem isWordChar_writeExtended (t : Text) (c : Char) (h : c ∈ writeExtended t) :
    isWordChar c = true := by
  have hcharset : ∀ c ∈ "UTF-8".toList, isWordChar c = true := List.all_eq_true.mp (by decide)
  rcases List.mem_append.mp h with h | h
  · exact hcharset c h
  · rcases List.mem_cons.mp h with rfl | h
    · decide
    · rcases List.mem_cons.mp h with rfl | h
      · decide
      · rcases Percent.mem_quote t c h with hc | rfl
        · exact isWordChar_of_isUnreserved c hc
        · decide

end LamTo.Library.Header
