import LamTo.Library.Json

/-!
# The writer and the parser are inverse

`Plain` values are those the writer is meant for: no float literal, and no object with a
key twice. `loads_render` says the parser reads the text of a plain value back to that
value, member order included, so the text determines the value.

`denote` forgets the order of members: an object becomes a partial function from keys.
Two plain values have the same denotation exactly when their sorted forms are equal
(`sortKeys_eq_iff_denote_eq`), hence exactly when `dumps` writes the same text.
-/

set_option autoImplicit false

namespace LamTo.Library.Json

mutual
/-- No float literal, and in every object the keys are distinct. -/
def Plain : Json → Prop
  | .float _ => False
  | .arr xs => PlainElements xs
  | .obj ms => (ms.map Prod.fst).Nodup ∧ PlainMembers ms
  | .null => True
  | .bool _ => True
  | .int _ => True
  | .str _ => True
def PlainElements : List Json → Prop
  | [] => True
  | x :: xs => Plain x ∧ PlainElements xs
def PlainMembers : List (Text × Json) → Prop
  | [] => True
  | (_, v) :: ms => Plain v ∧ PlainMembers ms
end

theorem plainElements_iff (xs : List Json) : PlainElements xs ↔ ∀ x ∈ xs, Plain x := by
  induction xs with
  | nil => simp [PlainElements]
  | cons x xs ih => simp [PlainElements, ih]

theorem plainMembers_iff (ms : List (Text × Json)) :
    PlainMembers ms ↔ ∀ m ∈ ms, Plain m.2 := by
  induction ms with
  | nil => simp [PlainMembers]
  | cons m ms ih =>
    obtain ⟨k, v⟩ := m
    simp [PlainMembers, ih]

/-! ## Strings -/

theorem hexValue_digitChar (d : ℕ) (h : d < 16) : hexValue (Nat.digitChar d) = some d := by
  have hall : ∀ d < 16, hexValue (Nat.digitChar d) = some d := by decide
  exact hall d h

/-- What the parser makes of one written character. -/
theorem parseString_escape (c : Char) (n : ℕ) (r : Text) :
    parseString (n + 1) (escape c ++ r) = (parseString n r).map fun p => (c :: p.1, p.2) := by
  have hmap : ∀ e : Char, ((parseString n r).bind fun p => some (e :: p.1, p.2)) =
      (parseString n r).map fun p => (e :: p.1, p.2) := by
    intro e
    cases parseString n r <;> rfl
  unfold escape
  split_ifs with h1 h2 h3 h4 h5 h6 h7 h8
  · subst h1; simpa [parseString, simpleEscape] using hmap '"'
  · subst h2; simpa [parseString, simpleEscape] using hmap '\\'
  · subst h3; simpa [parseString, simpleEscape] using hmap '\n'
  · subst h4; simpa [parseString, simpleEscape] using hmap '\r'
  · subst h5; simpa [parseString, simpleEscape] using hmap '\t'
  · subst h6; simpa [parseString, simpleEscape] using hmap '\x08'
  · subst h7; simpa [parseString, simpleEscape] using hmap '\x0c'
  · have hhex : hex4 '0' '0' (Nat.digitChar (c.toNat / 16)) (Nat.digitChar (c.toNat % 16)) =
        some c.toNat := by
      have h0 : hexValue '0' = some 0 := by decide
      simp only [hex4, h0, hexValue_digitChar _ (by omega : c.toNat / 16 < 16),
        hexValue_digitChar _ (by omega : c.toNat % 16 < 16)]
      simp only [Option.pure_def, Option.bind_eq_bind, Option.bind_some, Option.some.injEq]
      omega
    have hchar : unicodeEscape c.toNat r = some (c, r) := by
      unfold unicodeEscape
      rw [if_neg (by omega), if_neg (by omega), Char.ofNat_toNat]
    simp only [List.cons_append, List.nil_append, parseString]
    simpa [hhex, hchar] using hmap c
  · simp only [List.cons_append, List.nil_append, parseString, h1, h2, h8, if_false]
    exact hmap c

/-- One character of a string is at least one character of its text. -/
theorem one_le_escape_length (c : Char) : 1 ≤ (escape c).length := by
  unfold escape
  split_ifs <;> simp

theorem parseString_quoted (s r : Text) (n : ℕ) (hn : (s.flatMap escape).length < n) :
    parseString n (s.flatMap escape ++ '"' :: r) = some (s, r) := by
  induction s generalizing n with
  | nil =>
    obtain ⟨n, rfl⟩ : ∃ m, n = m + 1 := ⟨n - 1, by omega⟩
    simp [parseString]
  | cons c s ih =>
    have hc := one_le_escape_length c
    simp only [List.flatMap_cons, List.length_append] at hn
    obtain ⟨n, rfl⟩ : ∃ m, n = m + 1 := ⟨n - 1, by omega⟩
    rw [List.flatMap_cons, List.append_assoc, parseString_escape, ih n (by omega)]
    rfl

/-! ## Numbers -/

/-- What may follow a number without becoming part of it. -/
def EndsNumber (r : Text) : Prop :=
  ∀ c ∈ r.head?, c.isDigit = false ∧ c ≠ '.' ∧ c ≠ 'e' ∧ c ≠ 'E'

theorem endsNumber_nil : EndsNumber [] := by simp [EndsNumber]

theorem endsNumber_cons (c : Char) (r : Text)
    (h : c.isDigit = false ∧ c ≠ '.' ∧ c ≠ 'e' ∧ c ≠ 'E') : EndsNumber (c :: r) := by
  intro c' hc'
  simp only [List.head?_cons, Option.mem_some_iff] at hc'
  exact hc' ▸ h

theorem spanDigits_append (ds r : Text) (hd : ∀ c ∈ ds, c.isDigit = true)
    (hr : EndsNumber r) : spanDigits (ds ++ r) = (ds, r) := by
  have htake : r.takeWhile Char.isDigit = [] := by
    cases r with
    | nil => rfl
    | cons c r => simp [(hr c rfl).1]
  have hdrop : r.dropWhile Char.isDigit = r := by
    cases r with
    | nil => rfl
    | cons c r => simp [(hr c rfl).1]
  simp only [spanDigits, List.takeWhile_append_of_pos hd, List.dropWhile_append_of_pos hd,
    htake, hdrop, List.append_nil]

theorem parseFraction_of_endsNumber (r : Text) (hr : EndsNumber r) :
    parseFraction r = ([], r) := by
  unfold parseFraction
  split
  · exact absurd rfl (hr '.' rfl).2.1
  · rfl

theorem parseExponent_of_endsNumber (r : Text) (hr : EndsNumber r) :
    parseExponent r = ([], r) := by
  cases r with
  | nil => rfl
  | cons c r =>
    obtain ⟨-, -, he, hE⟩ := hr c rfl
    simp [parseExponent, he, hE]

/-- Only zero has a decimal text that starts with the digit zero. -/
theorem toDigits_head_ne_zero (n : ℕ) (hn : 0 < n) :
    ∃ d ds, Nat.toDigits 10 n = d :: ds ∧ d ≠ '0' := by
  induction n using Nat.base_induction 10 (by decide) with
  | single m hm =>
    refine ⟨m.digitChar, [], Nat.toDigits_of_lt_base hm, ?_⟩
    have hall : ∀ m < 10, 0 < m → m.digitChar ≠ '0' := by decide
    exact hall m hm hn
  | digit m k hk hm ih =>
    obtain ⟨d, ds, hds, hd⟩ := ih hm
    refine ⟨d, ds ++ Nat.toDigits 10 k, ?_, hd⟩
    rw [← Nat.toDigits_append_toDigits (by decide) hm hk, hds, List.cons_append]

theorem integerPart_toDigits (n : ℕ) (r : Text) (hr : EndsNumber r) :
    integerPart (Nat.toDigits 10 n ++ r) = (Nat.toDigits 10 n, r) := by
  rcases Nat.eq_zero_or_pos n with rfl | hn
  · rfl
  · obtain ⟨d, ds, hds, hd⟩ := toDigits_head_ne_zero n hn
    have hsplit := spanDigits_append (Nat.toDigits 10 n) r (fun c hc =>
      Nat.isDigit_of_mem_toDigits (by decide) (by decide) hc) hr
    rw [hds, List.cons_append] at hsplit ⊢
    unfold integerPart
    split
    · next h => exact absurd (List.cons.inj h).1 hd
    · exact hsplit

theorem parseUnsigned_toDigits (neg : Bool) (n : ℕ) (r : Text) (hr : EndsNumber r) :
    parseUnsigned neg (Nat.toDigits 10 n ++ r) =
      some (.int (if neg then -(n : Int) else n), r) := by
  unfold parseUnsigned
  rw [integerPart_toDigits n r hr]
  simp [parseFraction_of_endsNumber r hr, parseExponent_of_endsNumber r hr,
    Nat.toDigits_ne_nil]

/-- The first character of a decimal text is a digit. -/
theorem toDigits_cons (n : ℕ) : ∃ d ds, Nat.toDigits 10 n = d :: ds ∧ d.isDigit = true := by
  cases h : Nat.toDigits 10 n with
  | nil => exact absurd h Nat.toDigits_ne_nil
  | cons d ds =>
    refine ⟨d, ds, rfl, Nat.isDigit_of_mem_toDigits (b := 10) (n := n) (by decide) (by decide) ?_⟩
    rw [h]
    exact List.mem_cons_self

/-- A digit starts none of the other tokens. -/
theorem isDigit_ne (d : Char) (hd : d.isDigit = true) :
    d ≠ '"' ∧ d ≠ '[' ∧ d ≠ '{' ∧ d ≠ ']' ∧ d ≠ 'n' ∧ d ≠ 't' ∧ d ≠ 'f' ∧ d ≠ 'N' ∧ d ≠ 'I' ∧
      d ≠ '-' ∧ isBlank d = false := by
  refine ⟨?_, ?_, ?_, ?_, ?_, ?_, ?_, ?_, ?_, ?_, ?_⟩
  case refine_11 =>
    rw [Bool.eq_false_iff]
    intro h
    simp only [isBlank, Bool.or_eq_true, decide_eq_true_eq] at h
    rcases h with ((rfl | rfl) | rfl) | rfl <;> revert hd <;> decide
  all_goals rintro rfl; revert hd; decide

theorem parseWord_renderInt (i : Int) (r : Text) (hr : EndsNumber r) :
    parseWord (renderInt i ++ r) = some (.int i, r) := by
  cases i with
  | ofNat n =>
    obtain ⟨d, ds, hds, hd⟩ := toDigits_cons n
    have hparse := parseUnsigned_toDigits false n r hr
    obtain ⟨-, -, -, -, hn, ht, hf, hN, hI, hm, -⟩ := isDigit_ne d hd
    simp only [renderInt, hds, List.cons_append] at hparse ⊢
    unfold parseWord
    split <;> simp_all [parseNumber]
  | negSucc n =>
    obtain ⟨d, ds, hds, hd⟩ := toDigits_cons (n + 1)
    have hparse := parseUnsigned_toDigits true (n + 1) r hr
    obtain ⟨-, -, -, -, -, -, -, -, hI, -, -⟩ := isDigit_ne d hd
    simp only [renderInt, hds, List.cons_append] at hparse ⊢
    unfold parseWord
    split <;> simp_all [parseNumber]
    omega

/-! ## Values -/

/-- A rendered value starts with a character that is neither a blank nor a closing bracket. -/
theorem render_cons (j : Json) (hj : Plain j) :
    ∃ c cs, render j = c :: cs ∧ isBlank c = false ∧ c ≠ ']' := by
  cases j with
  | null => exact ⟨'n', _, rfl, rfl, by decide⟩
  | bool b => cases b <;> exact ⟨_, _, rfl, rfl, by decide⟩
  | int i =>
    cases i with
    | ofNat n =>
      obtain ⟨d, ds, hds, hd⟩ := toDigits_cons n
      obtain ⟨-, -, -, hb, -, -, -, -, -, -, hblank⟩ := isDigit_ne d hd
      exact ⟨d, ds, by simpa [render, renderInt] using hds, hblank, hb⟩
    | negSucc n => exact ⟨'-', _, rfl, rfl, by decide⟩
  | float lit => exact absurd hj (by simp [Plain])
  | str s => exact ⟨'"', _, rfl, rfl, by decide⟩
  | arr xs => cases xs <;> exact ⟨'[', _, rfl, rfl, by decide⟩
  | obj ms =>
    cases ms with
    | nil => exact ⟨'{', _, rfl, rfl, by decide⟩
    | cons m ms => obtain ⟨k, v⟩ := m; exact ⟨'{', _, rfl, rfl, by decide⟩

theorem skipBlanks_cons (c : Char) (cs : Text) (h : isBlank c = false) :
    skipBlanks (c :: cs) = c :: cs := by
  simp [skipBlanks, h]

/-- Assigning keys that do not occur yet appends them. -/
theorem assign_of_not_mem (k : Text) (v : Json) (ms : List (Text × Json))
    (h : k ∉ ms.map Prod.fst) : assign k v ms = ms ++ [(k, v)] := by
  induction ms with
  | nil => rfl
  | cons m ms ih =>
    obtain ⟨k', v'⟩ := m
    simp only [List.map_cons, List.mem_cons, not_or] at h
    simp [assign, Ne.symm h.1, ih h.2]

/-- Assigning members with keys of their own appends them. -/
theorem foldl_assign_of_nodup (acc qs : List (Text × Json)) (h : ((acc ++ qs).map Prod.fst).Nodup) :
    qs.foldl (fun ms p => assign p.1 p.2 ms) acc = acc ++ qs := by
  induction qs generalizing acc with
  | nil => simp
  | cons q qs ih =>
    have hq : q.1 ∉ acc.map Prod.fst := by
      simp only [List.map_append, List.map_cons] at h
      exact fun hmem => (List.nodup_append.mp h).2.2 q.1 hmem q.1 List.mem_cons_self rfl
    rw [List.foldl_cons, assign_of_not_mem _ _ _ hq, ih (acc ++ [q]) (by simpa using h)]
    simp

theorem ofPairs_of_nodup (ps : List (Text × Json)) (h : (ps.map Prod.fst).Nodup) :
    ofPairs ps = ps := by
  simpa [ofPairs] using foldl_assign_of_nodup [] ps (by simpa using h)

/-- The text of one member. -/
def renderMember (k : Text) (v : Json) : Text := quote k ++ ':' :: render v

/-- What the four parsers do on rendered text with fuel for its length. -/
structure Reads (n : ℕ) : Prop where
  value : ∀ j r, Plain j → EndsNumber r → (render j).length ≤ n →
    parseValue n (render j ++ r) = some (j, r)
  elements : ∀ xs r, PlainElements xs → (renderElements xs).length ≤ n →
    parseElements n (renderElements xs ++ r) = some (xs, r)
  member : ∀ k v r, Plain v → EndsNumber r → (renderMember k v).length ≤ n →
    parseMember n (renderMember k v ++ r) = some ((k, v), r)
  members : ∀ ms r, PlainMembers ms → (renderMembers ms).length ≤ n →
    parseMembers n (renderMembers ms ++ r) = some (ms, r)

/-- A closing bracket or a comma ends a number, and so does the rest of a list. -/
theorem endsNumber_renderElements (xs : List Json) (r : Text) :
    EndsNumber (renderElements xs ++ r) := by
  cases xs <;> exact endsNumber_cons _ _ (by decide)

theorem endsNumber_renderMembers (ms : List (Text × Json)) (r : Text) :
    EndsNumber (renderMembers ms ++ r) := by
  cases ms <;> exact endsNumber_cons _ _ (by decide)

section Fuel

variable {n : ℕ}

theorem reads_value (ih : Reads n) (j : Json) (r : Text) (hj : Plain j) (hr : EndsNumber r)
    (hlen : (render j).length ≤ n + 1) :
    parseValue (n + 1) (render j ++ r) = some (j, r) := by
  cases j with
  | null => rfl
  | bool b => cases b <;> rfl
  | int i =>
    obtain ⟨c, cs, hc, hblank, -⟩ := render_cons (.int i) hj
    have hword := parseWord_renderInt i r hr
    simp only [render] at hc ⊢
    rw [hc, List.cons_append] at hword ⊢
    simp only [parseValue, skipBlanks_cons c _ hblank]
    split
    · next h => simp [(List.cons.inj h).1, parseWord, parseNumber, parseUnsigned, integerPart,
        spanDigits] at hword
    · next h => simp [(List.cons.inj h).1, parseWord, parseNumber, parseUnsigned, integerPart,
        spanDigits] at hword
    · next h => simp [(List.cons.inj h).1, parseWord, parseNumber, parseUnsigned, integerPart,
        spanDigits] at hword
    · exact hword
  | float lit => exact absurd hj (by simp [Plain])
  | str s =>
    simp only [render, quote, List.length_cons, List.length_append, List.length_nil] at hlen
    simp only [render, quote, List.cons_append, List.append_assoc, List.nil_append, parseValue,
      skipBlanks_cons '"' _ rfl]
    rw [parseString_quoted s r n (by omega)]
    rfl
  | arr xs =>
    cases xs with
    | nil => rfl
    | cons x xs =>
      simp only [Plain, PlainElements] at hj
      simp only [render, List.length_cons, List.length_append] at hlen
      obtain ⟨c, cs, hc, hblank, hbracket⟩ := render_cons x hj.1
      have hx := ih.value x (renderElements xs ++ r) hj.1 (endsNumber_renderElements xs r)
        (by omega)
      have hxs := ih.elements xs r hj.2 (by omega)
      simp only [render, List.cons_append, List.append_assoc, parseValue,
        skipBlanks_cons '[' _ rfl]
      rw [hc, List.cons_append] at hx ⊢
      rw [skipBlanks_cons c _ hblank]
      split
      · next h => exact absurd (List.cons.inj h).1 hbracket
      · simp [hx, hxs]
  | obj ms =>
    cases ms with
    | nil => rfl
    | cons m ms =>
      obtain ⟨k, v⟩ := m
      simp only [Plain, PlainMembers] at hj
      simp only [render, List.length_cons, List.length_append] at hlen
      have hm := ih.member k v (renderMembers ms ++ r) hj.2.1 (endsNumber_renderMembers ms r)
        (by simp only [renderMember, List.length_append, List.length_cons]; omega)
      have hms := ih.members ms r hj.2.2 (by omega)
      simp only [renderMember, quote, List.cons_append, List.append_assoc,
        List.nil_append] at hm
      simp only [render, quote, List.cons_append, List.append_assoc, List.nil_append, parseValue,
        skipBlanks_cons '{' _ rfl, skipBlanks_cons '"' _ rfl]
      simp [hm, hms, ofPairs_of_nodup _ hj.1]

theorem reads_elements (ih : Reads n) (xs : List Json) (r : Text) (hxs : PlainElements xs)
    (hlen : (renderElements xs).length ≤ n + 1) :
    parseElements (n + 1) (renderElements xs ++ r) = some (xs, r) := by
  cases xs with
  | nil => rfl
  | cons x xs =>
    simp only [PlainElements] at hxs
    simp only [renderElements, List.length_cons, List.length_append] at hlen
    have hx := ih.value x (renderElements xs ++ r) hxs.1 (endsNumber_renderElements xs r)
      (by omega)
    have htail := ih.elements xs r hxs.2 (by omega)
    simp only [renderElements, List.cons_append, List.append_assoc, parseElements,
      skipBlanks_cons ',' _ rfl]
    simp [hx, htail]

theorem reads_member (ih : Reads n) (k : Text) (v : Json) (r : Text) (hv : Plain v)
    (hr : EndsNumber r) (hlen : (renderMember k v).length ≤ n + 1) :
    parseMember (n + 1) (renderMember k v ++ r) = some ((k, v), r) := by
  simp only [renderMember, quote, List.length_cons, List.length_append, List.length_nil] at hlen
  have hvalue := ih.value v r hv hr (by omega)
  have hkey := parseString_quoted k (':' :: (render v ++ r)) n (by omega)
  simp only [renderMember, quote, List.cons_append, List.append_assoc, List.nil_append,
    parseMember, skipBlanks_cons '"' _ rfl]
  simp [hkey, skipBlanks_cons ':' _ rfl, hvalue]

theorem reads_members (ih : Reads n) (ms : List (Text × Json)) (r : Text)
    (hms : PlainMembers ms) (hlen : (renderMembers ms).length ≤ n + 1) :
    parseMembers (n + 1) (renderMembers ms ++ r) = some (ms, r) := by
  cases ms with
  | nil => rfl
  | cons m ms =>
    obtain ⟨k, v⟩ := m
    simp only [PlainMembers] at hms
    simp only [renderMembers, List.length_cons, List.length_append] at hlen
    have hm := ih.member k v (renderMembers ms ++ r) hms.1 (endsNumber_renderMembers ms r)
      (by simp only [renderMember, List.length_append, List.length_cons]; omega)
    have htail := ih.members ms r hms.2 (by omega)
    simp only [renderMember, List.append_assoc, List.cons_append] at hm
    simp only [renderMembers, List.cons_append, List.append_assoc, parseMembers,
      skipBlanks_cons ',' _ rfl]
    simp [hm, htail]

end Fuel

theorem reads (n : ℕ) : Reads n := by
  induction n with
  | zero =>
    -- no rendered text is empty
    refine ⟨?_, ?_, ?_, ?_⟩
    · intro j r hj _ hlen
      obtain ⟨c, cs, hc, -⟩ := render_cons j hj
      simp [hc] at hlen
    · intro xs r _ hlen
      cases xs <;> simp [renderElements] at hlen
    · intro k v r _ _ hlen
      simp [renderMember] at hlen
    · intro ms r _ hlen
      cases ms <;> simp [renderMembers] at hlen
  | succ n ih => exact ⟨reads_value ih, reads_elements ih, reads_member ih, reads_members ih⟩

/-- **The parser inverts the writer** on plain values, member order included. -/
theorem loads_render (j : Json) (hj : Plain j) : loads (render j) = some j := by
  have hread := (reads ((render j).length + 1)).value j [] hj endsNumber_nil (by omega)
  rw [List.append_nil] at hread
  simp [loads, hread, skipBlanks]

/-! ## Sorted keys -/

theorem sortElements_eq_map (xs : List Json) : sortElements xs = xs.map sortKeys := by
  induction xs with
  | nil => rfl
  | cons x xs ih => simp [sortElements, ih]

theorem sortMembers_eq_map (ms : List (Text × Json)) :
    sortMembers ms = ms.map fun m => (m.1, sortKeys m.2) := by
  induction ms with
  | nil => rfl
  | cons m ms ih => simp [sortMembers, ih]

theorem sortMembers_keys (ms : List (Text × Json)) :
    (sortMembers ms).map Prod.fst = ms.map Prod.fst := by
  simp [sortMembers_eq_map, Function.comp_def]

/-- The order of keys is the order of lists of characters. -/
theorem keyLe_iff (a b : Text × Json) : keyLe a b ↔ @LE.le (List Char) List.instLE a.1 b.1 :=
  Iff.rfl

instance : IsTrans (Text × Json) keyLe := ⟨fun a b c hab hbc => by
  rw [keyLe_iff] at hab hbc ⊢
  exact List.le_trans hab hbc⟩

instance : Std.Total keyLe := ⟨fun a b => by
  rw [keyLe_iff, keyLe_iff]
  exact List.le_total a.1 b.1⟩

/-- In a list with distinct keys the key determines the member. -/
theorem eq_of_key_eq {α : Type} (ms : List (Text × α)) (h : (ms.map Prod.fst).Nodup)
    (a b : Text × α) (ha : a ∈ ms) (hb : b ∈ ms) (hab : a.1 = b.1) : a = b :=
  List.inj_on_of_nodup_map h ha hb hab

/-- Two lists of members with distinct keys and the same members sort to the same list. -/
theorem insertionSort_eq_of_mem_iff (ms ns : List (Text × Json)) (hms : (ms.map Prod.fst).Nodup)
    (hns : (ns.map Prod.fst).Nodup) (h : ∀ m, m ∈ ms ↔ m ∈ ns) :
    ms.insertionSort keyLe = ns.insertionSort keyLe := by
  have hperm : ms.Perm ns :=
    (List.perm_ext_iff_of_nodup hms.of_map hns.of_map).mpr h
  refine List.Perm.eq_of_pairwise ?_ (List.pairwise_insertionSort keyLe ms)
    (List.pairwise_insertionSort keyLe ns)
    ((List.perm_insertionSort _ ms).trans (hperm.trans (List.perm_insertionSort _ ns).symm))
  intro a b ha hb hab hba
  rw [List.mem_insertionSort] at ha hb
  rw [keyLe_iff] at hab hba
  exact eq_of_key_eq ms hms a b ha ((h b).mpr hb) (List.le_antisymm hab hba)

mutual
theorem plain_sortKeys : ∀ j : Json, Plain j → Plain (sortKeys j)
  | .null, _ => trivial
  | .bool _, _ => trivial
  | .int _, _ => trivial
  | .str _, _ => trivial
  | .float _, h => h
  | .arr xs, h => plain_sortElements xs h
  | .obj ms, h => by
    have hperm := List.perm_insertionSort keyLe (sortMembers ms)
    refine ⟨(hperm.map Prod.fst).nodup_iff.mpr (by rw [sortMembers_keys]; exact h.1), ?_⟩
    rw [plainMembers_iff]
    intro m hm
    exact (plainMembers_iff _).mp (plain_sortMembers ms h.2) m ((List.mem_insertionSort keyLe).mp hm)
theorem plain_sortElements : ∀ xs : List Json, PlainElements xs → PlainElements (sortElements xs)
  | [], _ => trivial
  | x :: xs, h => ⟨plain_sortKeys x h.1, plain_sortElements xs h.2⟩
theorem plain_sortMembers :
    ∀ ms : List (Text × Json), PlainMembers ms → PlainMembers (sortMembers ms)
  | [], _ => trivial
  | (_, v) :: ms, h => ⟨plain_sortKeys v h.1, plain_sortMembers ms h.2⟩
end

/-- **The compact text determines the sorted value.** -/
theorem loads_dumps (j : Json) (hj : Plain j) : loads (dumps j) = some (sortKeys j) :=
  loads_render (sortKeys j) (plain_sortKeys j hj)

/-! ## The value behind the text -/

/-- A JSON value without the order of its members: an object is the partial function it
defines on keys. -/
inductive Tree where
  | null
  | bool (b : Bool)
  | int (i : Int)
  | float (lit : Text)
  | str (s : Text)
  | arr (xs : List Tree)
  | obj (f : Text → Option Tree)

mutual
def denote : Json → Tree
  | .null => .null
  | .bool b => .bool b
  | .int i => .int i
  | .float lit => .float lit
  | .str s => .str s
  | .arr xs => .arr (denoteElements xs)
  | .obj ms => .obj (denoteMembers ms)
def denoteElements : List Json → List Tree
  | [] => []
  | x :: xs => denote x :: denoteElements xs
def denoteMembers : List (Text × Json) → Text → Option Tree
  | [], _ => none
  | (k, v) :: ms, k' => if k' = k then some (denote v) else denoteMembers ms k'
end

theorem denoteElements_eq_map (xs : List Json) : denoteElements xs = xs.map denote := by
  induction xs with
  | nil => rfl
  | cons x xs ih => simp [denoteElements, ih]

/-- With distinct keys, the function an object denotes is its graph. -/
theorem denoteMembers_eq_some (ms : List (Text × Json)) (h : (ms.map Prod.fst).Nodup)
    (k : Text) (t : Tree) :
    denoteMembers ms k = some t ↔ ∃ v, (k, v) ∈ ms ∧ denote v = t := by
  induction ms with
  | nil => simp [denoteMembers]
  | cons m ms ih =>
    obtain ⟨k', v'⟩ := m
    simp only [List.map_cons, List.nodup_cons] at h
    by_cases hk : k = k'
    · subst hk
      simp only [denoteMembers, if_true, Option.some.injEq, List.mem_cons, Prod.mk.injEq,
        true_and]
      constructor
      · rintro rfl; exact ⟨v', Or.inl rfl, rfl⟩
      · rintro ⟨v, rfl | hv, rfl⟩
        · rfl
        · exact absurd (List.mem_map_of_mem (f := Prod.fst) hv) h.1
    · simp [denoteMembers, hk, ih h.2]

theorem denoteMembers_append (ms ns : List (Text × Json)) (k : Text) :
    denoteMembers (ms ++ ns) k = (denoteMembers ms k).or (denoteMembers ns k) := by
  induction ms with
  | nil => rfl
  | cons m ms ih =>
    obtain ⟨k', v'⟩ := m
    simp only [List.cons_append, denoteMembers]
    split
    · rfl
    · exact ih

theorem denoteMembers_eq_none (ms : List (Text × Json)) (k : Text) (h : k ∉ ms.map Prod.fst) :
    denoteMembers ms k = none := by
  induction ms with
  | nil => rfl
  | cons m ms ih =>
    obtain ⟨k', v'⟩ := m
    simp only [List.map_cons, List.mem_cons, not_or] at h
    rw [denoteMembers, if_neg h.1, ih h.2]

theorem denoteMembers_filter (p : Text → Bool) (ms : List (Text × Json)) (k : Text) :
    denoteMembers (ms.filter fun m => p m.1) k = if p k then denoteMembers ms k else none := by
  induction ms with
  | nil => simp [denoteMembers]
  | cons m ms ih =>
    obtain ⟨k', v'⟩ := m
    by_cases hk : k = k'
    · subst hk
      by_cases hp : p k = true
      · simp [hp, denoteMembers]
      · simp [hp, ih]
    · by_cases hp : p k' = true
      · simp [hp, denoteMembers, hk, ih]
      · simp [hp, denoteMembers, hk, ih]

/-- **An overlay of part of the keys.** Where `f` holds the members come from `ms`, elsewhere
from `base`; when `ms` means `base ++ rest` and the keys of `rest` are those where `f` holds,
nothing has changed. -/
theorem denoteMembers_overlay (f : Text → Bool) (base rest ms : List (Text × Json))
    (hbase : ∀ m ∈ base, f m.1 = false) (hrest : ∀ m ∈ rest, f m.1 = true)
    (h : denoteMembers ms = denoteMembers (base ++ rest)) :
    denoteMembers (base ++ ms.filter fun m => f m.1) = denoteMembers (base ++ rest) := by
  funext k
  rw [denoteMembers_append, denoteMembers_append, denoteMembers_filter]
  by_cases hk : f k = true
  · have hnone : denoteMembers base k = none := denoteMembers_eq_none base k fun hmem => by
      obtain ⟨m, hm, rfl⟩ := List.mem_map.mp hmem
      rw [hbase m hm] at hk
      cases hk
    rw [if_pos hk, h, denoteMembers_append, hnone]
    rfl
  · have hnone : denoteMembers rest k = none := denoteMembers_eq_none rest k fun hmem => by
      obtain ⟨m, hm, rfl⟩ := List.mem_map.mp hmem
      exact hk (hrest m hm)
    rw [if_neg hk, hnone]

/-- Objects with distinct keys denote the same function exactly when every member of one
has a member of the other with the same key and denotation. -/
theorem exists_mem_of_denoteMembers_eq (ms ns : List (Text × Json))
    (hms : (ms.map Prod.fst).Nodup) (hns : (ns.map Prod.fst).Nodup)
    (h : denoteMembers ms = denoteMembers ns) (k : Text) (v : Json) (hv : (k, v) ∈ ms) :
    ∃ w, (k, w) ∈ ns ∧ denote w = denote v := by
  have hsome := (denoteMembers_eq_some ms hms k (denote v)).mpr ⟨v, hv, rfl⟩
  rw [h] at hsome
  exact (denoteMembers_eq_some ns hns k (denote v)).mp hsome

mutual
theorem denote_sortKeys : ∀ j : Json, Plain j → denote (sortKeys j) = denote j
  | .null, _ => rfl
  | .bool _, _ => rfl
  | .int _, _ => rfl
  | .str _, _ => rfl
  | .float _, _ => rfl
  | .arr xs, h => congrArg Tree.arr (denote_sortElements xs h)
  | .obj ms, h => by
    have hsorted : (((sortMembers ms).insertionSort keyLe).map Prod.fst).Nodup :=
      (plain_sortKeys (.obj ms) h).1
    refine congrArg Tree.obj (funext fun k => Option.ext fun t => ?_)
    rw [denoteMembers_eq_some _ hsorted, denoteMembers_eq_some _ h.1]
    simp only [List.mem_insertionSort, sortMembers_eq_map, List.mem_map, Prod.mk.injEq]
    have hval := fun v (hv : (k, v) ∈ ms) => denote_sortMembers ms h.2 (k, v) hv
    constructor
    · rintro ⟨_, ⟨⟨k', v⟩, hv, rfl, rfl⟩, rfl⟩
      exact ⟨v, hv, (hval v hv).symm⟩
    · rintro ⟨v, hv, rfl⟩
      exact ⟨sortKeys v, ⟨(k, v), hv, rfl, rfl⟩, hval v hv⟩
theorem denote_sortElements :
    ∀ xs : List Json, PlainElements xs → denoteElements (sortElements xs) = denoteElements xs
  | [], _ => rfl
  | x :: xs, h => by
    simp [sortElements, denoteElements, denote_sortKeys x h.1, denote_sortElements xs h.2]
theorem denote_sortMembers : ∀ ms : List (Text × Json), PlainMembers ms →
    ∀ m ∈ ms, denote (sortKeys m.2) = denote m.2
  | [], _, _, hm => absurd hm (by simp)
  | (_, v) :: ms, h, m, hm => by
    rcases List.mem_cons.mp hm with rfl | hm
    · exact denote_sortKeys v h.1
    · exact denote_sortMembers ms h.2 m hm
end

mutual
/-- Plain values with one denotation have one sorted form. -/
theorem sortKeys_eq_of_denote_eq : ∀ j k : Json, Plain j → Plain k → denote j = denote k →
    sortKeys j = sortKeys k
  | .arr xs, .arr ys, hj, hk, h => by
    simp only [denote, Tree.arr.injEq] at h
    simp only [sortKeys, sortElements_eq_of_denote_eq xs ys hj hk h]
  | .obj ms, .obj ns, hj, hk, h => by
    simp only [denote, Tree.obj.injEq] at h
    simp only [sortKeys, Json.obj.injEq]
    refine insertionSort_eq_of_mem_iff _ _ (by rw [sortMembers_keys]; exact hj.1)
      (by rw [sortMembers_keys]; exact hk.1) fun m => ?_
    have hsort := sortMembers_eq_of_denote_eq ms hj.2
    have hplain := (plainMembers_iff ns).mp hk.2
    simp only [sortMembers_eq_map, List.mem_map]
    constructor
    · rintro ⟨⟨k, v⟩, hv, rfl⟩
      obtain ⟨w, hw, hdw⟩ := exists_mem_of_denoteMembers_eq ms ns hj.1 hk.1 h k v hv
      exact ⟨(k, w), hw, by rw [hsort (k, v) hv w (hplain (k, w) hw) hdw.symm]⟩
    · rintro ⟨⟨k, w⟩, hw, rfl⟩
      obtain ⟨v, hv, hdv⟩ := exists_mem_of_denoteMembers_eq ns ms hk.1 hj.1 h.symm k w hw
      exact ⟨(k, v), hv, by rw [hsort (k, v) hv w (hplain (k, w) hw) hdv]⟩
  | .null, .null, _, _, _ => rfl
  | .bool _, .bool _, _, _, h => by simpa [denote, sortKeys] using h
  | .int _, .int _, _, _, h => by simpa [denote, sortKeys] using h
  | .str _, .str _, _, _, h => by simpa [denote, sortKeys] using h
  | .float _, _, hj, _, _ => absurd hj (by simp [Plain])
  | .null, .bool _, _, _, h | .null, .int _, _, _, h | .null, .str _, _, _, h
  | .null, .float _, _, _, h | .null, .arr _, _, _, h | .null, .obj _, _, _, h
  | .bool _, .null, _, _, h | .bool _, .int _, _, _, h | .bool _, .str _, _, _, h
  | .bool _, .float _, _, _, h | .bool _, .arr _, _, _, h | .bool _, .obj _, _, _, h
  | .int _, .null, _, _, h | .int _, .bool _, _, _, h | .int _, .str _, _, _, h
  | .int _, .float _, _, _, h | .int _, .arr _, _, _, h | .int _, .obj _, _, _, h
  | .str _, .null, _, _, h | .str _, .bool _, _, _, h | .str _, .int _, _, _, h
  | .str _, .float _, _, _, h | .str _, .arr _, _, _, h | .str _, .obj _, _, _, h
  | .arr _, .null, _, _, h | .arr _, .bool _, _, _, h | .arr _, .int _, _, _, h
  | .arr _, .str _, _, _, h | .arr _, .float _, _, _, h | .arr _, .obj _, _, _, h
  | .obj _, .null, _, _, h | .obj _, .bool _, _, _, h | .obj _, .int _, _, _, h
  | .obj _, .str _, _, _, h | .obj _, .float _, _, _, h | .obj _, .arr _, _, _, h =>
    nomatch h
theorem sortElements_eq_of_denote_eq : ∀ xs ys : List Json, PlainElements xs →
    PlainElements ys → denoteElements xs = denoteElements ys → sortElements xs = sortElements ys
  | [], [], _, _, _ => rfl
  | x :: xs, y :: ys, hx, hy, h => by
    simp only [denoteElements, List.cons.injEq] at h
    simp only [sortElements, sortKeys_eq_of_denote_eq x y hx.1 hy.1 h.1,
      sortElements_eq_of_denote_eq xs ys hx.2 hy.2 h.2]
  | [], _ :: _, _, _, h | _ :: _, [], _, _, h => nomatch h
theorem sortMembers_eq_of_denote_eq : ∀ ms : List (Text × Json), PlainMembers ms →
    ∀ m ∈ ms, ∀ w, Plain w → denote m.2 = denote w → sortKeys m.2 = sortKeys w
  | [], _, _, hm, _, _, _ => absurd hm (by simp)
  | (_, v) :: ms, h, m, hm, w, hw, hd => by
    rcases List.mem_cons.mp hm with rfl | hm
    · exact sortKeys_eq_of_denote_eq v w h.1 hw hd
    · exact sortMembers_eq_of_denote_eq ms h.2 m hm w hw hd
end

/-- **The compact text is a faithful encoding**: plain values have the same text exactly
when they denote the same value. -/
theorem dumps_eq_iff_denote_eq (j k : Json) (hj : Plain j) (hk : Plain k) :
    dumps j = dumps k ↔ denote j = denote k := by
  constructor
  · intro h
    have hloads := loads_dumps j hj
    rw [h, loads_dumps k hk, Option.some.injEq] at hloads
    rw [← denote_sortKeys j hj, ← denote_sortKeys k hk, hloads]
  · intro h
    unfold dumps
    rw [sortKeys_eq_of_denote_eq j k hj hk h]

end LamTo.Library.Json
