import Mathlib.Data.List.Basic
import Mathlib.Data.List.Sort
import Mathlib.Data.List.Nodup
import Mathlib.Data.Char

/-!
# JSON values and their compact text

`Json` is a JSON value as a parser returns it: arrays and objects are lists, and an
object keeps the order its members were written in. `dumps` is the compact writer with
sorted keys, no blanks and no escapes beyond the mandatory ones; `loads` is the parser,
blanks, escapes, fractions and exponents included.

A number with a fraction or an exponent is kept as its literal (`float`): nothing here
computes with it. A `Char` is a Unicode scalar value, so a text with a lone surrogate has
no counterpart, and `loads` refuses the escape that would produce one.

Structural recursion over the nested lists goes through three functions each time, one
for values, one for elements and one for members.
-/

set_option autoImplicit false

namespace LamTo.Library

/-- A text: the sequence of its code points. -/
abbrev Text := List Char

inductive Json where
  | null
  | bool (b : Bool)
  | int (i : Int)
  | float (lit : Text)
  | str (s : Text)
  | arr (xs : List Json)
  | obj (ms : List (Text × Json))

namespace Json

/-! ## Objects as dictionaries -/

/-- Assignment to a key: the value of an existing key is replaced where it stands, a new
key goes to the end. -/
def assign (k : Text) (v : Json) : List (Text × Json) → List (Text × Json)
  | [] => [(k, v)]
  | (k', v') :: ms => if k' = k then (k, v) :: ms else (k', v') :: assign k v ms

/-- The members of an object text, repeated keys resolved to their last value. -/
def ofPairs (ps : List (Text × Json)) : List (Text × Json) :=
  ps.foldl (fun ms p => assign p.1 p.2 ms) []

/-! ## Key order -/

/-- Texts are compared code point by code point. -/
def textLt (s t : Text) : Prop := List.Lex (fun x y : Char => x < y) s t

instance : DecidableRel textLt := fun s t =>
  inferInstanceAs (Decidable (List.Lex (fun x y : Char => x < y) s t))

def keyLe (a b : Text × Json) : Prop := ¬ textLt b.1 a.1

instance : DecidableRel keyLe := fun a b => inferInstanceAs (Decidable (¬ textLt b.1 a.1))

mutual
/-- The same value with the members of every object in key order. -/
def sortKeys : Json → Json
  | .arr xs => .arr (sortElements xs)
  | .obj ms => .obj ((sortMembers ms).insertionSort keyLe)
  | .null => .null
  | .bool b => .bool b
  | .int i => .int i
  | .float lit => .float lit
  | .str s => .str s
def sortElements : List Json → List Json
  | [] => []
  | x :: xs => sortKeys x :: sortElements xs
def sortMembers : List (Text × Json) → List (Text × Json)
  | [] => []
  | (k, v) :: ms => (k, sortKeys v) :: sortMembers ms
end

/-! ## The writer -/

/-- The escapes of a writer that leaves non-ASCII text alone: the quotation mark, the
backslash and the control characters, the latter by their short form where they have one. -/
def escape (c : Char) : Text :=
  if c = '"' then ['\\', '"']
  else if c = '\\' then ['\\', '\\']
  else if c = '\n' then ['\\', 'n']
  else if c = '\r' then ['\\', 'r']
  else if c = '\t' then ['\\', 't']
  else if c = '\x08' then ['\\', 'b']
  else if c = '\x0c' then ['\\', 'f']
  else if c.toNat < 32 then
    ['\\', 'u', '0', '0', Nat.digitChar (c.toNat / 16), Nat.digitChar (c.toNat % 16)]
  else [c]

def quote (s : Text) : Text := '"' :: (s.flatMap escape ++ ['"'])

def renderInt : Int → Text
  | .ofNat n => Nat.toDigits 10 n
  | .negSucc n => '-' :: Nat.toDigits 10 (n + 1)

mutual
/-- The compact text of a value, its objects in the order they have. -/
def render : Json → Text
  | .null => ['n', 'u', 'l', 'l']
  | .bool true => ['t', 'r', 'u', 'e']
  | .bool false => ['f', 'a', 'l', 's', 'e']
  | .int i => renderInt i
  | .float lit => lit
  | .str s => quote s
  | .arr [] => ['[', ']']
  | .arr (x :: xs) => '[' :: (render x ++ renderElements xs)
  | .obj [] => ['{', '}']
  | .obj ((k, v) :: ms) => '{' :: (quote k ++ ':' :: (render v ++ renderMembers ms))
/-- The elements after the first, with the closing bracket. -/
def renderElements : List Json → Text
  | [] => [']']
  | x :: xs => ',' :: (render x ++ renderElements xs)
/-- The members after the first, with the closing brace. -/
def renderMembers : List (Text × Json) → Text
  | [] => ['}']
  | (k, v) :: ms => ',' :: (quote k ++ ':' :: (render v ++ renderMembers ms))
end

/-- The compact text with sorted keys. -/
def dumps (j : Json) : Text := render (sortKeys j)

/-! ## The parser -/

def isBlank (c : Char) : Bool := c = ' ' || c = '\t' || c = '\n' || c = '\r'

def skipBlanks (cs : Text) : Text := cs.dropWhile isBlank

def hexValue (c : Char) : Option ℕ :=
  if '0' ≤ c ∧ c ≤ '9' then some (c.toNat - '0'.toNat)
  else if 'a' ≤ c ∧ c ≤ 'f' then some (c.toNat - 'a'.toNat + 10)
  else if 'A' ≤ c ∧ c ≤ 'F' then some (c.toNat - 'A'.toNat + 10)
  else none

def hex4 (a b c d : Char) : Option ℕ := do
  let a ← hexValue a
  let b ← hexValue b
  let c ← hexValue c
  let d ← hexValue d
  pure (((a * 16 + b) * 16 + c) * 16 + d)

def simpleEscape (c : Char) : Option Char :=
  if c = '"' then some '"'
  else if c = '\\' then some '\\'
  else if c = '/' then some '/'
  else if c = 'n' then some '\n'
  else if c = 'r' then some '\r'
  else if c = 't' then some '\t'
  else if c = 'b' then some '\x08'
  else if c = 'f' then some '\x0c'
  else none

/-- The character a `\u` escape of value `n` stands for, and what is left after it: a
high surrogate needs the low one right behind it. -/
def unicodeEscape (n : ℕ) (cs : Text) : Option (Char × Text) :=
  if 0xd800 ≤ n ∧ n < 0xdc00 then
    match cs with
    | '\\' :: 'u' :: a :: b :: c :: d :: cs =>
      match hex4 a b c d with
      | some lo =>
        if 0xdc00 ≤ lo ∧ lo < 0xe000 then
          some (Char.ofNat (0x10000 + (n - 0xd800) * 0x400 + (lo - 0xdc00)), cs)
        else none
      | none => none
    | _ => none
  else if 0xdc00 ≤ n ∧ n < 0xe000 then none
  else some (Char.ofNat n, cs)

/-- The rest of a string after its opening quotation mark. -/
def parseString : ℕ → Text → Option (Text × Text)
  | 0, _ => none
  | _ + 1, [] => none
  | n + 1, c :: cs =>
    if c = '"' then some ([], cs)
    else if c = '\\' then
      match cs with
      | 'u' :: a :: b :: c :: d :: cs => do
        let (e, cs) ← unicodeEscape (← hex4 a b c d) cs
        let (s, cs) ← parseString n cs
        pure (e :: s, cs)
      | c :: cs => do
        let e ← simpleEscape c
        let (s, cs) ← parseString n cs
        pure (e :: s, cs)
      | [] => none
    else if c.toNat < 32 then none
    else do
      let (s, cs) ← parseString n cs
      pure (c :: s, cs)

def spanDigits (cs : Text) : Text × Text :=
  (cs.takeWhile Char.isDigit, cs.dropWhile Char.isDigit)

/-- The fraction at the head of a text, if there is one. -/
def parseFraction : Text → Text × Text
  | '.' :: cs =>
    match spanDigits cs with
    | ([], _) => ([], '.' :: cs)
    | (ds, rest) => ('.' :: ds, rest)
  | cs => ([], cs)

/-- The exponent at the head of a text, if there is one. -/
def parseExponent : Text → Text × Text
  | e :: cs =>
    if e = 'e' ∨ e = 'E' then
      let (sign, cs') := match cs with
        | '+' :: cs' => (['+'], cs')
        | '-' :: cs' => (['-'], cs')
        | _ => ([], cs)
      match spanDigits cs' with
      | ([], _) => ([], e :: cs)
      | (ds, rest) => (e :: (sign ++ ds), rest)
    else ([], e :: cs)
  | [] => ([], [])

/-- The digits before the point: zero, or digits that do not start with a zero. -/
def integerPart : Text → Text × Text
  | '0' :: cs => (['0'], cs)
  | cs => spanDigits cs

/-- An unsigned number: an integer unless a fraction or an exponent follows the digits. -/
def parseUnsigned (neg : Bool) (cs : Text) : Option (Json × Text) :=
  let (ds, cs) := integerPart cs
  if ds = [] then none
  else
    let (frac, cs) := parseFraction cs
    let (exp, cs) := parseExponent cs
    if frac = [] ∧ exp = [] then
      let n : Int := Nat.ofDigitChars 10 ds 0
      some (.int (if neg then -n else n), cs)
    else some (.float ((if neg then ['-'] else []) ++ ds ++ frac ++ exp), cs)

def parseNumber : Text → Option (Json × Text)
  | '-' :: cs => parseUnsigned true cs
  | cs => parseUnsigned false cs

/-- The constants, and the three words that stand for numbers no decimal denotes. -/
def parseWord (cs : Text) : Option (Json × Text) :=
  match cs with
  | 'n' :: 'u' :: 'l' :: 'l' :: cs => some (.null, cs)
  | 't' :: 'r' :: 'u' :: 'e' :: cs => some (.bool true, cs)
  | 'f' :: 'a' :: 'l' :: 's' :: 'e' :: cs => some (.bool false, cs)
  | 'N' :: 'a' :: 'N' :: cs => some (.float ['N', 'a', 'N'], cs)
  | 'I' :: 'n' :: 'f' :: 'i' :: 'n' :: 'i' :: 't' :: 'y' :: cs =>
    some (.float ['I', 'n', 'f', 'i', 'n', 'i', 't', 'y'], cs)
  | '-' :: 'I' :: 'n' :: 'f' :: 'i' :: 'n' :: 'i' :: 't' :: 'y' :: cs =>
    some (.float ['-', 'I', 'n', 'f', 'i', 'n', 'i', 't', 'y'], cs)
  | cs => parseNumber cs

mutual
/-- A value at the head of a text, with what is left. The fuel bounds the depth of calls;
the length of the text is always enough. -/
def parseValue : ℕ → Text → Option (Json × Text)
  | 0, _ => none
  | n + 1, cs =>
    match skipBlanks cs with
    | '"' :: cs => (parseString n cs).map fun p => (.str p.1, p.2)
    | '[' :: cs =>
      match skipBlanks cs with
      | ']' :: cs => some (.arr [], cs)
      | cs => do
        let (x, cs) ← parseValue n cs
        let (xs, cs) ← parseElements n cs
        pure (.arr (x :: xs), cs)
    | '{' :: cs =>
      match skipBlanks cs with
      | '}' :: cs => some (.obj [], cs)
      | cs => do
        let (m, cs) ← parseMember n cs
        let (ms, cs) ← parseMembers n cs
        pure (.obj (ofPairs (m :: ms)), cs)
    | cs => parseWord cs
def parseElements : ℕ → Text → Option (List Json × Text)
  | 0, _ => none
  | n + 1, cs =>
    match skipBlanks cs with
    | ']' :: cs => some ([], cs)
    | ',' :: cs => do
      let (x, cs) ← parseValue n cs
      let (xs, cs) ← parseElements n cs
      pure (x :: xs, cs)
    | _ => none
def parseMember : ℕ → Text → Option ((Text × Json) × Text)
  | 0, _ => none
  | n + 1, cs =>
    match skipBlanks cs with
    | '"' :: cs => do
      let (k, cs) ← parseString n cs
      match skipBlanks cs with
      | ':' :: cs => do
        let (v, cs) ← parseValue n cs
        pure ((k, v), cs)
      | _ => none
    | _ => none
def parseMembers : ℕ → Text → Option (List (Text × Json) × Text)
  | 0, _ => none
  | n + 1, cs =>
    match skipBlanks cs with
    | '}' :: cs => some ([], cs)
    | ',' :: cs => do
      let (m, cs) ← parseMember n cs
      let (ms, cs) ← parseMembers n cs
      pure (m :: ms, cs)
    | _ => none
end

/-- The value of a whole text; `none` is the parser's error. -/
def loads (cs : Text) : Option Json :=
  match parseValue (cs.length + 1) cs with
  | some (j, rest) => if skipBlanks rest = [] then some j else none
  | none => none

end Json

end LamTo.Library
