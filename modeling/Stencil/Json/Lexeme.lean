import Stencil.Json.Number
import Stencil.Text.Numeral

/-!
# Lexemes of a document

The text of a document is a row of *lexemes* with white space between them: punctuation, strings,
numbers and three words. A string with half of a surrogate pair is a lexeme, but it stands for
nothing.

* `Lexeme.atHead?` — the lexeme a text begins with;
* `lexemes?` — the lexemes of a text, if it has no other parts.
-/

namespace Stencil

open Text

/-- A smallest part of a document. -/
inductive Lexeme where
  /-- An opening bracket. -/
  | openArray
  /-- A closing bracket. -/
  | closeArray
  /-- An opening brace. -/
  | openObject
  /-- A closing brace. -/
  | closeObject
  /-- A comma. -/
  | comma
  /-- A colon. -/
  | colon
  /-- A string, with its characters if it has any meaning. -/
  | text (s : Option String)
  /-- A number or a word. -/
  | scalar (v : Json)

namespace Lexeme

/-! ## Strings -/

/-- The value of four hexadecimal digits. -/
def hexWord? (a b c d : Char) : Option Nat := do
  some (((← hexValue? a) * 16 + (← hexValue? b)) * 256 + ((← hexValue? c) * 16 + (← hexValue? d)))

/-- The character a letter stands for after a backslash. -/
def escaped? (c : Char) : Option Char :=
  match c with
  | '"' | '\\' | '/' => some c
  | 'b' => some '\x08'
  | 'f' => some '\x0c'
  | 'n' => some '\n'
  | 'r' => some '\r'
  | 't' => some '\t'
  | _ => none

/-- The code units of a string up to its closing mark, after those in `done`, given backwards; and
what follows the mark. -/
def stringTail? (done : List Nat) : List Char → Option (List Nat × List Char)
  | '"' :: rest => some (done.reverse, rest)
  | '\\' :: 'u' :: a :: b :: c :: d :: rest =>
    match hexWord? a b c d with
    | some n => stringTail? (n :: done) rest
    | none => none
  | '\\' :: c :: rest =>
    match escaped? c with
    | some c => stringTail? (c.toNat :: done) rest
    | none => none
  | c :: rest => if c.toNat < 0x20 || c == '\\' then none else stringTail? (c.toNat :: done) rest
  | [] => none

/-- The first half of a surrogate pair. -/
def isHighSurrogate (n : Nat) : Bool := 0xD800 ≤ n && n ≤ 0xDBFF

/-- The second half of a surrogate pair. -/
def isLowSurrogate (n : Nat) : Bool := 0xDC00 ≤ n && n ≤ 0xDFFF

/-- The characters of code units, after those in `done`, given backwards; surrogates count only in
pairs. -/
def characters? (done : List Char) : List Nat → Option (List Char)
  | [] => some done.reverse
  | m :: n :: rest =>
    if isHighSurrogate m && isLowSurrogate n then
      characters? (Char.ofNat (0x10000 + (m - 0xD800) * 0x400 + (n - 0xDC00)) :: done) rest
    else if isHighSurrogate m || isLowSurrogate m then none
    else characters? (Char.ofNat m :: done) (n :: rest)
  | [m] =>
    if isHighSurrogate m || isLowSurrogate m then none else some (Char.ofNat m :: done).reverse

/-! ## Lexemes -/

/-- The lexeme a text begins with, and what follows it. -/
def atHead? : List Char → Option (Lexeme × List Char)
  | '[' :: rest => some (openArray, rest)
  | ']' :: rest => some (closeArray, rest)
  | '\x7b' :: rest => some (openObject, rest)
  | '\x7d' :: rest => some (closeObject, rest)
  | ',' :: rest => some (comma, rest)
  | ':' :: rest => some (colon, rest)
  | 'n' :: 'u' :: 'l' :: 'l' :: rest => some (scalar .null, rest)
  | 't' :: 'r' :: 'u' :: 'e' :: rest => some (scalar (.bool true), rest)
  | 'f' :: 'a' :: 'l' :: 's' :: 'e' :: rest => some (scalar (.bool false), rest)
  | '"' :: rest =>
    (stringTail? [] rest).map fun (units, rest) =>
      (text ((characters? [] units).map String.ofList), rest)
  | rest => (NumberText.atHead? rest).map fun (number, rest) => (scalar number.toJson, rest)

/-- White space between lexemes. -/
def isSpace (c : Char) : Bool := c == ' ' || c == '\t' || c == '\n' || c == '\r'

end Lexeme

/-- The lexemes of a text after those in `done`, given backwards. A text is no longer than
`fuel`. -/
def lexemesFrom? (fuel : Nat) (done : List Lexeme) (cs : List Char) : Option (List Lexeme) :=
  match cs.dropWhile Lexeme.isSpace, fuel with
  | [], _ => some done.reverse
  | _, 0 => none
  | cs, fuel + 1 =>
    match Lexeme.atHead? cs with
    | some (lexeme, rest) => lexemesFrom? fuel (lexeme :: done) rest
    | none => none

/-- The lexemes of a text, if there is nothing else in it. -/
def lexemes? (cs : List Char) : Option (List Lexeme) := lexemesFrom? cs.length [] cs

end Stencil
