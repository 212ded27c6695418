import Stencil.Toml.Moment
import Stencil.Toml.Number
import Stencil.Toml.Strings
import Stencil.Toml.Table

/-!
# Values and keys of a configuration file

Arrays stand between brackets and may have line breaks, comments and a last comma. Tables stand
between braces, in one line and without a last comma.

* `Scan.keyPath` — a key, whose parts are joined by dots;
* `Scan.value` — a value.
-/

namespace Stencil.Toml.Scan

open Text Text.Scan

/-- A comment. -/
def comment : Scan Unit := do
  mark '#'
  let _ ← run isPlain

/-- Blanks, line breaks and comments. -/
def gap : Scan Unit := do
  let _ ← many ((do let _ ← someRun isBlank) <|> (do let _ ← optional comment; newline))

/-! ## Keys -/

/-- A character of a key without quotation marks. -/
def isBare (c : Char) : Bool := c.isAlphanum || c == '_' || c == '-'

/-- A part of a key. -/
def keyPart : Scan String := oneLine <|> (do pure (String.ofList (← someRun isBare)))

/-- Keys have at most this many parts, and values are nested at most this deeply. -/
def maxDepth : Nat := 79

/-- A key with blanks around its parts. -/
def keyPath : Scan KeyPath := do
  let parts ← separated (blanks *> keyPart <* blanks) (mark '.')
  match parts.reverse with
  | key :: outer => if parts.length ≤ maxDepth then pure ⟨outer.reverse, key⟩ else failure
  | [] => failure

/-! ## Values -/

/-- A truth value. -/
def boolean : Scan Bool :=
  (do word ['t', 'r', 'u', 'e']; pure true) <|>
    (do word ['f', 'a', 'l', 's', 'e']; pure false)

/-- A value without items or entries. -/
def scalar : Scan Toml :=
  string <$> quoted <|> Toml.moment <$> moment <|> Toml.real <$> real <|>
    Toml.integer <$> integer <|> Toml.boolean <$> boolean

/-- An array of items that are read by `item`. -/
def arrayOf (item : Scan Toml) : Scan (List Toml) := do
  mark '['
  let items ← (separated (gap *> item <* gap) (mark ',') <* optional (mark ',')) <|> pure []
  gap
  mark ']'
  pure items

/-- A key and its value, which is read by `value`. -/
def pairOf (value : Scan Toml) : Scan (KeyPath × Toml) := do
  let path ← keyPath
  mark '='
  blanks
  pure (path, ← value)

/-- A table between braces of values that are read by `value`. -/
def tableOf (value : Scan Toml) : Scan Entries := do
  mark '\x7b'
  let pairs ← separated (pairOf value <* blanks) (mark ',') <|> pure []
  blanks
  mark '\x7d'
  match Entries.ofPairs? pairs with
  | some entries => pure entries
  | none => failure

/-- A value that is nested at most `room` deep. -/
def valueWithin : Nat → Scan Toml
  | 0 => scalar
  | room + 1 =>
    array <$> arrayOf (valueWithin room) <|> table .braces <$> tableOf (valueWithin room) <|> scalar

/-- A value. -/
def value : Scan Toml := valueWithin maxDepth

end Stencil.Toml.Scan
