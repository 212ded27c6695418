import Stencil.Text.Numeral
import Stencil.Text.Scan

/-!
# Strings of a configuration file

A string stands between quotation marks, where a backslash begins an escape, or between
apostrophes, where it is a character like any other. Between three marks of either kind it may have
several lines: a line break right after the opening marks is left out, and every other one is a
line feed. Such a string may have one or two of its marks anywhere, at its end too.

* `Scan.quoted` — a string of either kind, in one line or several;
* `Scan.oneLine` — in one line, as keys are written.
-/

namespace Stencil.Toml

open Text

/-- A space or a tab. -/
def isBlank (c : Char) : Bool := c == ' ' || c == '\t'

/-- A character of a comment: no control character but the tab. -/
def isPlain (c : Char) : Bool := c == '\t' || (' ' ≤ c && c != '\x7f')

/-- A character between quotation marks that stands for itself. -/
def isBasic (c : Char) : Bool := isPlain c && c != '"' && c != '\\'

/-- A character between apostrophes. -/
def isLiteral (c : Char) : Bool := isPlain c && c != '\''

namespace Scan

open Text.Scan

/-- Spaces and tabs, if there are any. -/
def blanks : Scan Unit := do let _ ← run isBlank

/-- A line break. -/
def newline : Scan Unit := mark '\n' <|> word ['\r', '\n']

/-- The character with a number of so many hexadecimal digits. -/
def codePoint (digits : Nat) : Scan Char := do
  let cs ← exactly digits (char fun c => (hexValue? c).isSome)
  let n := cs.foldl (fun n c => 16 * n + (hexValue? c).getD 0) 0
  if n.isValidChar then pure (Char.ofNat n) else failure

/-- The character that an escape stands for. -/
def escape : Scan Char := do
  mark '\\'
  match ← char fun _ => true with
  | '"' => pure '"'
  | '\\' => pure '\\'
  | 'b' => pure '\x08'
  | 'f' => pure '\x0c'
  | 'n' => pure '\n'
  | 'r' => pure '\r'
  | 't' => pure '\t'
  | 'u' => codePoint 4
  | 'U' => codePoint 8
  | _ => failure

/-- A backslash at the end of a line, which leaves out all blanks and line breaks that follow. -/
def continuation : Scan Unit := do
  mark '\\'
  blanks
  newline
  let _ ← many (newline <|> (do let _ ← someRun isBlank))

/-- A part between quotation marks: some characters or an escape. -/
def basicPart : Scan (List Char) := someRun isBasic <|> (do pure [← escape])

/-- A part between apostrophes. -/
def literalPart : Scan (List Char) := someRun isLiteral

/-- A string in one line. -/
def between (quote : Char) (part : Scan (List Char)) : Scan String := do
  mark quote
  let parts ← many part
  mark quote
  pure (String.ofList parts.flatten)

/-- One or two marks within a string in several lines. -/
def innerMarks (quote : Char) : Scan (List Char) := do
  let marks ← someRun (· == quote)
  if marks.length < 3 then pure marks else failure

/-- The marks that end a string in several lines, and those before them that belong to it. -/
def closingMarks (quote : Char) : Scan (List Char) := do
  let marks ← run (· == quote)
  if 3 ≤ marks.length ∧ marks.length ≤ 5 then pure (marks.drop 3) else failure

/-- A string in several lines. -/
def betweenThree (quote : Char) (part : Scan (List Char)) : Scan String := do
  word [quote, quote, quote]
  let _ ← optional newline
  let parts ← many (part <|> (do newline; pure ['\n']) <|> innerMarks quote)
  let last ← closingMarks quote
  pure (String.ofList (parts.flatten ++ last))

/-- A string in one line. -/
def oneLine : Scan String := between '"' basicPart <|> between '\'' literalPart

/-- A string. -/
def quoted : Scan String :=
  betweenThree '"' ((do continuation; pure []) <|> basicPart) <|> betweenThree '\'' literalPart <|>
    oneLine

end Scan

end Stencil.Toml
