import Stencil.Toml.Value

/-!
# Configuration files

A file is a row of lines. A line has a header, a key with its value, or neither, and may end with a
comment. A byte order mark at the start does not count.

* `Toml.ofText?` — the table that a file stands for.
-/

namespace Stencil.Toml

open Text Text.Scan

namespace Scan

/-- The header of a table, or of one more table of an array. -/
def header : Scan Statement :=
  (do
    word ['[', '[']
    let path ← keyPath
    word [']', ']']
    pure (.element path)) <|>
  (do
    mark '['
    let path ← keyPath
    mark ']'
    pure (.header path))

/-- A header, or a key with its value. -/
def statement : Scan Statement :=
  header <|> (do let (path, v) ← pairOf value; pure (.entry path v))

/-- A line up to its end. -/
def line : Scan (Option Statement) := do
  blanks
  let s ← optional statement
  blanks
  let _ ← optional comment
  pure s

/-- The parts of a file. -/
def statements : Scan (List Statement) := do
  let _ ← optional (mark '\uFEFF')
  let lines ← separated line newline
  pure (lines.filterMap id)

end Scan

/-- The table that a file stands for. -/
def ofText? (text : String) : Option Toml := do
  ofStatements? (← Scan.statements.whole? text.toList)

end Stencil.Toml
