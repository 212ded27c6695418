/-!
# Scanning a text from its start

A *scan* reads one kind of part off the start of a text: it says what the part stands for and what
follows it, or that the text does not begin with such a part. Scans are run one after another with
`do`, and `p <|> q` is `q` where `p` reads nothing.

* `Scan.char`, `Scan.word`, `Scan.run` — a character, a given word, a run of characters of one kind;
* `Scan.many`, `Scan.separated`, `Scan.exactly` — a part as often as it comes, the parts of a list,
  and a part a given number of times.
-/

namespace Stencil.Text

/-- What reads a part off the start of a text. -/
abbrev Scan := StateT (List Char) Option

namespace Scan

variable {α : Type}

/-- One character that satisfies `p`. -/
def char (p : Char → Bool) : Scan Char := fun cs =>
  match cs with
  | c :: rest => if p c then some (c, rest) else none
  | [] => none

/-- The given word. -/
def word (w : List Char) : Scan Unit := fun cs => (w.isPrefixOf? cs).map ((), ·)

/-- The given character. -/
def mark (c : Char) : Scan Unit := word [c]

/-- The longest run of characters that satisfy `p`. -/
def run (p : Char → Bool) : Scan (List Char) := fun cs => some (cs.takeWhile p, cs.dropWhile p)

/-- The longest run of characters that satisfy `p`, if there are any. -/
def someRun (p : Char → Bool) : Scan (List Char) := fun cs =>
  if (cs.takeWhile p).isEmpty then none else some (cs.takeWhile p, cs.dropWhile p)

/-- The end of the text. -/
def atEnd : Scan Unit := fun cs => if cs.isEmpty then some ((), []) else none

/-- A part as often as it comes, but at most once for each character of `bound`, after those in
`done`, given backwards. -/
def manyFrom (p : Scan α) (done : List α) (bound cs : List Char) : List α × List Char :=
  match bound with
  | [] => (done.reverse, cs)
  | _ :: bound =>
    match p cs with
    | some (a, rest) => manyFrom p (a :: done) bound rest
    | none => (done.reverse, cs)

/-- A part as often as it comes. Every part has at least one character, so it does not come more
often than the text has characters. -/
def many (p : Scan α) : Scan (List α) := fun cs => some (manyFrom p [] cs cs)

/-- One or more parts with separators between them. -/
def separated (p : Scan α) (separator : Scan Unit) : Scan (List α) := do
  let first ← p
  let others ← many (separator *> p)
  pure (first :: others)

/-- A part exactly `n` times. -/
def exactly (n : Nat) (p : Scan α) : Scan (List α) := (List.replicate n p).mapM id

/-- What a scan makes of a text that it reads to the end. -/
def whole? (p : Scan α) (cs : List Char) : Option α := ((p <* atEnd) cs).map Prod.fst

end Scan

end Stencil.Text
