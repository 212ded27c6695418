import Stencil.Toml.Basic

/-!
# Building tables

The parts of a file add to its tables, each under a path of keys.

* A header opens a table. The tables on its path come about if they are missing, and may have come
  about in any way except as a value. The table itself must be missing, or so far be there only
  because of tables within it.
* A header of an array of tables opens one more table of it.
* An entry adds a value to the table of its header. The tables on the path of a dotted key come
  about if they are missing, and must not have a header; the last of them must be there by dotted
  keys. The key must be missing.

A path through an array of tables leads through its last table.
-/

namespace Stencil.Toml

/-- The entries of a table, in order. -/
abbrev Entries := List (String × Toml)

/-- Put a value under a key; a new key goes to the end. -/
def Entries.set (entries : Entries) (key : String) (v : Toml) : Entries :=
  if (entries.lookup key).isSome then entries.map fun e => if e.1 = key then (key, v) else e
  else entries ++ [(key, v)]

/-- Put under a key what `f` makes of the value that is there. -/
def Entries.alter? (entries : Entries) (key : String) (f : Option Toml → Option Toml) :
    Option Entries :=
  (f (entries.lookup key)).map (Entries.set entries key)

/-- What names a path of tables. -/
inductive Route where
  /-- The path of a header. -/
  | headers
  /-- The path of a dotted key. -/
  | dots
deriving DecidableEq

namespace Route

/-- How missing tables on the path come about. -/
def creates : Route → Origin
  | headers => .implied
  | dots => .dotted

/-- The path may lead through a table that came about so. -/
def passes : Route → Origin → Bool
  | _, .braces => false
  | headers, _ => true
  | dots, origin => origin != .header

/-- Change the table at the end of a path, starting from a table with its origin. -/
def update? (route : Route) (f : Origin → Entries → Option Entries) :
    List String → Origin → Entries → Option Entries
  | [], origin, entries => f origin entries
  | key :: path, _, entries =>
    entries.alter? key fun
      | none => (update? route f path route.creates []).map (table route.creates)
      | some (table origin inner) =>
        if route.passes origin then (update? route f path origin inner).map (table origin) else none
      | some (tables earlier last) => (update? route f path .header last).map (tables earlier)
      | some _ => none

end Route

/-- A key with the path of tables that it is in. -/
structure KeyPath where
  /-- The keys of the tables. -/
  tables : List String
  /-- The key in the last of them. -/
  key : String
deriving DecidableEq

/-- A part of a file. -/
inductive Statement where
  /-- The header of a table. -/
  | header (path : KeyPath)
  /-- The header of one more table of an array. -/
  | element (path : KeyPath)
  /-- A key and its value. -/
  | entry (path : KeyPath) (v : Toml)

namespace Entries

/-- Add an entry to a table. -/
def addEntry? (path : KeyPath) (v : Toml) (origin : Origin) (entries : Entries) : Option Entries :=
  let add (last : Origin) (inner : Entries) : Option Entries :=
    if (last == .dotted) != path.tables.isEmpty then
      inner.alter? path.key fun old => if old.isSome then none else some v
    else none
  Route.dots.update? add path.tables origin entries

/-- Open the table of a header. -/
def openTable? (path : KeyPath) (root : Entries) : Option Entries :=
  let add (_ : Origin) (inner : Entries) : Option Entries :=
    inner.alter? path.key fun
      | none => some (table .header [])
      | some (table .implied known) => some (table .header known)
      | some _ => none
  Route.headers.update? add path.tables .header root

/-- Open one more table of an array of tables. -/
def openElement? (path : KeyPath) (root : Entries) : Option Entries :=
  let add (_ : Origin) (inner : Entries) : Option Entries :=
    inner.alter? path.key fun
      | none => some (tables [] [])
      | some (tables earlier last) => some (tables (earlier ++ [table .header last]) [])
      | some _ => none
  Route.headers.update? add path.tables .header root

/-- The table of entries between braces. -/
def ofPairs? (pairs : List (KeyPath × Toml)) : Option Entries :=
  pairs.foldlM (fun entries p => addEntry? p.1 p.2 .braces entries) []

end Entries

/-- A file read in part. -/
structure Draft where
  /-- The table that is the whole file. -/
  root : Entries
  /-- The path of the table that entries go to. -/
  current : List String

namespace Draft

/-- Nothing read. -/
def start : Draft := ⟨[], []⟩

/-- One more part of the file. -/
def add? (d : Draft) : Statement → Option Draft
  | .header path => (d.root.openTable? path).map (⟨·, path.tables ++ [path.key]⟩)
  | .element path => (d.root.openElement? path).map (⟨·, path.tables ++ [path.key]⟩)
  | .entry path v =>
    (Route.headers.update? (Entries.addEntry? path v) d.current .header d.root).map
      (⟨·, d.current⟩)

end Draft

/-- The table that the parts of a file make up. -/
def ofStatements? (statements : List Statement) : Option Toml := do
  let d ← statements.foldlM Draft.add? Draft.start
  some (table .header d.root)

end Stencil.Toml
