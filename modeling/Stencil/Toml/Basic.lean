import Stencil.Json.Basic

/-!
# TOML values

The values of a configuration file. A table remembers how it came about, because that decides what
later parts of the file may add to it.

* `Toml` — values;
* `Toml.toJson` — a value as settings are read from it.
-/

namespace Stencil

open Number

/-- A day of the calendar. -/
structure Date where
  /-- The year, of four digits. -/
  year : Nat
  /-- The month, from 1. -/
  month : Nat
  /-- The day of the month, from 1. -/
  day : Nat
deriving DecidableEq

/-- A time of day. -/
structure ClockTime where
  /-- The hour, below 24. -/
  hour : Nat
  /-- The minute, below 60. -/
  minute : Nat
  /-- The second; 60 is a leap second. -/
  second : Nat
  /-- The digits of a fraction of a second. -/
  fraction : List Char
deriving DecidableEq

/-- A day, a time, or both. -/
inductive Moment where
  /-- A day. -/
  | date (d : Date)
  /-- A time on no particular day. -/
  | time (t : ClockTime)
  /-- A time on a day, and the minutes it is ahead of universal time, if that is said. -/
  | dateTime (d : Date) (t : ClockTime) (offset : Option Int)
deriving DecidableEq

/-- A number written with a fraction or an exponent, or by its name. -/
inductive Toml.Real where
  /-- A number. -/
  | finite (x : Binary64)
  /-- An infinite number, with its sign. -/
  | infinite (negative : Bool)
  /-- No number. -/
  | notANumber
deriving DecidableEq

/-- How a table came about. -/
inductive Toml.Origin where
  /-- Under a header of its own, or as the whole file. -/
  | header
  /-- By the headers of tables within it. -/
  | implied
  /-- By dotted keys. -/
  | dotted
  /-- As a value between braces. -/
  | braces
deriving DecidableEq

/-- A value of a configuration file. -/
inductive Toml where
  /-- A string. -/
  | string (s : String)
  /-- An integer. -/
  | integer (n : Int)
  /-- Any other number. -/
  | real (x : Toml.Real)
  /-- A truth value. -/
  | boolean (b : Bool)
  /-- A day or a time. -/
  | moment (m : Moment)
  /-- An array between brackets. -/
  | array (items : List Toml)
  /-- A table. -/
  | table (origin : Toml.Origin) (entries : List (String × Toml))
  /-- An array of tables that have headers: the earlier ones, and the entries of the last. -/
  | tables (earlier : List Toml) (last : List (String × Toml))

namespace Toml

mutual

/-- A value as settings are read from it. A day or a time is a record with none of the fields that
are asked for, and what is no finite number stands for nothing. -/
def toJson : Toml → Json
  | string s => .str s
  | integer n => .int n
  | real (.finite x) => .float x
  | real _ => .unreadable
  | boolean b => .bool b
  | moment _ => .obj []
  | array items => .arr (itemsToJson items)
  | table _ entries => .obj (entriesToJson entries)
  | tables earlier last => .arr (itemsToJson earlier ++ [.obj (entriesToJson last)])

/-- All items as settings are read from them. -/
def itemsToJson : List Toml → List Json
  | [] => []
  | v :: vs => v.toJson :: itemsToJson vs

/-- All values of entries as settings are read from them. -/
def entriesToJson : List (String × Toml) → List (String × Json)
  | [] => []
  | (k, v) :: es => (k, v.toJson) :: entriesToJson es

end

end Toml

end Stencil
