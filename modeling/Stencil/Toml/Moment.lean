import Stencil.Text.Numeral
import Stencil.Text.Scan
import Stencil.Toml.Basic

/-!
# Days and times of a configuration file

A day is written `1979-05-27` and a time `07:32:00`, with an optional fraction of a second. Both
together are separated by a `T` or a space, and may be followed by `Z` or by the hours and minutes
they are ahead of universal time.

* `Date.IsValid` — the day is in the calendar;
* `Scan.moment` — a day, a time, or both.
-/

namespace Stencil

open Text

/-- The Gregorian calendar has a 29th of February in the year. -/
def isLeapYear (year : Nat) : Bool := year % 4 == 0 && (year % 100 != 0 || year % 400 == 0)

/-- The number of days of a month. -/
def daysIn (year month : Nat) : Nat :=
  if month = 2 then if isLeapYear year then 29 else 28
  else if month ∈ [4, 6, 9, 11] then 30
  else 31

/-- The day is in the calendar. -/
def Date.IsValid (d : Date) : Prop :=
  1 ≤ d.month ∧ d.month ≤ 12 ∧ 1 ≤ d.day ∧ d.day ≤ daysIn d.year d.month

instance (d : Date) : Decidable d.IsValid := inferInstanceAs (Decidable (_ ∧ _ ∧ _ ∧ _))

namespace Toml.Scan

open Text.Scan

/-- A number of so many digits. -/
def fixedWidth (width : Nat) : Scan Nat := do pure (value (← exactly width (char Char.isDigit)))

/-- A number of two digits, at most `limit`. -/
def twoDigits (limit : Nat) : Scan Nat := do
  let n ← fixedWidth 2
  if n ≤ limit then pure n else failure

/-- A day. -/
def date : Scan Date := do
  let year ← fixedWidth 4
  mark '-'
  let month ← fixedWidth 2
  mark '-'
  let day ← fixedWidth 2
  let d : Date := { year, month, day }
  if d.IsValid then pure d else failure

/-- A time of day. -/
def clockTime : Scan ClockTime := do
  let hour ← twoDigits 23
  mark ':'
  let minute ← twoDigits 59
  mark ':'
  let second ← twoDigits 60
  let fraction ← (do mark '.'; someRun Char.isDigit) <|> pure []
  pure { hour, minute, second, fraction }

/-- The minutes that a time is ahead of universal time. -/
def timeOffset : Scan Int :=
  (do let _ ← char fun c => c == 'Z' || c == 'z'; pure 0) <|>
  (do
    let sign ← char fun c => c == '+' || c == '-'
    let hours ← twoDigits 23
    mark ':'
    let minutes ← twoDigits 59
    let ahead : Int := 60 * hours + minutes
    pure (if sign == '-' then -ahead else ahead))

/-- A time that follows a day. -/
def timeOfDay (d : Date) : Scan Moment := do
  let _ ← char fun c => c == 'T' || c == 't' || c == ' '
  pure (.dateTime d (← clockTime) (← optional timeOffset))

/-- A day, a time, or both. -/
def moment : Scan Moment :=
  (do
    let d ← date
    timeOfDay d <|> pure (.date d)) <|>
  (do pure (.time (← clockTime)))

end Toml.Scan

end Stencil
