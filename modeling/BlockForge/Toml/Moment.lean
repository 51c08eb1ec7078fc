import BlockForge.Number.Decimal
import BlockForge.Toml.Reader

/-!
# Dates and times

A date, a time of day, or a date with a time and possibly an offset.  Only
dates of the calendar are read; a minute may have a leap second.  The text of a
moment is its normal form: a capital `T` before the time, at most nine digits
of a second and no zero at their end.
-/

namespace BlockForge.Toml

/-- Whether a year has a leap day. -/
def isLeapYear (year : Nat) : Bool :=
  (year % 4 = 0 ∧ year % 100 ≠ 0) ∨ year % 400 = 0

/-- The number of days of a month. -/
def daysOfMonth (year month : Nat) : Nat :=
  if month = 2 then (if isLeapYear year then 29 else 28)
  else if month = 4 ∨ month = 6 ∨ month = 9 ∨ month = 11 then 30
  else 31

namespace Reader

/-- Read a number of exactly `count` digits, between two bounds; its text has
the same digits. -/
def fixedDigits (count low high : Nat) : Reader (Nat × List Char) := do
  let chars := (← get).rest.take count
  require (chars.length = count && chars.all Char.isDigit)
  skip count
  let value := digitsValue chars
  require (low ≤ value && value ≤ high)
  return (value, chars)

/-- Read a date. -/
def date : Reader (List Char) := do
  let (year, yearText) ← fixedDigits 4 0 9999
  expect "-"
  let (month, monthText) ← fixedDigits 2 1 12
  expect "-"
  let (_, dayText) ← fixedDigits 2 1 (daysOfMonth year month)
  return yearText ++ ['-'] ++ monthText ++ ['-'] ++ dayText

/-- Read a fraction of a second, if there is one. -/
def secondFraction : Reader (List Char) := do
  if ← accept "." then
    let places ← run Char.isDigit
    require (!places.isEmpty)
    let shown := Decimal.dropZeroEnd (places.take 9)
    return if shown.isEmpty then [] else '.' :: shown
  else return []

/-- Read a time of day. -/
def timeOfDay : Reader (List Char) := do
  let (_, hour) ← fixedDigits 2 0 23
  expect ":"
  let (_, minute) ← fixedDigits 2 0 59
  expect ":"
  let (_, second) ← fixedDigits 2 0 60
  return hour ++ [':'] ++ minute ++ [':'] ++ second ++ (← secondFraction)

/-- Read an offset, if there is one.  An offset of nothing is positive. -/
def timeOffset : Reader (List Char) := do
  let mark ← acceptOne fun char =>
    char == 'Z' || char == 'z' || char == '-' || char == '+'
  match mark with
  | none => return []
  | some 'Z' | some 'z' => return ['Z']
  | some char =>
    let (hours, hourText) ← fixedDigits 2 0 23
    expect ":"
    let (minutes, minuteText) ← fixedDigits 2 0 59
    let shown := if hours = 0 ∧ minutes = 0 then '+' else char
    return shown :: (hourText ++ [':'] ++ minuteText)

/-- Read the time that follows a date. -/
def timeOfDate : Reader (List Char) := do
  let mark ← next
  require (mark == 'T' || mark == 't' || mark == ' ')
  return 'T' :: (← timeOfDay)

/-- Read a date with or without a time, or a time alone. -/
def moment : Reader String := do
  match ← attempt date with
  | some day =>
    match ← attempt timeOfDate with
    | some time => return String.ofList (day ++ time ++ (← timeOffset))
    | none => return String.ofList day
  | none => return String.ofList (← timeOfDay)

end Reader

end BlockForge.Toml
