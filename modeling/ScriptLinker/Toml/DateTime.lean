import ScriptLinker.Toml.Lexical
/-!
# Dates and times

A date, a date with a time of day, either with an offset, or a time of day
alone. No setting is a date, so only well-formedness matters.
-/

namespace ScriptLinker.Toml

open ScriptLinker.Toml.Parser

/-- A number of exactly `count` digits between two bounds. -/
def boundedNumber (count low high : Nat) : Parser Nat := do
  let digits ← times count (satisfy Char.isDigit)
  let value := digitsValue 10 digits
  require (decide (low ≤ value && value ≤ high))
  pure value

def isLeapYear (year : Nat) : Bool :=
  year % 4 = 0 && (year % 100 ≠ 0 || year % 400 = 0)

def daysInMonth (year month : Nat) : Nat :=
  if month = 2 then
    if isLeapYear year then 29 else 28
  else if month = 4 || month = 6 || month = 9 || month = 11 then 30
  else 31

def date : Parser Unit := do
  let year ← boundedNumber 4 0 9999
  char '-'
  let month ← boundedNumber 2 1 12
  char '-'
  let _ ← boundedNumber 2 1 (daysInMonth year month)

/-- A time of day, with seconds. A minute may have a leap second. -/
def timeOfDay : Parser Unit := do
  let _ ← boundedNumber 2 0 23
  char ':'
  let _ ← boundedNumber 2 0 59
  char ':'
  let _ ← boundedNumber 2 0 60
  let _ ← optional (do char '.'; takeWhile₁ Char.isDigit)

def offset : Parser Unit :=
  char 'Z' <|> char 'z' <|> do
    let _ ← satisfy fun c => c = '+' || c = '-'
    let _ ← boundedNumber 2 0 23
    char ':'
    let _ ← boundedNumber 2 0 59

/-- A date, a time or both. -/
def dateTime : Parser Unit :=
  (do
    date
    let _ ← optional do
      let _ ← satisfy fun c => c = 'T' || c = 't' || c = ' '
      timeOfDay
      optional offset) <|>
    timeOfDay

end ScriptLinker.Toml
