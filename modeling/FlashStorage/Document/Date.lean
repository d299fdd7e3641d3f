import FlashStorage.Document.Character

/-!
# Dates and times

A date is written with four, two and two digits, and may be followed by a time of
day and that by an offset; a time of day may also stand alone.  Every part must
be in its range, the day in the range of its month.  No configuration has a use
for dates, so all that is told is where one ends.
-/

namespace FlashStorage.Document.Date

/-- A number of exactly `count` decimal digits. -/
def fixedDigits (count : Nat) : Reader Nat := fun text =>
  let front := text.take count
  if front.length = count ∧ front.all isDecimalDigit then
    some (digitsValue 10 front, text.drop count)
  else none

/-- A number of two digits in a range. -/
def part (least greatest : Nat) : Reader Nat := fun text => do
  let (value, rest) ← fixedDigits 2 text
  if least ≤ value ∧ value ≤ greatest then some (value, rest) else none

/-- The text behind a character that must come next. -/
def skip (c : Char) : List Char → Option (List Char)
  | [] => none
  | first :: rest => if first == c then some rest else none

def isLeap (year : Nat) : Bool :=
  year % 4 == 0 && (year % 100 != 0 || year % 400 == 0)

def daysIn (year month : Nat) : Nat :=
  if month = 2 then if isLeap year then 29 else 28
  else if month = 4 ∨ month = 6 ∨ month = 9 ∨ month = 11 then 30
  else 31

/-- The text behind a date. -/
def skipDate (text : List Char) : Option (List Char) := do
  let (year, text) ← fixedDigits 4 text
  let text ← skip '-' text
  let (month, text) ← part 1 12 text
  let text ← skip '-' text
  let (_, text) ← part 1 (daysIn year month) text
  some text

/-- The text behind a fraction of a second, if one comes next. -/
def skipFraction : List Char → List Char
  | '.' :: rest =>
      let behind := rest.dropWhile isDecimalDigit
      if behind.length < rest.length then behind else '.' :: rest
  | text => text

/-- The text behind a time of day.  A minute may have a leap second. -/
def skipTime (text : List Char) : Option (List Char) := do
  let (_, text) ← part 0 23 text
  let text ← skip ':' text
  let (_, text) ← part 0 59 text
  let text ← skip ':' text
  let (_, text) ← part 0 60 text
  some (skipFraction text)

/-- The text behind an offset of hours and minutes. -/
def skipHours (text : List Char) : Option (List Char) := do
  let (_, text) ← part 0 23 text
  let text ← skip ':' text
  let (_, text) ← part 0 59 text
  some text

/-- The text behind an offset, if one comes next. -/
def skipOffset (text : List Char) : List Char :=
  match text with
  | [] => []
  | c :: rest =>
      if c == 'Z' || c == 'z' then rest
      else if c == '+' || c == '-' then (skipHours rest).getD text
      else text

/-- The text behind the time of day that may follow a date. -/
def skipDayTime (text : List Char) : List Char :=
  match text with
  | [] => []
  | c :: rest =>
      if c == 'T' || c == 't' || c == ' ' then
        match skipTime rest with
        | some behind => skipOffset behind
        | none => text
      else text

/-- The text behind a date, a date with a time, or a time alone. -/
def skipAny (text : List Char) : Option (List Char) :=
  match skipDate text with
  | some behind => some (skipDayTime behind)
  | none => skipTime text

end FlashStorage.Document.Date
