/-!
# Characters and lines

The character classes of configuration documents, and what may stand between
values: blanks, comments and line ends.  A carriage return counts only in front
of a line feed.
-/

namespace FlashStorage.Document

/-- What is read from the front of a text, and the text behind it. -/
abbrev Reader (α : Type) := List Char → Option (α × List Char)

def isBlank (c : Char) : Bool := c == ' ' || c == '\t'

/-- Everything but control characters; the tab is not one here. -/
def isPrintable (c : Char) : Bool :=
  c == '\t' || (0x20 ≤ c.toNat && c.toNat != 0x7F)

def isDecimalDigit (c : Char) : Bool := '0' ≤ c && c ≤ '9'

def isOctalDigit (c : Char) : Bool := '0' ≤ c && c ≤ '7'

def isBinaryDigit (c : Char) : Bool := c == '0' || c == '1'

def isHexDigit (c : Char) : Bool :=
  isDecimalDigit c || ('a' ≤ c && c ≤ 'f') || ('A' ≤ c && c ≤ 'F')

/-- The characters of a key without quotes. -/
def isBare (c : Char) : Bool :=
  isDecimalDigit c || ('a' ≤ c && c ≤ 'z') || ('A' ≤ c && c ≤ 'Z') ||
    c == '_' || c == '-'

/-- The value of a digit in any base up to sixteen. -/
def digitValue (c : Char) : Nat :=
  if isDecimalDigit c then c.toNat - '0'.toNat
  else if 'a' ≤ c then c.toNat - 'a'.toNat + 10
  else c.toNat - 'A'.toNat + 10

/-- The value of some digits, the highest first. -/
def digitsValue (base : Nat) (digits : List Char) : Nat :=
  digits.foldl (fun value digit => base * value + digitValue digit) 0

def skipBlanks (text : List Char) : List Char := text.dropWhile isBlank

def skipNewline? : List Char → Option (List Char)
  | '\n' :: rest => some rest
  | '\r' :: '\n' :: rest => some rest
  | _ => none

/-- The text behind a line whose last value was just read: blanks, perhaps a
comment, and a line end or the end of the text. -/
def endLine (text : List Char) : Option (List Char) :=
  let text :=
    match skipBlanks text with
    | '#' :: rest => rest.dropWhile isPrintable
    | text => text
  if text.isEmpty then some [] else skipNewline? text

/-- The text behind any blanks, line ends and comments; each comment must be
ended by its line. -/
def skipGap (inComment : Bool) : List Char → Option (List Char)
  | [] => if inComment then none else some []
  | '\n' :: rest => skipGap false rest
  | '\r' :: '\n' :: rest => skipGap false rest
  | c :: rest =>
      if inComment then
        if isPrintable c then skipGap true rest else none
      else if isBlank c then skipGap false rest
      else if c == '#' then skipGap true rest
      else if c == '\r' then none
      else some (c :: rest)

end FlashStorage.Document
