import FlashStorage.Document.Character

/-!
# Writing documents

Whole numbers are written in decimal, and texts between quotation marks.  There, marks,
backslashes and control characters are written as escapes, and so may be any other
character for which there is one of four digits.  A table is written as a header with
a line for each of its keys below it, an array on one line.
-/

namespace FlashStorage.Document.Printer

def natural (value : Nat) : List Char := Nat.toDigits 10 value

def integer (value : Int) : List Char :=
  if value < 0 then '-' :: natural value.natAbs else natural value.natAbs

/-- What is left open in the writing of texts. -/
structure Style where
  /-- The characters that are escaped though they could stand for themselves. -/
  escapes : Char → Bool
  /-- Whether escapes are written with capital letters. -/
  capital : Bool

/-- A digit in base sixteen. -/
def hexDigit (capital : Bool) (value : Nat) : Char :=
  if capital then (Nat.digitChar value).toUpper else Nat.digitChar value

/-- The escape of four digits. -/
def escape (capital : Bool) (c : Char) : List Char :=
  let point := c.toNat
  ['\\', 'u', hexDigit capital (point / 4096 % 16),
    hexDigit capital (point / 256 % 16), hexDigit capital (point / 16 % 16),
    hexDigit capital (point % 16)]

/-- Whether a character cannot stand for itself between quotation marks. -/
def needsEscape (c : Char) : Bool :=
  c == '"' || c == '\\' || c == '\t' || !isPrintable c

/-- A character of a text, escaped if it must be, or if the style says so and four
digits are enough for it. -/
def character (style : Style) (c : Char) : List Char :=
  if needsEscape c || (style.escapes c && c.toNat < UInt16.size) then
    escape style.capital c
  else [c]

/-- A text between quotation marks. -/
def quoted (style : Style) (text : String) : List Char :=
  '"' :: (text.toList.flatMap (character style) ++ ['"'])

/-- An array of values that are written already. -/
def array (elements : List (List Char)) : List Char :=
  '[' :: ([',', ' '].intercalate elements ++ [']'])

/-- The line that opens a table. -/
def header (name : String) : List Char := '[' :: (name.toList ++ [']', '\n'])

/-- The line that gives a value to a key. -/
def definition (key : String) (value : List Char) : List Char :=
  key.toList ++ ([' ', '=', ' '] ++ (value ++ ['\n']))

end FlashStorage.Document.Printer
