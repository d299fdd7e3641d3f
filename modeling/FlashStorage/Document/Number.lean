import FlashStorage.Document.Character
import FlashStorage.Document.Value

/-!
# Numbers

Integers are signed 64-bit numbers, in decimal or behind a base sign in base
sixteen, eight or two.  Underscores may stand between digits.  A number with a
fraction or an exponent is a float; one that is too large for a double is
refused, unless it is negative.
-/

namespace FlashStorage.Document.Number

/-- More digits of a number, with single underscores between digits. -/
def moreDigits (isDigit : Char → Bool) : Reader (List Char)
  | [] => some ([], [])
  | '_' :: rest =>
      match rest with
      | [] => none
      | c :: rest =>
          if isDigit c then
            (moreDigits isDigit rest).map (fun (digits, rest) =>
              (c :: digits, rest))
          else none
  | c :: rest =>
      if isDigit c then
        (moreDigits isDigit rest).map (fun (digits, rest) => (c :: digits, rest))
      else some ([], c :: rest)

/-- At least one digit; underscores are dropped. -/
def digits (isDigit : Char → Bool) : Reader (List Char)
  | [] => none
  | c :: rest =>
      if isDigit c then
        (moreDigits isDigit rest).map (fun (digits, rest) => (c :: digits, rest))
      else none

/-- Decimal digits without a leading zero, or a zero alone. -/
def decimal : Reader (List Char)
  | '0' :: rest => some (['0'], rest)
  | text => digits isDecimalDigit text

/-- Whether a minus sign stands in front; a plus sign is dropped. -/
def sign : List Char → Bool × List Char
  | '+' :: rest => (false, rest)
  | '-' :: rest => (true, rest)
  | text => (false, text)

/-- An integer in the signed 64-bit range. -/
def integer? (value : Int) : Option Value :=
  if Int64.minValue.toInt ≤ value ∧ value ≤ Int64.maxValue.toInt then
    some (.integer value)
  else none

def negateIf (negative : Bool) (value : Int) : Int :=
  if negative then -value else value

/-- An integer in the base that a base sign announced. -/
def inBase (base : Nat) (isDigit : Char → Bool) : Reader Value := fun text => do
  let (digits, rest) ← digits isDigit text
  let value ← integer? (digitsValue base digits)
  some (value, rest)

/-- The exponent behind its letter. -/
def exponent : Reader Int := fun text => do
  let (negative, text) := sign text
  let (digits, rest) ← digits isDecimalDigit text
  some (negateIf negative (digitsValue 10 digits), rest)

/-- An exponent if its letter stands in front. -/
def exponent? : Reader (Option Int)
  | 'e' :: rest => (exponent rest).map (fun (value, rest) => (some value, rest))
  | 'E' :: rest => (exponent rest).map (fun (value, rest) => (some value, rest))
  | text => some (none, text)

/-- A fraction if its point stands in front. -/
def fraction? : Reader (Option (List Char))
  | '.' :: rest =>
      (digits isDecimalDigit rest).map (fun (digits, rest) =>
        (some digits, rest))
  | text => some (none, text)

/-- The least number that does not round to a double. -/
def doubleLimit : Nat := Nat.pow 2 1024 - Nat.pow 2 970

/-- Whether `digits · 10 ^ exponent` is too large for a double.  Exponents that
decide the question alone are not computed with. -/
def exceedsDouble (digits : List Char) (exponent : Int) : Bool :=
  let mantissa := digitsValue 10 digits
  match exponent with
  | .ofNat power =>
      mantissa != 0 &&
        (400 ≤ power || doubleLimit ≤ mantissa * Nat.pow 10 power)
  | .negSucc power =>
      power + 1 < digits.length &&
        doubleLimit * Nat.pow 10 (power + 1) ≤ mantissa

/-- The characters in front of the rest of a text. -/
def written (text rest : List Char) : String :=
  String.ofList (text.take (text.length - rest.length))

/-- The not-numbers and infinities, behind their sign. -/
def special? : List Char → Option (List Char)
  | 'i' :: 'n' :: 'f' :: rest => some rest
  | 'n' :: 'a' :: 'n' :: rest => some rest
  | _ => none

/-- A decimal integer or a float. -/
def decimalNumber : Reader Value := fun text =>
  let (negative, unsigned) := sign text
  match special? unsigned with
  | some rest => some (.literal (written text rest), rest)
  | none => do
      let (whole, rest) ← decimal unsigned
      let (fraction, rest) ← fraction? rest
      let (exponent, rest) ← exponent? rest
      if fraction.isNone && exponent.isNone then
        let value ← integer? (negateIf negative (digitsValue 10 whole))
        some (value, rest)
      else
        let fraction := fraction.getD []
        let exponent := exponent.getD 0 - fraction.length
        if !negative && exceedsDouble (whole ++ fraction) exponent then none
        else some (.literal (written text rest), rest)

/-- Any number. -/
def number : Reader Value
  | '0' :: 'x' :: rest => inBase 16 isHexDigit rest
  | '0' :: 'o' :: rest => inBase 8 isOctalDigit rest
  | '0' :: 'b' :: rest => inBase 2 isBinaryDigit rest
  | text => decimalNumber text

end FlashStorage.Document.Number
