import FlashStorage.Document.Character

/-!
# Quoted texts

Texts stand between quotation marks, where a backslash starts an escape, or
between apostrophes, where every character stands for itself.  Between single
marks a text stays on its line.  Between triple marks it may span lines: a line
end in front of it is dropped, every other one counts as a line feed, and up to
two marks may stand in the text, even right in front of the closing ones.  A
backslash at the end of a line drops all blanks and line ends behind it.
-/

namespace FlashStorage.Document.Quoted

/-- An escape of which a backslash and perhaps some digits were read. -/
inductive Escape where
  | opened
  /-- Digits to come, and the value of those read. -/
  | digits (left : Nat) (value : Nat)
deriving DecidableEq, Repr

/-- The character of a code point, if there is one. -/
def scalar? (point : Nat) : Option Char :=
  if point.isValidChar then some (Char.ofNat point) else none

/-- The character of an escape that is a single letter or mark. -/
def single? (c : Char) : Option Char :=
  if c == 'b' then some '\x08'
  else if c == 'f' then some '\x0c'
  else if c == 'n' then some '\n'
  else if c == 'r' then some '\r'
  else if c == 't' then some '\t'
  else if c == '\\' then some '\\'
  else if c == '"' then some '"'
  else none

/-- Read one more character of an escape; it is complete with a character or
goes on. -/
def Escape.next? (escape : Escape) (c : Char) : Option (Char ⊕ Escape) :=
  match escape with
  | .opened =>
      if c == 'u' then some (.inr (.digits 4 0))
      else if c == 'U' then some (.inr (.digits 8 0))
      else (single? c).map .inl
  | .digits left value =>
      if isHexDigit c then
        let value := 16 * value + digitValue c
        if left ≤ 1 then (scalar? value).map .inl
        else some (.inr (.digits (left - 1) value))
      else none

/-- Put characters in front of what is read further on. -/
def emit (characters : List Char) :
    Option (List Char × List Char) → Option (List Char × List Char)
  | none => none
  | some (text, rest) => some (characters ++ text, rest)

/-- A text between quotation marks, from behind the opening one. -/
def basic : Option Escape → Reader (List Char)
  | _, [] => none
  | none, c :: rest =>
      if c == '"' then some ([], rest)
      else if c == '\\' then basic (some .opened) rest
      else if isPrintable c then emit [c] (basic none rest)
      else none
  | some escape, c :: rest =>
      match escape.next? c with
      | none => none
      | some (.inl character) => emit [character] (basic none rest)
      | some (.inr escape) => basic (some escape) rest

/-- A text between apostrophes, from behind the opening one. -/
def verbatim : Reader (List Char)
  | [] => none
  | c :: rest =>
      if c == '\x27' then some ([], rest)
      else if isPrintable c then emit [c] (verbatim rest)
      else none

/-- Where the reader of a text between triple marks stands. -/
inductive Place where
  | inText
  | inEscape (escape : Escape)
  /-- Behind a backslash and blanks, in front of the line end they need. -/
  | beforeLineEnd
  /-- Dropping blanks and line ends. -/
  | trimming
  /-- Behind a carriage return that needs its line feed. -/
  | inLineEnd (trimming : Bool)
  /-- Behind marks that may belong to the text or close it. -/
  | atMarks (count : Nat)
deriving DecidableEq, Repr

/-- Read a character of the text proper. -/
def textStep (mark : Char) (escapes : Bool) (c : Char) :
    Option (List Char × Place) :=
  if c == mark then some ([], .atMarks 1)
  else if escapes && c == '\\' then some ([], .inEscape .opened)
  else if c == '\n' then some ([c], .inText)
  else if c == '\r' then some ([], .inLineEnd false)
  else if isPrintable c then some ([c], .inText)
  else none

/-- Read a character of blanks and line ends that are dropped. -/
def trimStep (c : Char) : Option (List Char × Place) :=
  if c == '\n' then some ([], .trimming)
  else if c == '\r' then some ([], .inLineEnd true)
  else none

/-- Read one character that does not close the text. -/
def step (mark : Char) (escapes : Bool) (place : Place) (c : Char) :
    Option (List Char × Place) :=
  match place with
  | .inText => textStep mark escapes c
  | .inEscape escape =>
      if escape == .opened && isBlank c then some ([], .beforeLineEnd)
      else if escape == .opened && (c == '\n' || c == '\r') then trimStep c
      else
        match escape.next? c with
        | none => none
        | some (.inl character) => some ([character], .inText)
        | some (.inr escape) => some ([], .inEscape escape)
  | .beforeLineEnd =>
      if isBlank c then some ([], .beforeLineEnd) else trimStep c
  | .trimming =>
      if isBlank c then some ([], .trimming)
      else if c == '\n' || c == '\r' then trimStep c
      else textStep mark escapes c
  | .inLineEnd dropped =>
      if c == '\n' then
        if dropped then some ([], .trimming) else some (['\n'], .inText)
      else none
  | .atMarks count =>
      if c == mark then some ([], .atMarks (count + 1))
      else
        match textStep mark escapes c with
        | none => none
        | some (text, place) => some (List.replicate count mark ++ text, place)

/-- A text between triple marks, from behind the opening ones.  Three marks
close it; up to two more in front of them belong to it. -/
def spanning (mark : Char) (escapes : Bool) : Place → Reader (List Char)
  | .atMarks 5, rest => some ([mark, mark], rest)
  | .atMarks 4, [] => some ([mark], [])
  | .atMarks 3, [] => some ([], [])
  | _, [] => none
  | place, c :: rest =>
      if place == .atMarks 3 && c != mark then some ([], c :: rest)
      else if place == .atMarks 4 && c != mark then some ([mark], c :: rest)
      else
        match step mark escapes place c with
        | none => none
        | some (text, place) => emit text (spanning mark escapes place rest)

/-- The text without a line end in front. -/
def dropNewline (text : List Char) : List Char :=
  (skipNewline? text).getD text

/-- Any quoted text. -/
def quoted : Reader (List Char)
  | '"' :: '"' :: '"' :: rest => spanning '"' true .inText (dropNewline rest)
  | '"' :: rest => basic none rest
  | '\x27' :: '\x27' :: '\x27' :: rest =>
      spanning '\x27' false .inText (dropNewline rest)
  | '\x27' :: rest => verbatim rest
  | _ => none

end FlashStorage.Document.Quoted
