import FlashStorage.Document.Date
import FlashStorage.Document.Key
import FlashStorage.Document.Number
import FlashStorage.Document.Quoted
import FlashStorage.Document.Value

/-!
# Values

A value is a quoted text, a boolean, a number, a date, an array or a table in
braces.  Arrays may span lines and end in a comma, tables in braces may not.
Arrays and braces are read to a fixed depth of nesting.
-/

namespace FlashStorage.Document.Expression

/-- The most arrays and braces inside one another. -/
def maxDepth : Nat := 79

/-- A date, or else a number. -/
def dateOrNumber : Reader Value := fun text =>
  match Date.skipAny text with
  | some rest => some (.literal (Number.written text rest), rest)
  | none => Number.number text

/-- A value that has no values inside. -/
def scalar : Reader Value
  | 't' :: 'r' :: 'u' :: 'e' :: rest => some (.literal "true", rest)
  | 'f' :: 'a' :: 'l' :: 's' :: 'e' :: rest => some (.literal "false", rest)
  | [] => none
  | c :: rest =>
      if c == '"' || c == '\x27' then
        (Quoted.quoted (c :: rest)).map (fun (text, rest) =>
          (.text (String.ofList text), rest))
      else dateOrNumber (c :: rest)

/-- The elements of an array, from behind its bracket or a comma. -/
def elements (element : Reader Value) : Nat → Reader (List Value)
  | 0, _ => none
  | fuel + 1, text => do
      match ← skipGap false text with
      | ']' :: rest => some ([], rest)
      | text => do
          let (value, text) ← element text
          match ← skipGap false text with
          | ',' :: rest => do
              let (values, rest) ← elements element fuel rest
              some (value :: values, rest)
          | ']' :: rest => some ([value], rest)
          | _ => none

/-- A key, an equals sign and a value. -/
def definition (value : Reader Value) : Reader (Key × Value) := fun text => do
  match ← Key.read text with
  | (key, '=' :: rest) => do
      let (value, rest) ← value (skipBlanks rest)
      some ((key, value), rest)
  | _ => none

/-- The definitions in braces, from behind the brace or a comma, put into the
entries that are there already. -/
def definitions (value : Reader Value) : Nat → Entries → Reader Entries
  | 0, _, _ => none
  | fuel + 1, entries, text => do
      let ((key, value'), text) ← definition value text
      let entries ← entries.defineInline key.name value' key.path
      match skipBlanks text with
      | ',' :: rest => definitions value fuel entries rest
      | '}' :: rest => some (entries, rest)
      | _ => none

/-- The entries of a table in braces, from behind its brace. -/
def inlineTable (value : Reader Value) : Reader Entries := fun text =>
  match skipBlanks text with
  | '}' :: rest => some ([], rest)
  | text => definitions value (text.length + 1) [] text

/-- A value with at most so many arrays and braces inside one another. -/
def nested : Nat → Reader Value
  | 0, text => scalar text
  | depth + 1, '[' :: rest =>
      (elements (nested depth) (rest.length + 1) rest).map
        (fun (values, rest) => (.array values, rest))
  | depth + 1, '{' :: rest =>
      (inlineTable (nested depth) rest).map (fun (entries, rest) =>
        (.table .inline entries, rest))
  | _ + 1, text => scalar text

/-- Any value. -/
def read : Reader Value := nested maxDepth

end FlashStorage.Document.Expression
