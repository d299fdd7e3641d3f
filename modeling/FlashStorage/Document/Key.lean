import FlashStorage.Document.Quoted

/-!
# Keys

A key is bare, or quoted on one line; a dotted key is several of them with dots
between them.  Blanks around the parts do not count.
-/

namespace FlashStorage.Document

/-- The part in front of the last one name the tables it is in. -/
structure Key where
  path : List String
  name : String
deriving DecidableEq, Repr

namespace Key

/-- The most parts of a dotted key. -/
def maxParts : Nat := 79

/-- One part of a key. -/
def part : Reader String
  | '"' :: rest =>
      (Quoted.basic none rest).map (fun (text, rest) =>
        (String.ofList text, rest))
  | '\x27' :: rest =>
      (Quoted.verbatim rest).map (fun (text, rest) =>
        (String.ofList text, rest))
  | text =>
      let bare := text.takeWhile isBare
      if bare.isEmpty then none
      else some (String.ofList bare, text.dropWhile isBare)

/-- A key of at most so many parts. -/
def ofParts : Nat → Reader Key
  | 0, _ => none
  | parts + 1, text => do
      let (name, rest) ← part (skipBlanks text)
      match skipBlanks rest with
      | '.' :: rest => do
          let (key, rest) ← ofParts parts rest
          some ({ key with path := name :: key.path }, rest)
      | rest => some (⟨[], name⟩, rest)

/-- A key with the blanks around it. -/
def read : Reader Key := ofParts maxParts

end Key

end FlashStorage.Document
