import FlashStorage.Document.Expression

/-!
# Reading documents

A document is a sequence of lines.  A header in brackets opens a table, one in
double brackets opens one more table of an array, and every definition belongs to
the table opened last.
-/

namespace FlashStorage.Document

/-- What the lines so far have built. -/
structure Builder where
  root : Entries
  /-- The path of the table opened last; empty for the root. -/
  current : List String

namespace Builder

def empty : Builder := ⟨[], []⟩

/-- Define a key in the table opened last. -/
def define (builder : Builder) (key : Key) (value : Value) : Option Builder := do
  let change := Entries.defineDotted key.name value key.path
  let root ← builder.root.within change builder.current
  some { builder with root := root }

/-- Open a table. -/
def openTable (builder : Builder) (key : Key) : Option Builder := do
  let root ← builder.root.within (Entries.openTable key.name) key.path
  some ⟨root, key.path ++ [key.name]⟩

/-- Open one more table of an array. -/
def pushTable (builder : Builder) (key : Key) : Option Builder := do
  let root ← builder.root.within (Entries.pushTable key.name) key.path
  some ⟨root, key.path ++ [key.name]⟩

/-- Read one line, from behind the blanks in front of it. -/
def readLine (builder : Builder) : Reader Builder
  | '[' :: '[' :: rest => do
      match ← Key.read rest with
      | (key, ']' :: ']' :: rest) => do
          let builder ← builder.pushTable key
          some (builder, ← endLine rest)
      | _ => none
  | '[' :: rest => do
      match ← Key.read rest with
      | (key, ']' :: rest) => do
          let builder ← builder.openTable key
          some (builder, ← endLine rest)
      | _ => none
  | c :: rest =>
      if c == '#' || c == '\n' || c == '\r' then
        (endLine (c :: rest)).map (fun rest => (builder, rest))
      else do
        let ((key, value), rest) ← Expression.definition Expression.read (c :: rest)
        let builder ← builder.define key value
        some (builder, ← endLine rest)
  | [] => some (builder, [])

/-- Read lines to the end of the text; each takes at least one character. -/
def readLines : Nat → Builder → List Char → Option Builder
  | 0, _, _ => none
  | fuel + 1, builder, text =>
      match skipBlanks text with
      | [] => some builder
      | text => do
          let (builder, rest) ← builder.readLine text
          readLines fuel builder rest

end Builder

/-- The root table of a document.  A byte order mark in front is dropped. -/
def read (text : String) : Option Entries :=
  let text :=
    match text.toList with
    | '\ufeff' :: rest => rest
    | text => text
  (Builder.readLines (text.length + 1) Builder.empty text).map Builder.root

end FlashStorage.Document
