/-!
# Documents

Configuration files are TOML 1.0 documents: nested tables of keys and values.
Only the parts that a configuration can use are kept apart; booleans, floats,
dates and times are kept as they were written.  A table remembers how it came
about, since that decides which later lines may add to it.
-/

namespace FlashStorage.Document

inductive TableKind where
  /-- Opened by a header of its own; also the root. -/
  | explicit
  /-- Only passed through by the headers of tables inside it. -/
  | implied
  /-- Passed through by a dotted key. -/
  | dotted
  /-- Written in braces; complete as it stands. -/
  | inline
deriving DecidableEq, Repr

inductive Value where
  | integer (value : Int)
  | text (value : String)
  /-- A boolean, a float, a date or a time. -/
  | literal (written : String)
  | array (elements : List Value)
  | table (kind : TableKind) (entries : List (String × Value))
  /-- The tables opened by headers in double brackets, the latest apart. -/
  | tables (latest : List (String × Value))
      (earlier : List (List (String × Value)))

/-- The keys of a table with their values, in the order of their first
appearance. -/
abbrev Entries := List (String × Value)

namespace Entries

/-- Change what a key stands for, or give it a first value; the change may be
refused. -/
def alter (key : String) (change : Option Value → Option Value) :
    Entries → Option Entries
  | [] => (change none).map (fun value => [(key, value)])
  | (other, value) :: rest =>
      if other = key then
        (change (some value)).map (fun value => (other, value) :: rest)
      else
        (alter key change rest).map (fun rest => (other, value) :: rest)

/-- Give a value to a key that has none. -/
def define (key : String) (value : Value) : Entries → Option Entries :=
  alter key (fun
    | none => some value
    | some _ => none)

/-- Define a key inside the tables that a dotted key passes through.  Missing
tables are made; tables in braces stay closed to dotted keys from outside. -/
def defineInline (name : String) (value : Value) :
    (path : List String) → Entries → Option Entries
  | [], entries => define name value entries
  | key :: path, entries =>
      entries.alter key (fun
        | none => (defineInline name value path []).map (Value.table .dotted)
        | some (.table .dotted inner) =>
            (defineInline name value path inner).map (Value.table .dotted)
        | some _ => none)

/-- Define a key below the current header.  A dotted key may pass through
implied tables and the latest of an array of tables, but the table it ends in
must be one of dotted keys; a table with a header of its own stays closed. -/
def defineDotted (name : String) (value : Value) :
    (path : List String) → Entries → Option Entries
  | [], entries => define name value entries
  | key :: path, entries =>
      entries.alter key (fun
        | none => (defineDotted name value path []).map (Value.table .dotted)
        | some (.table .dotted inner) =>
            (defineDotted name value path inner).map (Value.table .dotted)
        | some (.table .implied inner) =>
            if path.isEmpty then none
            else (defineDotted name value path inner).map (Value.table .implied)
        | some (.tables latest earlier) =>
            if path.isEmpty then none
            else
              (defineDotted name value path latest).map (fun latest =>
                .tables latest earlier)
        | some _ => none)

/-- Change the table at the end of a path of headers.  Missing tables on the way
are implied. -/
def within (change : Entries → Option Entries) :
    (path : List String) → Entries → Option Entries
  | [], entries => change entries
  | key :: path, entries =>
      entries.alter key (fun
        | none => (within change path []).map (Value.table .implied)
        | some (.table .inline _) => none
        | some (.table kind inner) =>
            (within change path inner).map (Value.table kind)
        | some (.tables latest earlier) =>
            (within change path latest).map (fun latest =>
              .tables latest earlier)
        | some _ => none)

/-- Open a table by its header: a new one, or one that was only implied. -/
def openTable (name : String) : Entries → Option Entries :=
  alter name (fun
    | none => some (.table .explicit [])
    | some (.table .implied inner) => some (.table .explicit inner)
    | some _ => none)

/-- Open one more table of an array of tables. -/
def pushTable (name : String) : Entries → Option Entries :=
  alter name (fun
    | none => some (.tables [] [])
    | some (.tables latest earlier) => some (.tables [] (latest :: earlier))
    | some _ => none)

end Entries

end FlashStorage.Document
