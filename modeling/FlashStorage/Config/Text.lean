import FlashStorage.Config.Basic
import FlashStorage.Document.Builder
import FlashStorage.Utf8

/-!
# Configuration files

Operators state a configuration under the key `storage` of a document, as a table
or as an array in the order of the fields.  The version and the two names may be
left out.  Sizes are tested against no device yet, but all else is.
-/

namespace FlashStorage.Config

open Document (Value Entries)

/-- Why a file could not be read. -/
inductive FileError where
  | notFound
  | notText
deriving DecidableEq, Repr

def FileError.message : FileError → String
  | .notFound => "No such file or directory (os error 2)"
  | .notText => "stream did not contain valid UTF-8"

inductive LoadError where
  | file (error : FileError)
  /-- The text is no document, or has no configuration in it. -/
  | document
  | config (error : ConfigError)
deriving DecidableEq, Repr

/-- The wording of an error; what is wrong with a document is left to the reader
of the document. -/
def LoadError.message? : LoadError → Option String
  | .file error => some s!"cannot read config: {error.message}"
  | .document => none
  | .config error => some s!"invalid storage config: {error.message}"

namespace Text

/-- The key of the configuration in its document. -/
def storageKey : String := "storage"

/-- The keys of the fields, in the order of the array form. -/
def versionKey : String := "version"
def granularityKey : String := "write_granularity_bits"
def timestampKey : String := "timestamp_width_bits"
def kvSizeKey : String := "kv_partition_size_bytes"
def tsSizeKey : String := "ts_partition_size_bytes"
def kvNameKey : String := "kv_partition_name"
def tsNameKey : String := "ts_partition_name"

/-- An integer that is a natural number below a limit. -/
def natural? (limit : Nat) : Value → Option Nat
  | .integer value =>
      if 0 ≤ value ∧ value < limit then some value.toNat else none
  | _ => none

def byte? (value : Value) : Option UInt8 :=
  (natural? UInt8.size value).map UInt8.ofNat

def word? (value : Value) : Option UInt64 :=
  (natural? UInt64.size value).map UInt64.ofNat

def name? : Value → Option Name
  | .text value => Name.ofString? value
  | _ => none

/-- A field that may be left out. -/
def optional {α : Type} (read : Value → Option α) (default : α) :
    Option Value → Option α
  | none => some default
  | some value => read value

/-- A configuration from the entries of a table; other keys do not matter. -/
def ofEntries? (entries : Entries) : Option Config := do
  let version ←
    optional byte? currentVersion (entries.lookup versionKey)
  let granularityBits ← (entries.lookup granularityKey).bind byte?
  let timestampBits ← (entries.lookup timestampKey).bind byte?
  let kvSize ← (entries.lookup kvSizeKey).bind word?
  let tsSize ← (entries.lookup tsSizeKey).bind word?
  let kvName ← optional name? defaultKvName (entries.lookup kvNameKey)
  let tsName ← optional name? defaultTsName (entries.lookup tsNameKey)
  some ⟨version, granularityBits, timestampBits, kvSize, tsSize, kvName, tsName⟩

/-- A configuration from the elements of an array; further ones do not
matter. -/
def ofElements? : List Value → Option Config
  | version :: granularityBits :: timestampBits :: kvSize :: tsSize :: names => do
      let version ← byte? version
      let granularityBits ← byte? granularityBits
      let timestampBits ← byte? timestampBits
      let kvSize ← word? kvSize
      let tsSize ← word? tsSize
      let kvName ← optional name? defaultKvName names[0]?
      let tsName ← optional name? defaultTsName names[1]?
      some
        ⟨version, granularityBits, timestampBits, kvSize, tsSize, kvName, tsName⟩
  | _ => none

/-- The configuration that a document holds. -/
def ofDocument? (root : Entries) : Option Config :=
  match root.lookup storageKey with
  | some (.table _ entries) => ofEntries? entries
  | some (.array elements) => ofElements? elements
  | _ => none

end Text

/-- The configuration that a text states. -/
def parse (text : String) : Except LoadError Config :=
  match (Document.read text).bind Text.ofDocument? with
  | none => .error .document
  | some config =>
      match config.checkValues with
      | .error error => .error (.config error)
      | .ok _ => .ok config

/-- The configuration in a file, given its bytes if it exists. -/
def load (file : Option (List UInt8)) : Except LoadError Config :=
  match file with
  | none => .error (.file .notFound)
  | some bytes =>
      match Utf8.decode? bytes with
      | none => .error (.file .notText)
      | some text => parse text

end FlashStorage.Config
