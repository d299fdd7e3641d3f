import FlashStorage.Config.Text
import FlashStorage.Document.Printer

/-!
# Writing configuration files

A configuration can be written under the header `storage` with one line for each
field, in any order, among other lines with whole numbers; fields that have a
default may be left out where they have it.  Or it is written as an array, in the
order of the fields.
-/

namespace FlashStorage.Config.Printer

open Document.Printer (Style natural integer quoted header definition)

/-- One of the seven fields. -/
inductive Field where
  | version
  | granularityBits
  | timestampBits
  | kvSize
  | tsSize
  | kvName
  | tsName
deriving DecidableEq, Repr

/-- The fields in the order of the array form. -/
def Field.all : List Field :=
  [.version, .granularityBits, .timestampBits, .kvSize, .tsSize, .kvName,
    .tsName]

def Field.key : Field → String
  | .version => Text.versionKey
  | .granularityBits => Text.granularityKey
  | .timestampBits => Text.timestampKey
  | .kvSize => Text.kvSizeKey
  | .tsSize => Text.tsSizeKey
  | .kvName => Text.kvNameKey
  | .tsName => Text.tsNameKey

/-- Whether a field may be left out because it has its default. -/
def Field.isDefault (config : Config) : Field → Bool
  | .version => config.version == currentVersion
  | .kvName => config.kvName == defaultKvName
  | .tsName => config.tsName == defaultTsName
  | _ => false

/-- What is written for a field. -/
def Field.value (style : Style) (config : Config) : Field → List Char
  | .version => natural config.version.toNat
  | .granularityBits => natural config.granularityBits.toNat
  | .timestampBits => natural config.timestampBits.toNat
  | .kvSize => natural config.kvSize.toNat
  | .tsSize => natural config.tsSize.toNat
  | .kvName => quoted style config.kvName.text
  | .tsName => quoted style config.tsName.text

/-- A line below the header. -/
inductive Line where
  | field (known : Field)
  | extra (key : String) (value : Int)
deriving DecidableEq, Repr

def Line.key : Line → String
  | .field known => known.key
  | .extra key _ => key

def Line.value (style : Style) (config : Config) : Line → List Char
  | .field known => known.value style config
  | .extra _ value => integer value

def Line.write (style : Style) (config : Config) (line : Line) : List Char :=
  definition line.key (line.value style config)

/-- The configuration under its header. -/
def table (style : Style) (config : Config) (lines : List Line) : String :=
  String.ofList
    (header Text.storageKey ++ lines.flatMap (Line.write style config))

/-- The configuration as an array. -/
def array (style : Style) (config : Config) : String :=
  String.ofList (definition Text.storageKey
    (Document.Printer.array (Field.all.map (Field.value style config))))

end FlashStorage.Config.Printer
