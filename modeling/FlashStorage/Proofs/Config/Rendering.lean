import FlashStorage.Config.Printer
import FlashStorage.Proofs.Document.Layouts
import Mathlib.Data.List.Nodup

/-!
# Written configurations are read back

A configuration that passes its checks is read back from every text it can be written
as: from a table whose lines stand in any order, with or without the fields that have
their default and among lines that mean nothing here, and from an array.  Both ways of
reading find the same data for a field, the table by its key and the array by its
place, so what a field holds is said once and each way is checked against it.
-/

namespace FlashStorage.Config

open Document (Value Entries Denotes IsBareKey)
open Document.Number (IsWord isWord_of_le)
open Document.Printer (Style)

variable {config : Config}

/-- Documents hold integers of 64 bits with a sign, so a size may be too large for
them. -/
structure FitsDocument (config : Config) : Prop where
  kvSize : (config.kvSize.toNat : Int) ≤ Int64.maxValue.toInt
  tsSize : (config.tsSize.toNat : Int) ≤ Int64.maxValue.toInt

namespace Printer

variable {lines : List Line}

/-! ## What is written -/

/-- The value that a field is written as. -/
def Field.datum (config : Config) : Field → Value
  | .version => .integer config.version.toNat
  | .granularityBits => .integer config.granularityBits.toNat
  | .timestampBits => .integer config.timestampBits.toNat
  | .kvSize => .integer config.kvSize.toNat
  | .tsSize => .integer config.tsSize.toNat
  | .kvName => .text config.kvName.text
  | .tsName => .text config.tsName.text

/-- The value that a line below the header gives to its key. -/
def Line.datum (config : Config) : Line → Value
  | .field known => known.datum config
  | .extra _ value => .integer value

/-- The lines of a table, in any order: a field stands on one line unless it has its
default, and other lines have keys of their own. -/
structure Complete (config : Config) (lines : List Line) : Prop where
  keys : (lines.map Line.key).Nodup
  field : ∀ known, .field known ∈ lines ∨ known.isDefault config = true
  extra : ∀ key value, .extra key value ∈ lines →
    IsBareKey key ∧ IsWord value ∧ ∀ known, key ≠ Field.key known

theorem isWord_byte (byte : UInt8) : IsWord byte.toNat := by
  have hbyte := byte.toNat_lt_size
  have hmax : (UInt8.size : Int) ≤ Int64.maxValue.toInt := by decide
  exact isWord_of_le (by omega)

theorem Field.denotes (style : Style) (hfits : FitsDocument config)
    (known : Field) :
    Denotes (known.value style config) (known.datum config) := by
  cases known with
  | version => exact Document.denotes_natural (isWord_byte config.version)
  | granularityBits =>
      exact Document.denotes_natural (isWord_byte config.granularityBits)
  | timestampBits =>
      exact Document.denotes_natural (isWord_byte config.timestampBits)
  | kvSize => exact Document.denotes_natural (isWord_of_le hfits.kvSize)
  | tsSize => exact Document.denotes_natural (isWord_of_le hfits.tsSize)
  | kvName => exact Document.denotes_quoted style config.kvName.text
  | tsName => exact Document.denotes_quoted style config.tsName.text

theorem Field.isBareKey (known : Field) : IsBareKey known.key := by
  cases known <;> (constructor <;> decide)

theorem Field.mem_all (known : Field) : known ∈ Field.all := by
  cases known <;> decide

theorem Field.key_injective {known other : Field} (hkey : known.key = other.key) :
    known = other := by
  have hnodup : (Field.all.map Field.key).Nodup := by decide
  exact List.inj_on_of_nodup_map hnodup known.mem_all other.mem_all hkey

theorem Complete.denotes (style : Style) (hfits : FitsDocument config)
    (hlines : Complete config lines) :
    ∀ line ∈ lines, IsBareKey line.key ∧
      Denotes (line.value style config) (line.datum config) := by
  intro line hmem
  cases line with
  | field known => exact ⟨known.isBareKey, known.denotes style hfits⟩
  | extra key value =>
      obtain ⟨hkey, hword, _⟩ := hlines.extra key value hmem
      exact ⟨hkey, Document.denotes_integer hword⟩

/-! ## What the reader finds -/

/-- Entries that hold each field, or lack it where it has its default. -/
def HasFields (config : Config) (entries : Entries) : Prop :=
  ∀ known : Field, entries.lookup known.key = some (known.datum config) ∨
    entries.lookup known.key = none ∧ known.isDefault config = true

theorem lookup_eq_some_of_mem {entries : Entries} {key : String} {value : Value}
    (hkeys : (entries.map Prod.fst).Nodup) (hmem : (key, value) ∈ entries) :
    entries.lookup key = some value := by
  obtain ⟨before, after, rfl⟩ := List.append_of_mem hmem
  refine List.lookup_eq_some_iff.mpr ⟨before, after, rfl, ?_⟩
  intro entry hentry
  rw [List.map_append, List.nodup_append] at hkeys
  obtain ⟨_, _, hapart⟩ := hkeys
  have hother : entry.1 ≠ key :=
    hapart _ (List.mem_map_of_mem hentry) _ List.mem_cons_self
  exact bne_iff_ne.mpr (Ne.symm hother)

theorem Complete.hasFields (hlines : Complete config lines) :
    HasFields config
      (lines.map (fun line => (line.key, line.datum config))) := by
  intro known
  by_cases hwritten : .field known ∈ lines
  · left
    apply lookup_eq_some_of_mem
    · rw [List.map_map]
      exact hlines.keys
    · exact List.mem_map_of_mem (f := fun line => (line.key, line.datum config))
        hwritten
  · have hdefault := (hlines.field known).resolve_left hwritten
    refine .inr ⟨?_, hdefault⟩
    rw [List.lookup_eq_none_iff]
    intro entry hentry
    obtain ⟨line, hmem, rfl⟩ := List.mem_map.mp hentry
    rw [bne_iff_ne]
    cases line with
    | field other =>
        intro hsame
        rw [Field.key_injective hsame] at hwritten
        exact hwritten hmem
    | extra key value =>
        obtain ⟨_, _, hfresh⟩ := hlines.extra key value hmem
        exact Ne.symm (hfresh known)

end Printer

open Printer (Field Line HasFields Complete)

/-! ## Reading fields -/

namespace Text

theorem natural?_natCast {limit n : Nat} (hlimit : n < limit) :
    natural? limit (.integer n) = some n := by
  have hrange : (0 : Int) ≤ n ∧ (n : Int) < limit := by omega
  simp only [natural?, hrange, and_self, if_true, Int.toNat_natCast]

@[simp] theorem byte?_integer (byte : UInt8) :
    byte? (.integer byte.toNat) = some byte := by
  rw [byte?, natural?_natCast byte.toNat_lt_size, Option.map_some,
    UInt8.ofNat_toNat]

@[simp] theorem word?_integer (word : UInt64) :
    word? (.integer word.toNat) = some word := by
  rw [word?, natural?_natCast word.toNat_lt_size, Option.map_some,
    UInt64.ofNat_toNat]

@[simp] theorem name?_text (name : Name) : name? (.text name.text) = some name :=
  Name.ofString?_eq_some_iff.mpr rfl

section

variable {entries : Entries} {α : Type} {read : Value → Option α} {held : α}

theorem bind_lookup_eq_some (known : Field)
    (hfields : HasFields config entries)
    (hrequired : known.isDefault config = false)
    (hread : read (known.datum config) = some held) :
    (entries.lookup known.key).bind read = some held := by
  obtain hlookup | ⟨_, hdefault⟩ := hfields known
  · rw [hlookup, Option.bind_some, hread]
  · rw [hrequired] at hdefault
    cases hdefault

theorem optional_lookup_eq_some (known : Field) {default : α}
    (hfields : HasFields config entries)
    (homitted : known.isDefault config = true → default = held)
    (hread : read (known.datum config) = some held) :
    optional read default (entries.lookup known.key) = some held := by
  obtain hlookup | ⟨hlookup, hdefault⟩ := hfields known
  · rw [hlookup, optional, hread]
  · rw [hlookup, optional, homitted hdefault]

end

theorem ofEntries?_of_hasFields {entries : Entries}
    (hfields : HasFields config entries) : ofEntries? entries = some config := by
  have hversion : optional byte? currentVersion (entries.lookup versionKey) =
      some config.version :=
    optional_lookup_eq_some .version hfields
      (fun hdefault => (beq_iff_eq.mp hdefault).symm) (byte?_integer _)
  have hgranularity : (entries.lookup granularityKey).bind byte? =
      some config.granularityBits :=
    bind_lookup_eq_some .granularityBits hfields rfl (byte?_integer _)
  have htimestamp : (entries.lookup timestampKey).bind byte? =
      some config.timestampBits :=
    bind_lookup_eq_some .timestampBits hfields rfl (byte?_integer _)
  have hkvSize : (entries.lookup kvSizeKey).bind word? = some config.kvSize :=
    bind_lookup_eq_some .kvSize hfields rfl (word?_integer _)
  have htsSize : (entries.lookup tsSizeKey).bind word? = some config.tsSize :=
    bind_lookup_eq_some .tsSize hfields rfl (word?_integer _)
  have hkvName : optional name? defaultKvName (entries.lookup kvNameKey) =
      some config.kvName :=
    optional_lookup_eq_some .kvName hfields
      (fun hdefault => (beq_iff_eq.mp hdefault).symm) (name?_text _)
  have htsName : optional name? defaultTsName (entries.lookup tsNameKey) =
      some config.tsName :=
    optional_lookup_eq_some .tsName hfields
      (fun hdefault => (beq_iff_eq.mp hdefault).symm) (name?_text _)
  simp only [ofEntries?, hversion, hgranularity, htimestamp, hkvSize, htsSize,
    hkvName, htsName, Option.bind_eq_bind, Option.bind_some]

theorem ofElements?_datum (config : Config) :
    ofElements? (Field.all.map (Field.datum config)) = some config := by
  simp [ofElements?, Field.all, Field.datum, optional]

end Text

/-! ## Reading texts -/

theorem parse_eq_ok_iff {text : String} :
    parse text = .ok config ↔ ∃ root, Document.read text = some root ∧
      Text.ofDocument? root = some config ∧ config.checkValues = .ok () := by
  unfold parse
  constructor
  · intro hparse
    split at hparse
    · cases hparse
    · rename_i found hfound
      obtain ⟨root, hread, hdocument⟩ := Option.bind_eq_some_iff.mp hfound
      split at hparse
      · cases hparse
      · rename_i hchecked
        cases hparse
        exact ⟨root, hread, hdocument, hchecked⟩
  · rintro ⟨root, hread, hdocument, hchecked⟩
    simp only [hread, hdocument, hchecked, Option.bind_some]

/-- A configuration that passes its checks is read back from what is written for it,
whether as a table or as an array.  In the table the lines may stand in any order, the
version and the names may be left out where they have their defaults, and there may be
other lines with integers. -/
theorem parse_written (style : Style) (hchecked : config.checkValues = .ok ())
    (hfits : FitsDocument config) :
    (∀ lines, Complete config lines →
      parse (Printer.table style config lines) = .ok config) ∧
      parse (Printer.array style config) = .ok config := by
  have hname : IsBareKey Text.storageKey := by
    constructor <;> decide
  constructor
  · intro lines hlines
    have hread := Document.read_table hname (hlines.denotes style hfits)
      hlines.keys
    refine parse_eq_ok_iff.mpr ⟨_, hread, ?_, hchecked⟩
    exact Text.ofEntries?_of_hasFields hlines.hasFields
  · have hfields : ∀ known ∈ Field.all,
        Denotes (known.value style config) (known.datum config) :=
      fun known _ => known.denotes style hfits
    have hread := Document.read_array hname hfields
    refine parse_eq_ok_iff.mpr ⟨_, hread, ?_, hchecked⟩
    exact Text.ofElements?_datum config

/-- A configuration whose first name cannot be written as it stands. -/
def quaint : Config where
  version := 7
  granularityBits := 64
  timestampBits := 64
  kvSize := 1099511627776
  tsSize := 0
  kvName := ⟨"a\"b\\\t\x01é😀", by decide⟩
  tsName := defaultTsName

/-- The lines of a table for it, without the second name. -/
def quaintLines : List Line :=
  [.extra "0" (-5), .field .kvName, .field .tsSize, .field .kvSize,
    .extra "kv-name" 9223372036854775807, .field .timestampBits,
    .field .version, .field .granularityBits]

/-- A style with an escape where none is needed. -/
def quaintStyle : Style := ⟨fun c => c == 'é', true⟩

example : Printer.table quaintStyle quaint quaintLines =
    "[storage]\n0 = -5\n" ++
      "kv_partition_name = \"a\\u0022b\\u005C\\u0009\\u0001\\u00E9😀\"\n" ++
      "ts_partition_size_bytes = 0\nkv_partition_size_bytes = 1099511627776\n" ++
      "kv-name = 9223372036854775807\ntimestamp_width_bits = 64\n" ++
      "version = 7\nwrite_granularity_bits = 64\n" := by
  decide +kernel

theorem complete_quaint : Complete quaint quaintLines where
  keys := by decide
  field known := by cases known <;> decide
  extra key value hmem := by
    simp only [quaintLines, List.mem_cons, Line.extra.injEq, reduceCtorEq,
      false_or, List.not_mem_nil, or_false] at hmem
    obtain ⟨rfl, rfl⟩ | ⟨rfl, rfl⟩ := hmem
    · refine ⟨⟨by decide, by decide⟩, ⟨by decide, by decide⟩, ?_⟩
      intro known
      cases known <;> decide
    · refine ⟨⟨by decide, by decide⟩, ⟨by decide, by decide⟩, ?_⟩
      intro known
      cases known <;> decide

theorem parse_written_quaint :
    parse (Printer.table quaintStyle quaint quaintLines) = .ok quaint ∧
      parse (Printer.array quaintStyle quaint) = .ok quaint := by
  have hfits : FitsDocument quaint := ⟨by decide, by decide⟩
  obtain ⟨htable, harray⟩ := parse_written quaintStyle rfl hfits
  exact ⟨htable quaintLines complete_quaint, harray⟩

end FlashStorage.Config
