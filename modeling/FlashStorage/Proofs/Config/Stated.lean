import FlashStorage.Proofs.Config.Rendering
import FlashStorage.Proofs.Config.Validation
import FlashStorage.Proofs.Document.Integers
import Mathlib.Algebra.Group.Nat.Defs

/-!
# What a text states

A configuration that was read from a text is followed back to the text.  Each field
has the value that the text gives to it, in a table or in an array, or it was left out
and has its default.  Since a document holds 64-bit integers with a sign only, the two
sizes are less than half of the words, and their total is never cut off.  What remains
to be tested on a device is whether its erase block divides them.
-/

namespace FlashStorage.Config

open Document (Value Entries)
open Printer (Field)

variable {config : Config} {root : Entries} {text : String}

namespace Text

/-! ## Fields as they are read -/

theorem natural?_eq_some {limit n : Nat} {value : Value}
    (hnatural : natural? limit value = some n) :
    value = .integer n ∧ n < limit := by
  cases value with
  | integer value =>
      simp only [natural?] at hnatural
      split at hnatural
      · rename_i hrange
        cases hnatural
        rw [Int.toNat_of_nonneg hrange.1]
        exact ⟨rfl, by omega⟩
      · cases hnatural
  | _ => cases hnatural

theorem byte?_eq_some {value : Value} {byte : UInt8}
    (hbyte : byte? value = some byte) : value = .integer byte.toNat := by
  obtain ⟨n, hnatural, rfl⟩ := Option.map_eq_some_iff.mp hbyte
  obtain ⟨hvalue, hlimit⟩ := natural?_eq_some hnatural
  have hn : (UInt8.ofNat n).toNat = n := Nat.mod_eq_of_lt hlimit
  rw [hvalue, hn]

theorem word?_eq_some {value : Value} {word : UInt64}
    (hword : word? value = some word) : value = .integer word.toNat := by
  obtain ⟨n, hnatural, rfl⟩ := Option.map_eq_some_iff.mp hword
  obtain ⟨hvalue, hlimit⟩ := natural?_eq_some hnatural
  have hn : (UInt64.ofNat n).toNat = n := Nat.mod_eq_of_lt hlimit
  rw [hvalue, hn]

theorem name?_eq_some {value : Value} {name : Name}
    (hname : name? value = some name) : value = .text name.text := by
  cases value with
  | text value => rw [Name.ofString?_eq_some_iff.mp hname]
  | _ => cases hname

/-- What is stated for each field is what a configuration holds there, or nothing is
stated and it holds the default. -/
def Accounts (stated : Field → Option Value) (config : Config) : Prop :=
  ∀ known : Field, stated known = some (known.datum config) ∨
    stated known = none ∧ known.isDefault config = true

section

variable {α : Type} {read : Value → Option α} {default held : α}
  {value? : Option Value} {datum : Value}

theorem eq_some_of_bind
    (hdatum : ∀ value, read value = some held → value = datum)
    (hread : value?.bind read = some held) : value? = some datum := by
  obtain ⟨value, hvalue, hheld⟩ := Option.bind_eq_some_iff.mp hread
  rw [hvalue, hdatum value hheld]

theorem eq_some_or_default_of_optional [BEq α] [LawfulBEq α]
    (hdatum : ∀ value, read value = some held → value = datum)
    (hread : optional read default value? = some held) :
    value? = some datum ∨ value? = none ∧ (held == default) = true := by
  cases value? with
  | none => exact .inr ⟨rfl, beq_iff_eq.mpr (Option.some.inj hread).symm⟩
  | some value => exact .inl (congrArg some (hdatum value hread))

end

/-- Both ways of reading take the fields one by one, wherever each of them is
found. -/
theorem accounts_of_fields {stated : Field → Option Value}
    (hversion : optional byte? currentVersion (stated .version) =
      some config.version)
    (hgranularity : (stated .granularityBits).bind byte? =
      some config.granularityBits)
    (htimestamp : (stated .timestampBits).bind byte? =
      some config.timestampBits)
    (hkvSize : (stated .kvSize).bind word? = some config.kvSize)
    (htsSize : (stated .tsSize).bind word? = some config.tsSize)
    (hkvName : optional name? defaultKvName (stated .kvName) =
      some config.kvName)
    (htsName : optional name? defaultTsName (stated .tsName) =
      some config.tsName) :
    Accounts stated config := by
  intro known
  cases known with
  | version =>
      exact eq_some_or_default_of_optional (fun _ => byte?_eq_some) hversion
  | granularityBits =>
      exact .inl (eq_some_of_bind (fun _ => byte?_eq_some) hgranularity)
  | timestampBits =>
      exact .inl (eq_some_of_bind (fun _ => byte?_eq_some) htimestamp)
  | kvSize => exact .inl (eq_some_of_bind (fun _ => word?_eq_some) hkvSize)
  | tsSize => exact .inl (eq_some_of_bind (fun _ => word?_eq_some) htsSize)
  | kvName =>
      exact eq_some_or_default_of_optional (fun _ => name?_eq_some) hkvName
  | tsName =>
      exact eq_some_or_default_of_optional (fun _ => name?_eq_some) htsName

/-! ## Where they are found -/

/-- The value that a table gives to a field by its key. -/
def ofKey (entries : Entries) (known : Field) : Option Value :=
  entries.lookup known.key

/-- The value that an array gives to a field by its place. -/
def ofPlace (elements : List Value) (known : Field) : Option Value :=
  elements[Field.all.idxOf known]?

/-- The value that a document gives to a field. -/
def stated? (root : Entries) (known : Field) : Option Value :=
  match root.lookup storageKey with
  | some (.table _ entries) => ofKey entries known
  | some (.array elements) => ofPlace elements known
  | _ => none

theorem accounts_of_ofEntries? {entries : Entries}
    (hentries : ofEntries? entries = some config) :
    Accounts (ofKey entries) config := by
  simp only [ofEntries?, Option.bind_eq_bind, Option.bind_eq_some_iff,
    Option.some.injEq] at hentries
  obtain ⟨_, hversion, _, hgranularity, _, htimestamp, _, hkvSize, _, htsSize,
    _, hkvName, _, htsName, rfl⟩ := hentries
  exact accounts_of_fields hversion
    (Option.bind_eq_some_iff.mpr hgranularity)
    (Option.bind_eq_some_iff.mpr htimestamp)
    (Option.bind_eq_some_iff.mpr hkvSize)
    (Option.bind_eq_some_iff.mpr htsSize) hkvName htsName

/-- A table is read as the configuration whose fields it holds, and as no other. -/
theorem ofEntries?_eq_some_iff {entries : Entries} :
    ofEntries? entries = some config ↔ Printer.HasFields config entries :=
  ⟨accounts_of_ofEntries?, ofEntries?_of_hasFields⟩

theorem accounts_of_ofElements? {elements : List Value}
    (helements : ofElements? elements = some config) :
    Accounts (ofPlace elements) config := by
  unfold ofElements? at helements
  split at helements
  · simp only [Option.bind_eq_bind, Option.bind_eq_some_iff,
      Option.some.injEq] at helements
    obtain ⟨_, hversion, _, hgranularity, _, htimestamp, _, hkvSize, _,
      htsSize, _, hkvName, _, htsName, rfl⟩ := helements
    exact accounts_of_fields hversion hgranularity htimestamp hkvSize htsSize
      hkvName htsName
  · cases helements

/-- A configuration holds in each field what its document states, or else its
default. -/
theorem accounts_of_ofDocument? (hdocument : ofDocument? root = some config) :
    Accounts (stated? root) config := by
  unfold ofDocument? at hdocument
  unfold Accounts stated?
  cases hstorage : root.lookup storageKey with
  | none =>
      rw [hstorage] at hdocument
      cases hdocument
  | some value =>
      rw [hstorage] at hdocument
      cases value with
      | table kind entries => exact ofEntries?_eq_some_iff.mp hdocument
      | array elements => exact accounts_of_ofElements? hdocument
      | _ => cases hdocument

theorem ofWords_of_stated? {known : Field} {value : Value}
    (hroot : root.OfWords) (hstated : stated? root known = some value) :
    value.OfWords := by
  unfold stated? at hstated
  cases hstorage : root.lookup storageKey with
  | none =>
      rw [hstorage] at hstated
      cases hstated
  | some storage =>
      have hstorageWords := Document.Entries.ofWords_of_lookup hroot hstorage
      rw [hstorage] at hstated
      cases hstorageWords with
      | table kind hentries =>
          exact Document.Entries.ofWords_of_lookup hentries hstated
      | array helements =>
          exact helements _ (List.mem_of_getElem? hstated)
      | _ => cases hstated

/-- A size has no default, so it is an integer of the document. -/
theorem isWord_of_accounts (known : Field) {size : UInt64}
    (hroot : root.OfWords) (haccounts : Accounts (stated? root) config)
    (hrequired : known.isDefault config = false)
    (hdatum : known.datum config = .integer size.toNat) :
    Document.Number.IsWord size.toNat := by
  obtain hstated | ⟨_, hdefault⟩ := haccounts known
  · rw [hdatum] at hstated
    cases ofWords_of_stated? hroot hstated with
    | integer hword => exact hword
  · rw [hrequired] at hdefault
    cases hdefault

end Text

/-! ## Parsed configurations -/

theorem fitsDocument_of_parse (hparse : parse text = .ok config) :
    FitsDocument config := by
  obtain ⟨root, hread, hdocument, _⟩ := parse_eq_ok_iff.mp hparse
  have hroot := Document.ofWords_of_read hread
  have haccounts := Text.accounts_of_ofDocument? hdocument
  have hkvSize : Document.Number.IsWord config.kvSize.toNat :=
    Text.isWord_of_accounts .kvSize hroot haccounts rfl rfl
  have htsSize : Document.Number.IsWord config.tsSize.toNat :=
    Text.isWord_of_accounts .tsSize hroot haccounts rfl rfl
  exact ⟨hkvSize.2, htsSize.2⟩

/-- A configuration that was read from a text passes the tests that need no device.
Its sizes are those of signed integers, so that their total is exact, and its names
fit.  On a device it is refused for a misfitting partition only, the first one in
layout order, and it passes if there is none. -/
theorem parsed_config_usable (hparse : parse text = .ok config) :
    config.checkValues = .ok () ∧
      config.kvSize.toNat ≤ 2 ^ 63 - 1 ∧ config.tsSize.toNat ≤ 2 ^ 63 - 1 ∧
      config.totalSize.toNat = config.kvSize.toNat + config.tsSize.toNat ∧
      (∀ database,
        (config.partitionName database).text.utf8ByteSize ≤ Name.capacity) ∧
      ∀ block,
        (config.validate block = .ok () ↔
          ∀ database, ¬ config.Misfits block database) ∧
        ∀ cause, config.validate block = .error cause ↔
          ∃ database,
            cause = .misaligned database (config.partitionSize database) block ∧
              config.Misfits block database ∧
                (database = .ts → ¬ config.Misfits block .kv) := by
  obtain ⟨_, _, _, hvalues⟩ := parse_eq_ok_iff.mp hparse
  have hfits := fitsDocument_of_parse hparse
  have hlargest : Int64.maxValue.toInt = 2 ^ 63 - 1 := by decide
  have hkvSize : config.kvSize.toNat ≤ 2 ^ 63 - 1 := by
    have hle := hfits.kvSize
    omega
  have htsSize : config.tsSize.toNat ≤ 2 ^ 63 - 1 := by
    have hle := hfits.tsSize
    omega
  have htotal : config.totalSize.toNat =
      config.kvSize.toNat + config.tsSize.toNat := by
    rw [totalSize, Word.toNat_saturatingAdd]
    have hword : UInt64.size = 2 ^ 64 := rfl
    omega
  refine ⟨hvalues, hkvSize, htsSize, htotal,
    fun database => (config.partitionName database).fits, fun block => ⟨?_, ?_⟩⟩
  · exact validate_eq_ok_iff_of_checkValues hvalues
  · exact fun cause => validate_eq_error_iff hvalues

/-- A table whose first partition is made of whole blocks of 16 bytes, but not of 4096
bytes. -/
def sizesText : String :=
  "[storage]\nwrite_granularity_bits = 8\ntimestamp_width_bits = 32\n" ++
  "kv_partition_size_bytes = 6000\nts_partition_size_bytes = 4096\n"

theorem parsed_config_usable_sizesText :
    ∃ config, parse sizesText = .ok config ∧
      config.totalSize.toNat = 10096 ∧ config.validate 16 = .ok () ∧
      config.validate 4096 = .error (.misaligned .kv 6000 4096) := by
  have hparse : parse sizesText = .ok (ofValues 8 32 6000 4096) := by
    decide +kernel
  obtain ⟨_, _, _, htotal, _, hblocks⟩ := parsed_config_usable hparse
  refine ⟨_, hparse, htotal, ?_, ?_⟩
  · refine (hblocks 16).1.mpr ?_
    intro database
    cases database <;> decide
  · exact ((hblocks 4096).2 _).mpr ⟨.kv, rfl, by decide, by decide⟩

end FlashStorage.Config
