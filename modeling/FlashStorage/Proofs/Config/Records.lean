import FlashStorage.Proofs.Config.Forms
import Mathlib.Data.Nat.Log

/-!
# Records are read back

A record is read back field by field, each field leaving exactly what stands behind
it, so any bytes may follow.  Its length is known exactly: a number takes one byte for
every group of seven bits, and a name its bytes and one more.  Whether a record fits a
buffer, and what is written to it, depends on this length alone.

Bytes that were not written as a record are read as well if they are in a form of some
configuration.  Its record is then no longer than they are, and nothing that is shorter
than a form is taken for a configuration of whatever version.
-/

namespace FlashStorage

namespace Varint

theorem length_encode (value : Nat) :
    (encode value).length = Nat.log 128 value + 1 := by
  induction value using encode.induct with
  | case1 value hsmall =>
      rw [encode, if_pos hsmall, Nat.log_of_lt hsmall]
      rfl
  | case2 value hlarge ih =>
      have hgroups : Nat.log 128 value = Nat.log 128 (value / 128) + 1 :=
        Nat.log_of_one_lt_of_le (by decide) (Nat.le_of_not_lt hlarge)
      rw [encode, if_neg hlarge, List.length_cons, ih, hgroups]

theorem length_encode_le (value : UInt64) :
    (encode value.toNat).length ≤ maxBytes := by
  have hword : value.toNat < 128 ^ 10 :=
    lt_trans value.toNat_lt_size (by decide)
  have hlog : Nat.log 128 value.toNat < 10 :=
    Nat.log_lt_of_lt_pow' (by decide) hword
  rw [length_encode]
  exact hlog

theorem isForm_encode (value : UInt64) :
    IsForm value.toNat (encode value.toNat) :=
  ⟨groups_encode _, length_encode_le value, value.toNat_lt_size⟩

end Varint

namespace Config

namespace Record

variable {config : Config} {name : Name}

theorem length_encodeName (name : Name) :
    (encodeName name).length = 1 + name.text.utf8ByteSize := by
  have hshort : name.text.utf8ByteSize < 128 :=
    lt_of_le_of_lt name.fits (by decide)
  rw [encodeName, List.length_append, Varint.length_encode,
    Nat.log_of_lt hshort, Utf8.length_encode]

theorem length_encode (config : Config) :
    (encode config).length =
      7 + Nat.log 128 config.kvSize.toNat + Nat.log 128 config.tsSize.toNat +
        config.kvName.text.utf8ByteSize + config.tsName.text.utf8ByteSize := by
  simp only [encode, List.length_append, List.length_cons, List.length_nil,
    Varint.length_encode, length_encodeName]
  omega

theorem length_encode_le (config : Config) : (encode config).length ≤ 57 := by
  have hkvSize := Varint.length_encode_le config.kvSize
  have htsSize := Varint.length_encode_le config.tsSize
  have hkvName := config.kvName.fits
  have htsName := config.tsName.fits
  rw [Varint.length_encode] at hkvSize htsSize
  unfold Varint.maxBytes at hkvSize htsSize
  unfold Name.capacity at hkvName htsName
  rw [length_encode]
  omega

/-! ## Reading -/

theorem isNameForm_encodeName (name : Name) :
    IsNameForm name (encodeName name) := by
  have hword : name.text.utf8ByteSize < UInt64.size :=
    lt_of_le_of_lt name.fits (by decide)
  have hsize : (UInt64.ofNat name.text.utf8ByteSize).toNat =
      name.text.utf8ByteSize :=
    Nat.mod_eq_of_lt hword
  have hlength := Varint.isForm_encode (UInt64.ofNat name.text.utf8ByteSize)
  rw [hsize] at hlength
  exact ⟨_, hlength, rfl⟩

theorem isForm_encode (config : Config) : IsForm config (encode config) :=
  ⟨_, _, _, _, Varint.isForm_encode config.kvSize,
    Varint.isForm_encode config.tsSize, isNameForm_encodeName config.kvName,
    isNameForm_encodeName config.tsName, rfl⟩

theorem decode_encode (config : Config) (tail : List UInt8) :
    decode (encode config ++ tail) = some (config, tail) :=
  reads_decode.eq_some (isForm_encode config) tail

end Record

variable {config : Config} {name : Name} {form bytes : List UInt8}
  {room kept : Nat}

theorem toRecord_eq_ok_iff {record : List UInt8} :
    config.toRecord room = .ok record ↔
      record = Record.encode config ∧ record.length ≤ room := by
  unfold toRecord
  by_cases hfits : (Record.encode config).length ≤ room
  · simp only [hfits, if_true, Except.ok.injEq]
    constructor
    · rintro rfl
      exact ⟨rfl, hfits⟩
    · rintro ⟨rfl, _⟩
      rfl
  · simp only [hfits, if_false, reduceCtorEq, false_iff]
    rintro ⟨rfl, hroom⟩
    exact hfits hroom

theorem toRecord_eq_error_iff {error : ConfigError} :
    config.toRecord room = .error error ↔
      error = .serialize ∧ room < (Record.encode config).length := by
  unfold toRecord
  by_cases hfits : (Record.encode config).length ≤ room
  · simp only [hfits, if_true, reduceCtorEq, false_iff]
    omega
  · have hshort : room < (Record.encode config).length := by omega
    simp only [hfits, if_false, Except.error.injEq, hshort, and_true]
    exact eq_comm

theorem ofRecord_encode (config : Config) (tail : List UInt8) :
    ofRecord (Record.encode config ++ tail) =
      if config.version = currentVersion then .ok config
      else .error (.versionMismatch config.version) := by
  unfold ofRecord
  rw [Record.decode_encode]

/-- Every configuration has one record of at most 57 bytes.  It is what is written
to any buffer that has room for it, and a shorter buffer is refused.  Whatever follows
the record, the configuration is read back from it if its version is the current one,
and its version is reported if not. -/
theorem record_read_back (config : Config) :
    (Record.encode config).length =
        7 + Nat.log 128 config.kvSize.toNat +
          Nat.log 128 config.tsSize.toNat +
          config.kvName.text.utf8ByteSize +
          config.tsName.text.utf8ByteSize ∧
      (Record.encode config).length ≤ 57 ∧ 57 ≤ maxRecordBytes ∧
      (∀ room record, config.toRecord room = .ok record ↔
        record = Record.encode config ∧ record.length ≤ room) ∧
      (∀ room error, config.toRecord room = .error error ↔
        error = .serialize ∧ room < (Record.encode config).length) ∧
      ∀ tail,
        (config.version = currentVersion →
          ofRecord (Record.encode config ++ tail) = .ok config) ∧
        (config.version ≠ currentVersion →
          ofRecord (Record.encode config ++ tail) =
            .error (.versionMismatch config.version)) := by
  refine ⟨Record.length_encode config, Record.length_encode_le config,
    by decide, fun _ _ => toRecord_eq_ok_iff, fun _ _ => toRecord_eq_error_iff,
    ?_⟩
  intro tail
  constructor
  · intro hcurrent
    rw [ofRecord_encode, if_pos hcurrent]
  · intro hother
    rw [ofRecord_encode, if_neg hother]

/-! ## What was cut off -/

theorem toRecord_maxRecordBytes (config : Config) :
    config.toRecord maxRecordBytes = .ok (Record.encode config) := by
  have hshort := Record.length_encode_le config
  exact toRecord_eq_ok_iff.mpr ⟨rfl, Nat.le_trans hshort (by decide)⟩

theorem ofRecord_encode_self (config : Config) :
    ofRecord (Record.encode config) =
      if config.version = currentVersion then .ok config
      else .error (.versionMismatch config.version) := by
  have hrecord := ofRecord_encode config []
  rwa [List.append_nil] at hrecord

theorem ofRecord_of_cut (hform : Record.IsForm config form)
    (hcut : kept < form.length) :
    ofRecord (form.take kept) = .error .deserialize := by
  unfold ofRecord
  rw [Record.reads_decode.eq_none_of_cut hform hcut]

/-- The record of a configuration of whatever version always fits the room that is
set aside for it.  What is left of it after a cut is refused as no record, wherever the
cut falls, and never because of its version; the whole record is not refused for that
reason. -/
theorem torn_record_refused (config : Config) :
    config.toRecord maxRecordBytes = .ok (Record.encode config) ∧
      ∀ kept, ofRecord ((Record.encode config).take kept) =
          .error .deserialize ↔ kept < (Record.encode config).length := by
  refine ⟨toRecord_maxRecordBytes config, fun kept => ⟨?_, ?_⟩⟩
  · intro hrefused
    by_contra hwhole
    rw [List.take_of_length_le (Nat.le_of_not_lt hwhole),
      ofRecord_encode_self] at hrefused
    split at hrefused <;> cases hrefused
  · exact ofRecord_of_cut (Record.isForm_encode config)

/-! ## What was not written as a record -/

theorem Record.IsNameForm.length_encodeName_le
    (hform : IsNameForm name form) :
    (encodeName name).length ≤ form.length := by
  obtain ⟨length, hlength, rfl⟩ := hform
  have hshortest := hlength.groups.length_encode_le
  rw [encodeName, List.length_append, List.length_append]
  exact Nat.add_le_add_right hshortest _

/-- No form of a configuration is shorter than its record. -/
theorem Record.IsForm.length_encode_le (hform : IsForm config form) :
    (encode config).length ≤ form.length := by
  obtain ⟨kvSize, tsSize, kvName, tsName, hkvSize, htsSize, hkvName, htsName,
    rfl⟩ := hform
  have hkvSizeLength := hkvSize.groups.length_encode_le
  have htsSizeLength := htsSize.groups.length_encode_le
  have hkvNameLength := hkvName.length_encodeName_le
  have htsNameLength := htsName.length_encodeName_le
  simp only [encode, List.length_append]
  omega

theorem ofRecord_eq_ok_iff :
    ofRecord bytes = .ok config ↔
      config.version = currentVersion ∧
        ∃ rest, Record.decode bytes = some (config, rest) := by
  unfold ofRecord
  cases hdecode : Record.decode bytes with
  | none => simp
  | some result =>
      obtain ⟨found, rest⟩ := result
      by_cases hcurrent : found.version = currentVersion
      · simp only [hcurrent, if_true, Except.ok.injEq, Option.some.injEq,
          Prod.mk.injEq]
        constructor
        · rintro rfl
          exact ⟨hcurrent, rest, rfl, rfl⟩
        · rintro ⟨_, _, hfound, _⟩
          exact hfound
      · simp only [hcurrent, if_false, reduceCtorEq, false_iff,
          Option.some.injEq, Prod.mk.injEq]
        rintro ⟨hversion, _, rfl, _⟩
        exact hcurrent hversion

/-- Bytes from which a configuration is read begin with a form of it.  The
configuration is of the current version, its names fit, and it can be put on record
again, in no more bytes than the form takes, and is read back from this record.  The
form decides alone: the same configuration is read whatever stands behind the form,
and none if anything of it is missing. -/
theorem accepted_bytes_canonical (hread : ofRecord bytes = .ok config) :
    config.version = currentVersion ∧
      (∀ database,
        (config.partitionName database).text.utf8ByteSize ≤ Name.capacity) ∧
      config.toRecord maxRecordBytes = .ok (Record.encode config) ∧
      ofRecord (Record.encode config) = .ok config ∧
      ∃ used rest, bytes = used ++ rest ∧
        Record.decode bytes = some (config, rest) ∧
        Record.IsForm config used ∧
        (Record.encode config).length ≤ used.length ∧
        (∀ other, ofRecord (used ++ other) = .ok config) ∧
        ∀ kept < used.length,
          ofRecord (used.take kept) = .error .deserialize := by
  obtain ⟨hcurrent, rest, hdecode⟩ := ofRecord_eq_ok_iff.mp hread
  obtain ⟨used, hform, hsplit⟩ := (Record.reads_decode _ _ _).mp hdecode
  have hagain : ofRecord (Record.encode config) = .ok config := by
    rw [ofRecord_encode_self, if_pos hcurrent]
  have hany (other : List UInt8) : ofRecord (used ++ other) = .ok config :=
    ofRecord_eq_ok_iff.mpr
      ⟨hcurrent, other, Record.reads_decode.eq_some hform other⟩
  exact ⟨hcurrent, fun database => (config.partitionName database).fits,
    toRecord_maxRecordBytes config, hagain, used, rest, hsplit, hdecode, hform,
    hform.length_encode_le, hany, fun _ hcut => ofRecord_of_cut hform hcut⟩

/-- Numbers and lengths in longer forms than needed, and one byte behind. -/
def paddedBytes : List UInt8 :=
  [1, 8, 32, 0x80, 0xA0, 0x80, 0, 0x90, 0x80, 0, 0x81, 0, 0x61, 2, 0xC3, 0xA9,
    0xFF]

/-- The configuration they stand for. -/
def padded : Config where
  version := 1
  granularityBits := 8
  timestampBits := 32
  kvSize := 4096
  tsSize := 16
  kvName := ⟨"a", by decide⟩
  tsName := ⟨"é", by decide⟩

theorem accepted_bytes_canonical_padded :
    ofRecord paddedBytes = .ok padded ∧ (Record.encode padded).length = 11 ∧
      ∃ used rest, paddedBytes = used ++ rest ∧ used.length = 16 ∧
        ∀ other, ofRecord (used ++ other) = .ok padded := by
  have hread : ofRecord paddedBytes = .ok padded := rfl
  obtain ⟨_, _, _, _, used, rest, hsplit, hdecode, _, _, hany, _⟩ :=
    accepted_bytes_canonical hread
  have hrest : rest = [0xFF] := by
    have hbehind : Record.decode paddedBytes = some (padded, [0xFF]) := rfl
    rw [hbehind] at hdecode
    exact (congrArg Prod.snd (Option.some.inj hdecode)).symm
  have hlength : used.length = 16 := by
    have hwhole := congrArg List.length hsplit
    rw [List.length_append, hrest] at hwhole
    exact Nat.succ.inj hwhole.symm
  exact ⟨hread, by decide +kernel, used, rest, hsplit, hlength, hany⟩

end Config

end FlashStorage
