import FlashStorage.Proofs.Config.Records
import FlashStorage.Proofs.Config.Stated

/-!
# From texts to records

A configuration read from a text can always be put on record, but it is read back only
if its version is the current one, which the reader of texts does not ask for.  What a
text states as the version is therefore followed through the reader: the version of
the configuration is what is stated, and the current one if nothing is.
-/

namespace FlashStorage.Config

open Document (Value)

variable {config : Config} {text : String}

namespace Text

/-- The value that a text gives to the version, if it gives one. -/
def statedVersion? (text : String) : Option Value :=
  (Document.read text).bind (fun root => stated? root .version)

/-- Whether a text leaves the version out or states the current one. -/
def StatesCurrent (text : String) : Prop :=
  statedVersion? text = none ∨
    statedVersion? text = some (.integer currentVersion.toNat)

/-! ## What the reader of texts takes as the version -/

theorem statedVersion?_of_parse (hparse : parse text = .ok config) :
    statedVersion? text = none ∧ config.version = currentVersion ∨
      statedVersion? text = some (.integer config.version.toNat) := by
  obtain ⟨root, hread, hdocument, _⟩ := parse_eq_ok_iff.mp hparse
  have hstated : statedVersion? text = stated? root .version := by
    rw [statedVersion?, hread, Option.bind_some]
  rw [hstated]
  obtain hversion | ⟨hnone, hdefault⟩ :=
    accounts_of_ofDocument? hdocument .version
  · exact .inr hversion
  · exact .inl ⟨hnone, beq_iff_eq.mp hdefault⟩

theorem statesCurrent_iff (hparse : parse text = .ok config) :
    StatesCurrent text ↔ config.version = currentVersion := by
  unfold StatesCurrent
  obtain ⟨hstated, hcurrent⟩ | hstated := statedVersion?_of_parse hparse
  · exact iff_of_true (.inl hstated) hcurrent
  · rw [hstated]
    constructor
    · rintro (hnone | hsame)
      · cases hnone
      · rw [Option.some.injEq, Value.integer.injEq, Int.natCast_inj] at hsame
        exact UInt8.toNat_inj.mp hsame
    · intro hcurrent
      rw [hcurrent]
      exact .inr rfl

end Text

/-! ## On record -/

/-- A configuration that was read from a text can be put on record.  It is read back
from its record if the text leaves the version out or states the current one.  If it
states another version, that is the one of the configuration, and the record is refused
because of it. -/
theorem record_of_parsed (hparse : parse text = .ok config) :
    config.toRecord maxRecordBytes = .ok (Record.encode config) ∧
      (Text.StatesCurrent text →
        ofRecord (Record.encode config) = .ok config) ∧
      (¬ Text.StatesCurrent text →
        Text.statedVersion? text = some (.integer config.version.toNat) ∧
          ofRecord (Record.encode config) =
            .error (.versionMismatch config.version)) := by
  refine ⟨toRecord_maxRecordBytes config, ?_, ?_⟩
  · intro hstates
    rw [ofRecord_encode_self,
      if_pos ((Text.statesCurrent_iff hparse).mp hstates)]
  · intro hother
    have hversion : config.version ≠ currentVersion :=
      fun hcurrent => hother ((Text.statesCurrent_iff hparse).mpr hcurrent)
    constructor
    · obtain ⟨_, hcurrent⟩ | hstated := Text.statedVersion?_of_parse hparse
      · exact absurd hcurrent hversion
      · exact hstated
    · rw [ofRecord_encode_self, if_neg hversion]

/-- An array without names, in the current version. -/
def shortText : String := "storage = [1, 8, 64, 16384, 0]\n"

theorem record_of_parsed_shortText :
    ∃ config, parse shortText = .ok config ∧ Text.StatesCurrent shortText ∧
      config.toRecord maxRecordBytes = .ok (Record.encode config) ∧
      ofRecord (Record.encode config) = .ok config := by
  have hparse : parse shortText = .ok (ofValues 8 64 16384 0) := by
    decide +kernel
  have hstates : Text.StatesCurrent shortText :=
    (Text.statesCurrent_iff hparse).mpr rfl
  obtain ⟨hwritten, hread, _⟩ := record_of_parsed hparse
  exact ⟨_, hparse, hstates, hwritten, hread hstates⟩

/-- A table that states a version of its own. -/
def newerText : String :=
  "[storage]\nversion = 2\n" ++
  "write_granularity_bits = 1\ntimestamp_width_bits = 32\n" ++
  "kv_partition_size_bytes = 4096\nts_partition_size_bytes = 4096\n"

/-- What it states. -/
def newer : Config := { ofValues 1 32 4096 4096 with version := 2 }

/-- The text is read, and what it states goes on record, but is not read back. -/
theorem newerText_record_refused :
    parse newerText = .ok newer ∧
      newer.toRecord maxRecordBytes = .ok (Record.encode newer) ∧
      ofRecord (Record.encode newer) = .error (.versionMismatch 2) := by
  refine ⟨?_, toRecord_maxRecordBytes newer, ofRecord_encode_self newer⟩
  decide +kernel

end FlashStorage.Config
