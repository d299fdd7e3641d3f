import FlashStorage.Config.Basic

/-!
# Drafts

A board states its configuration in code: either the standard one, or the four
values with names and a version where they differ from the defaults.  A draft
holds what was stated, with names of any length; building it checks the names.
-/

namespace FlashStorage.Config

inductive Draft where
  | standard
  | values (granularityBits timestampBits : UInt8) (kvSize tsSize : UInt64)
      (kvName tsName : Option String) (version : Option UInt8)
deriving DecidableEq, Repr

/-- A stated name wins over the default. -/
def Draft.build : Draft → Except ConfigError Config
  | .standard => .ok Config.standard
  | .values granularityBits timestampBits kvSize tsSize kvName tsName version => do
      let plain := ofValues granularityBits timestampBits kvSize tsSize
      let named ← plain.withPartitionNames
        (kvName.getD plain.kvName.text) (tsName.getD plain.tsName.text)
      .ok { named with version := version.getD named.version }

end FlashStorage.Config
