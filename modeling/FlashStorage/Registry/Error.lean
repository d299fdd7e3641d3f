import FlashStorage.Config.Error
import FlashStorage.Name

/-!
# Why a partition table is rejected

Each cause carries what is needed to mend the configuration or the board's
partition table.
-/

namespace FlashStorage

inductive RegistryError where
  /-- The partitions do not fit into a region. -/
  | insufficientSpace (region : Name) (requested available : UInt64)
  /-- Two partitions share a name. -/
  | duplicateName (name : Name)
  /-- No device covers a region. -/
  | deviceNotFound (region : Name)
  /-- No region is tagged for storage. -/
  | regionNotFound
  /-- A region does not start on an erase block of its device. -/
  | regionMisaligned (region : Name)
  /-- A region shares bytes with an earlier one. -/
  | overlap (region : Name)
  /-- A table was committed before. -/
  | alreadyLoaded
  | config (error : ConfigError)
deriving DecidableEq, Repr

def RegistryError.message : RegistryError → String
  | .insufficientSpace region requested available =>
      s!"region {region.text} too small: {requested} bytes configured, {available} available"
  | .duplicateName name => s!"duplicate partition name {name.text}"
  | .deviceNotFound region => s!"no flash device backs region {region.text}"
  | .regionNotFound => "no storage region in partition table"
  | .regionMisaligned region =>
      s!"region {region.text} is not erase-block aligned"
  | .overlap region => s!"region {region.text} overlaps another region"
  | .alreadyLoaded => "partition table already loaded"
  | .config error => s!"invalid storage config: {error.message}"

end FlashStorage
