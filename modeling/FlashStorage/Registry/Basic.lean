import FlashStorage.Registry.Layout

/-!
# The registry

The registry owns the committed partition table.  It starts out empty; a table is
loaded once, and from then on only an explicit rescan replaces it.  A table is
committed as a whole or not at all.
-/

namespace FlashStorage

structure Registry where
  table : Table
  loaded : Bool
deriving DecidableEq

namespace Registry

variable {σ : Type} [RegionSource σ]

def empty : Registry := ⟨Table.empty, false⟩

/-- Lay out a table and commit it in place of the current one. -/
def rescan (registry : Registry) (source : σ) (devices : List Device)
    (config : Config) : Layout Table × Registry :=
  match build source devices config with
  | .ok table => (.ok table, ⟨table, true⟩)
  | .error error => (.error error, registry)
  | .halt reason => (.halt reason, registry)

/-- Lay out the first table and commit it. -/
def load (registry : Registry) (source : σ) (devices : List Device)
    (config : Config) : Layout Table × Registry :=
  if registry.loaded then (.error .alreadyLoaded, registry)
  else registry.rescan source devices config

end Registry

end FlashStorage
