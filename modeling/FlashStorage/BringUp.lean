import FlashStorage.Adapter
import FlashStorage.Registry.Basic

/-!
# Bringing storage up

At startup the configuration is compared with the device, the chip is brought up,
and the partition table is loaded.  The configuration is tested as far as it can
be before the chip is touched.
-/

namespace FlashStorage

inductive StorageError where
  | config (error : ConfigError)
  | device (error : DeviceError)
  | registry (error : RegistryError)
deriving DecidableEq, Repr

def StorageError.message : StorageError → String
  | .config error => s!"config: {error.message}"
  | .device error => s!"device: {error.message}"
  | .registry error => s!"registry: {error.message}"

/-- Whether a configuration suits a device, as far as bringing its chip up
goes. -/
def Config.suits (config : Config) (device : Device) :
    Except ConfigError Unit := do
  let granularity ← config.granularity
  if granularity ≠ device.granularity then
    .error (.granularityMismatch granularity.bits device.granularity.bits)
  let _ ← config.timestampWidth
  .ok ()

variable {χ σ : Type} [Chip χ] [RegionSource σ]

/-- Bring up the chip behind an adapter and load the partition table of its
device. -/
def bringUp (config : Config) (source : σ) (adapter : Adapter χ)
    (registry : Registry) :
    Outcome StorageError Table × Adapter χ × Registry :=
  match config.suits adapter.device with
  | .error error => (.error (.config error), adapter, registry)
  | .ok _ =>
      match adapter.init with
      | (.error error, adapter) => (.error (.device error), adapter, registry)
      | (.ok _, adapter) =>
          let (outcome, registry) :=
            registry.load source [adapter.device] config
          (outcome.mapError .registry, adapter, registry)

end FlashStorage
