import FlashStorage.Config.Printer
import FlashStorage.Config.Record
import FlashStorage.Host
import FlashStorage.Lock.Contention
import FlashStorage.Proofs.Config.Validation
import FlashStorage.Proofs.Registry.Carving
import FlashStorage.Proofs.Registry.Placement
import FlashStorage.Proofs.Registry.History
import FlashStorage.Proofs.Binding.StartUp
import FlashStorage.Proofs.Binding.Opening
import FlashStorage.Proofs.Binding.Addressing
import FlashStorage.Proofs.Binding.Isolation
import FlashStorage.Proofs.Registry.Commits
import FlashStorage.Proofs.Chip.Imprint
import FlashStorage.Proofs.Adapter.NorFlash
import FlashStorage.Proofs.Adapter.Routing
import FlashStorage.Proofs.Chip.Recording
import FlashStorage.Proofs.Binding.Confinement
import FlashStorage.Proofs.Binding.RoundTrip
import FlashStorage.Proofs.Registry.Refusals
import FlashStorage.Proofs.Registry.Capacity
import FlashStorage.Proofs.Binding.Exclusion
import FlashStorage.Proofs.Binding.StartEffects
import FlashStorage.Proofs.Registry.Acceptance
import FlashStorage.Proofs.Adapter.Interchange
import FlashStorage.Proofs.Config.Records
import FlashStorage.Proofs.Document.Numerals
import FlashStorage.Proofs.Config.Loaders
import FlashStorage.Proofs.Lock.Serialization
import FlashStorage.Proofs.Adapter.ChipCalls
import FlashStorage.Proofs.Adapter.PowerLoss
import FlashStorage.Proofs.Binding.Agreement
import FlashStorage.Proofs.Config.Stated
import FlashStorage.Proofs.Adapter.Initialization
import FlashStorage.Proofs.Timestamp
import FlashStorage.Proofs.Region
import FlashStorage.Proofs.Registry.Lookups
import FlashStorage.Proofs.Registry.Rearrangement
import FlashStorage.Proofs.Chip.DriverCalls
import FlashStorage.Proofs.Name
