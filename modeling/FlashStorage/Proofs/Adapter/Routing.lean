import FlashStorage.Adapter
import FlashStorage.Chip.Simulated
import Mathlib.Data.Nat.Basic
import Mathlib.Order.Interval.Set.Defs

/-!
# Adapters over any chip

An adapter brings its chip up and carries out accesses, and both are opened here
once for all chips.  Whether an access reaches the chip, and where, is decided by the
device and by whether the chip is up.  The chip itself has no say in it.  An access is
restated here as this decision followed by at most one call, so that runs over
different chips, or over the same chip with and without an observer, can be compared.
-/

namespace FlashStorage

namespace Device

variable {device : Device} {access : Access}

/-- The absolute addresses of a device. -/
def zone (device : Device) : Set Nat :=
  Set.Ico device.base.toNat (device.base.toNat + device.length.toNat)

/-- An access that consists of whole units of a device. -/
def InUnits (device : Device) : Access → Prop
  | .read _ _ => True
  | .write start data =>
      device.granularity.alignment ∣ start.toNat ∧
        device.granularity.alignment ∣ data.length
  | .erase start length =>
      0 < device.block.toNat ∧ device.block.toNat ∣ start.toNat ∧
        device.block.toNat ∣ length.toNat

instance (device : Device) : DecidablePred device.InUnits
  | .read _ _ => inferInstanceAs (Decidable True)
  | .write _ _ => inferInstanceAs (Decidable (_ ∧ _))
  | .erase _ _ => inferInstanceAs (Decidable (_ ∧ _ ∧ _))

theorem isAligned_iff :
    device.isAligned access = true ↔ device.InUnits access := by
  cases access with
  | read start buffer => simp [isAligned, InUnits]
  | write start data => simp [isAligned, InUnits]
  | erase start length =>
      simp only [isAligned, InUnits, Bool.and_eq_true, isBlockAligned_iff]
      constructor
      · rintro ⟨⟨hblock, hstart⟩, _, hlength⟩
        exact ⟨hblock, hstart, hlength⟩
      · rintro ⟨hblock, hstart, hlength⟩
        exact ⟨⟨hblock, hstart⟩, hblock, hlength⟩

end Device

/-! ## Routes -/

/-- How an access is dealt with: it is answered at once, or handed to the chip at an
absolute address. -/
inductive Route where
  | answered (result : Outcome DeviceError Unit)
  | forwarded (address : UInt64)

/-- The route of an access to a device, given whether the chip is up. -/
def Device.route (device : Device) (up : Bool) (access : Access) : Route :=
  if !up then .answered (.error .notPresent)
  else if !device.isAligned access then .answered (.error .misaligned)
  else if !device.contains access.start access.length then
    .answered (.error .outOfRange)
  else if access.length = 0 then .answered (.ok ())
  else
    match Word.add? device.base access.start with
    | none => .answered (.halt .addOverflow)
    | some address => .forwarded address

theorem Device.route_eq_forwarded_iff {device : Device} {up : Bool}
    {access : Access} {address : UInt64} :
    device.route up access = .forwarded address ↔
      up = true ∧ device.isAligned access = true ∧
        access.start.toNat + access.length ≤ device.length.toNat ∧
        0 < access.length ∧
        address.toNat = device.base.toNat + access.start.toNat := by
  unfold Device.route
  cases up with
  | false => simp
  | true =>
      cases device.isAligned access with
      | false => simp
      | true =>
          rw [← device.contains_iff]
          cases device.contains access.start access.length with
          | false => simp
          | true =>
              by_cases hempty : access.length = 0
              · simp [hempty]
              · have hsome : 0 < access.length := Nat.pos_of_ne_zero hempty
                rw [← Word.add?_eq_some_iff]
                cases Word.add? device.base access.start with
                | none => simp [hempty]
                | some sum => simp [hempty, hsome]

namespace Adapter

variable {χ : Type} {adapter ready : Adapter χ} {access : Access}
  {reason : Halt}

/-! ## What is refused and what is settled -/

theorem refusal?_eq_none_iff :
    adapter.refusal? access = none ↔
      adapter.initialized = true ∧ adapter.device.isAligned access = true ∧
        access.start.toNat + access.length ≤ adapter.device.length.toNat := by
  unfold refusal?
  cases adapter.initialized with
  | false => simp
  | true =>
      cases adapter.device.isAligned access with
      | false => simp
      | true =>
          rw [← adapter.device.contains_iff]
          cases adapter.device.contains access.start access.length with
          | false => simp
          | true => simp

/-- What a chip answers makes a success or an incomplete access, and nothing else. -/
theorem settle_cases (requested : Nat) (answer : ChipResult) :
    settle requested answer = .ok () ∨
      ∃ count, settle requested answer = .error (.incomplete count) := by
  unfold settle
  cases answer with
  | error fault => exact .inr ⟨0, rfl⟩
  | ok count =>
      by_cases hcount : count = requested
      · exact .inl (if_pos hcount)
      · exact .inr ⟨count, if_neg hcount⟩

theorem settle_ne_halt (requested : Nat) (answer : ChipResult) :
    settle requested answer ≠ .halt reason := by
  rcases settle_cases requested answer with hdone | ⟨count, hshort⟩
  · simp [hdone]
  · simp [hshort]

variable [Chip χ]

/-! ## Bringing the chip up -/

/-- How bringing a chip up ends. -/
inductive InitEnd (adapter : Adapter χ) :
    Except DeviceError Unit × Adapter χ → Prop where
  | already (hup : adapter.initialized = true) :
      InitEnd adapter (.ok (), adapter)
  | answered (hdown : adapter.initialized = false)
      (hanswer : (Chip.init adapter.chip).1 = true) :
      InitEnd adapter (.ok (), { adapter with
        chip := (Chip.init adapter.chip).2, initialized := true })
  | silent (hdown : adapter.initialized = false)
      (hanswer : (Chip.init adapter.chip).1 = false) :
      InitEnd adapter (.error .notPresent, { adapter with
        chip := (Chip.init adapter.chip).2 })

theorem init_end (adapter : Adapter χ) : adapter.InitEnd adapter.init := by
  unfold init
  cases hup : adapter.initialized with
  | true => exact .already hup
  | false =>
      cases hinit : Chip.init adapter.chip with
      | mk answer chip =>
          have hchip : (Chip.init adapter.chip).2 = chip := by rw [hinit]
          cases answer with
          | true =>
              have hanswer : (Chip.init adapter.chip).1 = true := by rw [hinit]
              simpa [hchip] using InitEnd.answered hup hanswer
          | false =>
              have hanswer : (Chip.init adapter.chip).1 = false := by
                rw [hinit]
              simpa [hchip, hup] using InitEnd.silent hup hanswer

theorem init_eq_ok (hinit : adapter.init = (.ok (), ready)) :
    ready.device = adapter.device ∧ ready.initialized = true ∧
      (ready.chip = adapter.chip ∨
        ready.chip = (Chip.init adapter.chip).2) := by
  have hend := adapter.init_end
  rw [hinit] at hend
  cases hend with
  | already hup => exact ⟨rfl, hup, .inl rfl⟩
  | answered _ _ => exact ⟨rfl, rfl, .inr rfl⟩

theorem answer_of_init_eq_ok (hinit : adapter.init = (.ok (), ready))
    (hdown : adapter.initialized = false) :
    (Chip.init adapter.chip).1 = true := by
  have hend := adapter.init_end
  rw [hinit] at hend
  cases hend with
  | already hup =>
      rw [hdown] at hup
      cases hup
  | answered _ hanswer => exact hanswer

/-! ## Accesses by their routes -/

/-- Hand an access to the chip at an address. -/
def reach (adapter : Adapter χ) (access : Access) (address : UInt64) :
    Reply (Outcome DeviceError Unit) × Adapter χ :=
  let answer := Chip.perform adapter.chip (access.moveTo address)
  (⟨settle access.length answer.1.result, answer.1.buffer⟩,
    { adapter with chip := answer.2 })

/-- Follow the route of an access. -/
def follow (adapter : Adapter χ) (access : Access) :
    Route → Reply (Outcome DeviceError Unit) × Adapter χ
  | .answered result => (⟨result, access.buffer⟩, adapter)
  | .forwarded address => adapter.reach access address

theorem perform_eq_follow (adapter : Adapter χ) (access : Access) :
    adapter.perform access =
      adapter.follow access
        (adapter.device.route adapter.initialized access) := by
  unfold perform refusal? Device.route
  cases hup : adapter.initialized with
  | false => rfl
  | true =>
      cases adapter.device.isAligned access with
      | false => rfl
      | true =>
          cases adapter.device.contains access.start access.length with
          | false => rfl
          | true =>
              by_cases hempty : access.length = 0
              · simp [hempty, follow]
              · cases hsum :
                    Word.add? adapter.device.base access.start with
                | none => simp [hempty, follow]
                | some address => simp [hempty, hup, follow, reach]

/-- An access leaves everything about an adapter but its chip as it is. -/
theorem perform_adapter (adapter : Adapter χ) (access : Access) :
    ∃ chip, (adapter.perform access).2 = { adapter with chip := chip } := by
  rw [perform_eq_follow]
  cases adapter.device.route adapter.initialized access with
  | answered result => exact ⟨adapter.chip, rfl⟩
  | forwarded address => exact ⟨_, rfl⟩

theorem device_perform (adapter : Adapter χ) (access : Access) :
    (adapter.perform access).2.device = adapter.device := by
  obtain ⟨chip, hadapter⟩ := adapter.perform_adapter access
  rw [hadapter]

theorem initialized_perform (adapter : Adapter χ) (access : Access) :
    (adapter.perform access).2.initialized = adapter.initialized := by
  obtain ⟨chip, hadapter⟩ := adapter.perform_adapter access
  rw [hadapter]

theorem perform_eq_halt_iff :
    (adapter.perform access).1.result = .halt reason ↔
      reason = .addOverflow ∧ adapter.refusal? access = none ∧
        0 < access.length ∧
        UInt64.size ≤ adapter.device.base.toNat + access.start.toNat := by
  unfold perform
  cases adapter.refusal? access with
  | some error => simp
  | none =>
      by_cases hempty : access.length = 0
      · simp [hempty]
      · have hlength : 0 < access.length := Nat.pos_of_ne_zero hempty
        rw [← Word.add?_eq_none_iff]
        cases hsum : Word.add? adapter.device.base access.start with
        | none => simp [hempty, hlength, eq_comm]
        | some address => simp [hempty, settle_ne_halt]

end Adapter

/-! ## A small board -/

namespace SmallBoard

def device : Device := ⟨⟨"nor0", by decide⟩, 4096, 64, 16, .bits8⟩

def adapter : Adapter SimulatedChip := .mount device (.mappedAt 4096 64)

def ready : Adapter SimulatedChip :=
  ⟨device, { SimulatedChip.mappedAt 4096 64 with initCalls := 1 }, true⟩

end SmallBoard

example : SmallBoard.device.route true (.read 3 [0]) = .forwarded 4099 := rfl

end FlashStorage
