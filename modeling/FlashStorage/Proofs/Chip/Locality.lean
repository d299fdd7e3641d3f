import FlashStorage.Chip.Simulated
import Mathlib.Data.Nat.Basic
import Mathlib.Order.Interval.Set.Defs

/-!
# What an access sees of a chip

A simulated chip without a write budget is nothing but its cells.  An access
changes no cell outside its range, and what it answers and what it leaves behind
inside a range that holds its own depends on no cell outside that range.  Both are
stated for arbitrary zones of absolute addresses.
-/

namespace FlashStorage

/-- The addresses of an access whose start is an absolute address. -/
def Access.zone (access : Access) : Set Nat :=
  Set.Ico access.start.toNat (access.start.toNat + access.length)

def Access.isWrite : Access → Bool
  | .read _ _ => false
  | .write _ _ => true
  | .erase _ _ => false

namespace SimulatedChip

variable {zone : Set Nat} {chip one other third : SimulatedChip}
  {address : UInt64} {start length : Nat}

/-! ## Chips that agree -/

/-- Chips of the same place and size that show the same bytes in a zone. -/
structure AgreeIn (zone : Set Nat) (one other : SimulatedChip) : Prop where
  base_eq : other.base = one.base
  size_eq : other.memory.size = one.memory.size
  budget_eq : other.budget = one.budget
  byte_eq : ∀ index, one.base.toNat + index ∈ zone →
    other.memory.byte index = one.memory.byte index

theorem agreeIn_refl (zone : Set Nat) (chip : SimulatedChip) :
    AgreeIn zone chip chip :=
  ⟨rfl, rfl, rfl, fun _ _ => rfl⟩

theorem AgreeIn.symm (hagree : AgreeIn zone one other) :
    AgreeIn zone other one where
  base_eq := hagree.base_eq.symm
  size_eq := hagree.size_eq.symm
  budget_eq := hagree.budget_eq.symm
  byte_eq := by
    intro index hindex
    rw [hagree.base_eq] at hindex
    exact (hagree.byte_eq index hindex).symm

theorem AgreeIn.trans (hfirst : AgreeIn zone one other)
    (hsecond : AgreeIn zone other third) : AgreeIn zone one third where
  base_eq := hsecond.base_eq.trans hfirst.base_eq
  size_eq := hsecond.size_eq.trans hfirst.size_eq
  budget_eq := hsecond.budget_eq.trans hfirst.budget_eq
  byte_eq := by
    intro index hindex
    have hother : other.base.toNat + index ∈ zone := by
      rw [hfirst.base_eq]
      exact hindex
    exact (hsecond.byte_eq index hother).trans (hfirst.byte_eq index hindex)

/-! ## Ranges on the chip -/

theorem span?_eq_some_iff :
    chip.span? address length = some start ↔
      address.toNat = chip.base.toNat + start ∧
        start + length ≤ chip.memory.size := by
  unfold span?
  split
  · rw [Option.some.injEq]
    omega
  · simp
    omega

theorem AgreeIn.span?_eq (hagree : AgreeIn zone one other)
    (address : UInt64) (length : Nat) :
    other.span? address length = one.span? address length := by
  unfold span?
  rw [hagree.base_eq, hagree.size_eq]

end SimulatedChip

/-! ## One access to the cells -/

namespace Memory

/-- The cells after an access to the range from `start` on. -/
def after (memory : Memory) (start : Nat) : Access → Memory
  | .read _ _ => memory
  | .write _ data => memory.program start data
  | .erase _ length => memory.erase start length.toNat

/-- What an access to the range from `start` on shows of the cells. -/
def shown (memory : Memory) (start : Nat) : Access → List UInt8
  | .read _ buffer => memory.read start buffer.length
  | .write _ _ => []
  | .erase _ _ => []

variable {memory one other : Memory} {access : Access} {start index : Nat}

theorem size_after : (memory.after start access).size = memory.size := by
  cases access with
  | read address buffer => rfl
  | write address data => exact size_program _ _ _
  | erase address length => exact size_erase _ _ _

theorem byte_after_of_outside
    (houtside : index < start ∨ start + access.length ≤ index) :
    (memory.after start access).byte index = memory.byte index := by
  cases access with
  | read address buffer => rfl
  | write address data => exact byte_program_of_not_mem _ _ _ houtside
  | erase address length =>
      change index < start ∨ start + length.toNat ≤ index at houtside
      rw [after, byte_erase, if_neg (by omega)]

theorem byte_after_of_same (hsize : other.size = one.size)
    (hroom : start + access.length ≤ one.size)
    (hbyte : other.byte index = one.byte index) :
    (other.after start access).byte index =
      (one.after start access).byte index := by
  by_cases hinside : start ≤ index ∧ index < start + access.length
  · cases access with
    | read address buffer => exact hbyte
    | write address data =>
        obtain ⟨offset, rfl⟩ := Nat.exists_eq_add_of_le hinside.1
        change start + data.length ≤ one.size at hroom
        have hoffset : offset < data.length := by
          change _ ∧ _ < start + data.length at hinside
          omega
        rw [after, after, byte_program_of_mem _ _ _ hoffset (by omega),
          byte_program_of_mem _ _ _ hoffset (by omega), hbyte]
    | erase address length =>
        rw [after, after, byte_erase, byte_erase, hbyte]
  · rw [byte_after_of_outside (by omega), byte_after_of_outside (by omega),
      hbyte]

theorem shown_of_same (hsize : other.size = one.size)
    (hroom : start + access.length ≤ one.size)
    (hbyte : ∀ offset < access.length,
      other.byte (start + offset) = one.byte (start + offset)) :
    other.shown start access = one.shown start access := by
  cases access with
  | read address buffer =>
      change start + buffer.length ≤ one.size at hroom
      rw [shown, shown, read_eq_map _ hroom, read_eq_map _ (by omega)]
      apply List.map_congr_left
      intro offset hoffset
      exact hbyte offset (List.mem_range.mp hoffset)
  | write address data => rfl
  | erase address length => rfl

end Memory

namespace SimulatedChip

variable {zone : Set Nat} {chip one other : SimulatedChip} {access : Access}
  {start : Nat}

theorem perform_read (address : UInt64) (buffer : List UInt8) :
    Chip.perform chip (.read address buffer) = chip.read address buffer := rfl

theorem perform_write (address : UInt64) (data : List UInt8) :
    Chip.perform chip (.write address data) =
      (⟨(chip.write address data).1, []⟩, (chip.write address data).2) := rfl

theorem perform_erase (address length : UInt64) :
    Chip.perform chip (.erase address length) =
      (⟨(chip.erase address length).1, []⟩, (chip.erase address length).2) :=
  rfl

theorem perform_of_no_span
    (hspan : chip.span? access.start access.length = none) :
    Chip.perform chip access = (⟨.error .outOfBounds, access.buffer⟩, chip) := by
  cases access with
  | read address buffer =>
      rw [perform_read]
      unfold read
      rw [show chip.span? address buffer.length = none from hspan]
      rfl
  | write address data =>
      rw [perform_write]
      unfold write
      rw [show chip.span? address data.length = none from hspan]
      rfl
  | erase address length =>
      rw [perform_erase]
      unfold erase
      rw [show chip.span? address length.toNat = none from hspan]
      rfl

/-- An access that no budget can cut short is done in full on its span. -/
theorem perform_of_span (huncut : chip.budget = none ∨ access.isWrite = false)
    (hspan : chip.span? access.start access.length = some start) :
    Chip.perform chip access =
      (⟨.ok access.length, chip.memory.shown start access⟩,
        { chip with memory := chip.memory.after start access }) := by
  cases access with
  | read address buffer =>
      rw [perform_read]
      unfold read
      rw [show chip.span? address buffer.length = some start from hspan]
      rfl
  | write address data =>
      have hunlimited : chip.budget = none :=
        huncut.resolve_right (by simp [Access.isWrite])
      rw [perform_write]
      unfold write affordable
      rw [show chip.span? address data.length = some start from hspan]
      simp [hunlimited, Memory.after, Memory.shown, Access.length]
  | erase address length =>
      rw [perform_erase]
      unfold erase
      rw [show chip.span? address length.toNat = some start from hspan]
      rfl

/-! ## Accesses keep to their range -/

/-- An access changes nothing outside its own range. -/
theorem agreeIn_perform (hunlimited : chip.budget = none)
    (hapart : ∀ address ∈ zone, address ∉ access.zone) :
    AgreeIn zone chip (Chip.perform chip access).2 := by
  cases hspan : chip.span? access.start access.length with
  | none =>
      rw [perform_of_no_span hspan]
      exact agreeIn_refl zone chip
  | some start =>
      rw [perform_of_span (.inl hunlimited) hspan]
      obtain ⟨hstart, _⟩ := span?_eq_some_iff.mp hspan
      refine ⟨rfl, Memory.size_after, rfl, ?_⟩
      intro index hindex
      have houtside := hapart _ hindex
      unfold Access.zone at houtside
      rw [Set.mem_Ico] at houtside
      exact Memory.byte_after_of_outside (by omega)

/-- Chips that agree in a zone answer an access inside it alike, and agree there
afterwards. -/
theorem perform_eq_of_agreeIn (hunlimited : one.budget = none)
    (hagree : AgreeIn zone one other) (hzone : access.zone ⊆ zone) :
    (Chip.perform other access).1 = (Chip.perform one access).1 ∧
      AgreeIn zone (Chip.perform one access).2 (Chip.perform other access).2 := by
  have hsame := hagree.span?_eq access.start access.length
  cases hspan : one.span? access.start access.length with
  | none =>
      rw [perform_of_no_span hspan, perform_of_no_span (hsame.trans hspan)]
      exact ⟨rfl, hagree⟩
  | some start =>
      obtain ⟨hstart, hroom⟩ := span?_eq_some_iff.mp hspan
      have hcells : ∀ offset < access.length,
          other.memory.byte (start + offset) =
            one.memory.byte (start + offset) := by
        intro offset hoffset
        apply hagree.byte_eq
        apply hzone
        unfold Access.zone
        rw [Set.mem_Ico]
        omega
      have hshown := Memory.shown_of_same hagree.size_eq hroom hcells
      rw [perform_of_span (.inl hunlimited) hspan,
        perform_of_span (.inl (hagree.budget_eq.trans hunlimited))
          (hsame.trans hspan), hshown]
      refine ⟨rfl, hagree.base_eq, ?_, hagree.budget_eq, ?_⟩
      · change (other.memory.after start access).size =
          (one.memory.after start access).size
        rw [Memory.size_after, Memory.size_after, hagree.size_eq]
      · intro index hindex
        exact Memory.byte_after_of_same hagree.size_eq hroom
          (hagree.byte_eq index hindex)

end SimulatedChip

end FlashStorage
