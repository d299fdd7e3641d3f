import FlashStorage.Proofs.Adapter.ChipCalls
import Mathlib.Algebra.GroupWithZero.Nat

/-!
# Losing power

A chip with a write budget programs the front of a write as far as the budget goes,
and counts what it got through.  So what an adapter reports of a write is what is in
the cells, and all reports of a run together come to the budget or to what was asked
of the cells, whichever is less.  Once a write was torn there is nothing left, and no
later one programs anything.  Reads and erases have no part in this.
-/

namespace FlashStorage

namespace Access

/-- The bytes that an access has programmed if its result is to be believed. -/
def programmed : Access → Outcome DeviceError Unit → Nat
  | .write _ data, .ok () => data.length
  | .write _ _, .error (.incomplete count) => count
  | _, _ => 0

@[simp] theorem isWrite_moveTo (start : UInt64) (access : Access) :
    (access.moveTo start).isWrite = access.isWrite := by
  cases access with
  | read address buffer => rfl
  | write address data => rfl
  | erase address length => rfl

theorem programmed_of_not_write {access : Access}
    (hother : access.isWrite = false) (result : Outcome DeviceError Unit) :
    access.programmed result = 0 := by
  cases access with
  | read start buffer => rfl
  | write start data => cases hother
  | erase start length => rfl

end Access

namespace SimulatedChip

def withBudget (chip : SimulatedChip) (budget : Option Nat) : SimulatedChip :=
  { chip with budget := budget }

/-- The second chip is the first after bytes were programmed from an absolute address
on: every cell under them shows the AND, and no other cell has changed. -/
structure Programs (address : Nat) (data : List UInt8)
    (before after : SimulatedChip) : Prop where
  base_eq : after.base = before.base
  size_eq : after.memory.size = before.memory.size
  inside : ∀ position (hposition : position < data.length),
    ∃ index < before.memory.size,
      before.base.toNat + index = address + position ∧
        after.memory.byte index = before.memory.byte index &&& data[position]
  outside : ∀ index,
    before.base.toNat + index < address ∨
        address + data.length ≤ before.base.toNat + index →
      after.memory.byte index = before.memory.byte index

variable {chip : SimulatedChip} {access : Access} {address start : Nat}

/-! ## The chip -/

theorem programs_nil (address : Nat) (chip : SimulatedChip) :
    Programs address [] chip chip where
  base_eq := rfl
  size_eq := rfl
  inside := by
    intro position hposition
    exact absurd hposition (Nat.not_lt_zero position)
  outside := fun _ _ => rfl

theorem programs_program {data : List UInt8} {budget : Option Nat}
    (haddress : address = chip.base.toNat + start)
    (hroom : start + data.length ≤ chip.memory.size) :
    Programs address data chip
      { chip with memory := chip.memory.program start data, budget := budget } where
  base_eq := rfl
  size_eq := Memory.size_program _ _ _
  inside := by
    intro position hposition
    refine ⟨start + position, by omega, by omega, ?_⟩
    exact Memory.byte_program_of_mem _ _ _ hposition (by omega)
  outside := by
    intro index hindex
    exact Memory.byte_program_of_not_mem _ _ _ (by omega)

theorem site_perform (chip : SimulatedChip) (access : Access) :
    (Chip.perform chip access).2.base = chip.base ∧
      (Chip.perform chip access).2.memory.size = chip.memory.size := by
  cases hspan : chip.span? access.start access.length with
  | none =>
      rw [perform_of_no_span hspan]
      exact ⟨rfl, rfl⟩
  | some start =>
      cases access with
      | read address buffer =>
          rw [perform_of_span (.inr rfl) hspan]
          exact ⟨rfl, Memory.size_after⟩
      | write address data =>
          rw [perform_write]
          unfold write
          rw [show chip.span? address data.length = some start from hspan]
          exact ⟨rfl, Memory.size_program _ _ _⟩
      | erase address length =>
          rw [perform_of_span (.inr rfl) hspan]
          exact ⟨rfl, Memory.size_after⟩

/-- Whatever the budget, an access that is not a write is answered the same and leaves
it alone. -/
theorem perform_withBudget (hother : access.isWrite = false)
    (budget : Option Nat) :
    Chip.perform (chip.withBudget budget) access =
      ((Chip.perform chip access).1,
        (Chip.perform chip access).2.withBudget budget) := by
  have hsame : (chip.withBudget budget).span? access.start access.length =
      chip.span? access.start access.length := rfl
  cases hspan : chip.span? access.start access.length with
  | none =>
      rw [perform_of_no_span hspan, perform_of_no_span (hsame.trans hspan)]
  | some start =>
      rw [perform_of_span (.inr hother) hspan,
        perform_of_span (.inr hother) (hsame.trans hspan)]
      rfl

theorem perform_write_of_span {offset : UInt64} {data : List UInt8}
    {bytes : Nat} (hbudget : chip.budget = some bytes)
    (hspan : chip.span? offset data.length = some start) :
    Chip.perform chip (.write offset data) =
      (⟨.ok (min bytes data.length), []⟩,
        { chip with
          memory := chip.memory.program start
            (data.take (min bytes data.length))
          budget := some (bytes - data.length) }) := by
  have hleft : bytes - min bytes data.length = bytes - data.length := by omega
  rw [perform_write]
  unfold write affordable
  rw [hspan, hbudget]
  simp only [Option.map_some, hleft]

end SimulatedChip

namespace Adapter

/-- An adapter that is up, on a device inside the address space, over a chip that can
program this many more bytes. -/
structure Powered (adapter : Adapter SimulatedChip) (bytes : Nat) : Prop where
  initialized : adapter.initialized = true
  budget_eq : adapter.chip.budget = some bytes
  space : adapter.device.base.toNat + adapter.device.length.toNat ≤ UInt64.size

theorem powered_failAfter {device : Device}
    (hspace : device.base.toNat + device.length.toNat ≤ UInt64.size)
    (chip : SimulatedChip) (bytes : Nat) :
    Powered ⟨device, chip.failAfter bytes, true⟩ bytes :=
  ⟨rfl, rfl, hspace⟩

def withBudget (adapter : Adapter SimulatedChip) (budget : Option Nat) :
    Adapter SimulatedChip :=
  { adapter with chip := adapter.chip.withBudget budget }

/-- A write that passes the adapter and lies on the chip. -/
def Lands (adapter : Adapter SimulatedChip) (access : Access) : Prop :=
  access.isWrite = true ∧
    adapter.device.Passes adapter.initialized access ∧
    adapter.chip.base.toNat ≤
      adapter.device.base.toNat + access.start.toNat ∧
    adapter.device.base.toNat + access.start.toNat + access.length ≤
      adapter.chip.base.toNat + adapter.chip.memory.size

instance (adapter : Adapter SimulatedChip) : DecidablePred adapter.Lands :=
  fun _ => inferInstanceAs (Decidable (_ ∧ _ ∧ _ ∧ _))

/-- The bytes that some accesses ask the cells to take. -/
def demand (adapter : Adapter SimulatedChip) (accesses : List Access) : Nat :=
  ((accesses.filter (fun access => adapter.Lands access)).map
    Access.length).sum

/-- The bytes that were programmed according to a log. -/
def programmed (log : List (Access × Reply (Outcome DeviceError Unit))) : Nat :=
  (log.map (fun entry => entry.1.programmed entry.2.result)).sum

variable {adapter : Adapter SimulatedChip} {access : Access} {bytes : Nat}

theorem demand_concat (adapter : Adapter SimulatedChip)
    (accesses : List Access) (access : Access) :
    adapter.demand (accesses ++ [access]) =
      adapter.demand accesses +
        if adapter.Lands access then access.length else 0 := by
  unfold demand
  by_cases hlands : adapter.Lands access
  · simp [List.filter_append, hlands]
  · simp [List.filter_append, hlands]

theorem programmed_concat
    (log : List (Access × Reply (Outcome DeviceError Unit)))
    (entry : Access × Reply (Outcome DeviceError Unit)) :
    programmed (log ++ [entry]) =
      programmed log + entry.1.programmed entry.2.result := by
  simp [programmed]

/-! ## One access -/

theorem programmed_settle (offset : UInt64) (data : List UInt8) (count : Nat) :
    (Access.write offset data).programmed (settle data.length (.ok count)) =
      count := by
  simp only [settle]
  by_cases hall : count = data.length
  · rw [if_pos hall, hall]
    rfl
  · rw [if_neg hall]
    rfl

theorem settle_eq_incomplete_iff {requested count completed : Nat} :
    settle requested (.ok count) = .error (.incomplete completed) ↔
      completed = count ∧ count ≠ requested := by
  simp only [settle]
  by_cases hall : count = requested
  · simp [hall]
  · simp [hall, eq_comm]

/-- How a write ends: its result says how much of its front was programmed, which is
what the budget allows of it if it lands, and nothing if not. -/
structure WriteEnd (adapter : Adapter SimulatedChip) (bytes : Nat)
    (offset : UInt64) (data : List UInt8)
    (result : Outcome DeviceError Unit) (after : Adapter SimulatedChip) :
    Prop where
  programs : adapter.chip.Programs
    (adapter.device.base.toNat + offset.toNat)
    (data.take ((Access.write offset data).programmed result)) after.chip
  programmed_eq : (Access.write offset data).programmed result =
    if adapter.Lands (.write offset data) then min bytes data.length else 0
  incomplete_lt : ∀ count, result = .error (.incomplete count) →
    count < data.length
  powered : after.Powered
    (bytes - if adapter.Lands (.write offset data) then data.length else 0)

theorem span?_eq_some_of_passes (hpowered : adapter.Powered bytes)
    (hpasses : adapter.device.Passes adapter.initialized access)
    {start : Nat} :
    adapter.chip.span? (adapter.device.base + access.start) access.length =
        some start ↔
      adapter.device.base.toNat + access.start.toNat =
          adapter.chip.base.toNat + start ∧
        start + access.length ≤ adapter.chip.memory.size := by
  rw [SimulatedChip.span?_eq_some_iff,
    (Device.route_of_passes hpowered.space hpasses).2]

variable {offset : UInt64} {data : List UInt8}

theorem perform_of_lands (hpowered : adapter.Powered bytes)
    (hlands : adapter.Lands (.write offset data)) :
    adapter.perform (.write offset data) =
      (⟨settle data.length (.ok (min bytes data.length)), []⟩,
        { adapter with chip := { adapter.chip with
          memory := adapter.chip.memory.program
            (adapter.firstCell (.write offset data))
            (data.take (min bytes data.length))
          budget := some (bytes - data.length) } }) := by
  obtain ⟨_, hpasses, hlower, hupper⟩ := hlands
  have hspan := (span?_eq_some_of_passes hpowered hpasses).mpr
    (show _ = _ + adapter.firstCell (.write offset data) ∧ _ by
      unfold firstCell
      omega)
  have hchip :=
    SimulatedChip.perform_write_of_span hpowered.budget_eq hspan
  rw [perform_of_passes hpowered.space hpasses]
  unfold reach
  simp only [Access.moveTo, Access.start, Access.length] at hchip ⊢
  rw [hchip]

/-- A write that passes but does not lie on the chip counts nothing. -/
theorem perform_of_off_chip (hpowered : adapter.Powered bytes)
    (hpasses : adapter.device.Passes adapter.initialized
      (.write offset data))
    (hnot : ¬ adapter.Lands (.write offset data)) :
    adapter.perform (.write offset data) =
      (⟨.error (.incomplete 0), []⟩, adapter) := by
  have hspan : adapter.chip.span? (adapter.device.base + offset)
      data.length = none := by
    rw [Option.eq_none_iff_forall_ne_some]
    intro start hsome
    obtain ⟨hstart, hroom⟩ :=
      (span?_eq_some_of_passes hpowered hpasses).mp hsome
    exact hnot ⟨rfl, hpasses, by omega, by omega⟩
  have hchip : Chip.perform adapter.chip
      (.write (adapter.device.base + offset) data) =
        (⟨.error .outOfBounds, []⟩, adapter.chip) :=
    SimulatedChip.perform_of_no_span hspan
  rw [perform_of_passes hpowered.space hpasses]
  simp only [reach, Access.moveTo, Access.start, hchip]
  rfl

theorem perform_of_not_lands (hpowered : adapter.Powered bytes)
    (hnot : ¬ adapter.Lands (.write offset data)) :
    ∃ result, adapter.perform (.write offset data) = (⟨result, []⟩, adapter) ∧
      (Access.write offset data).programmed result = 0 ∧
      ∀ count, result = .error (.incomplete count) → count < data.length := by
  by_cases hpasses :
      adapter.device.Passes adapter.initialized (.write offset data)
  · refine ⟨_, perform_of_off_chip hpowered hpasses hnot, rfl, ?_⟩
    intro count hcount
    cases hcount
    exact hpasses.2.2.2
  · obtain ⟨result, hperform, hdismisses⟩ := perform_of_not_passes hpasses
    refine ⟨result, hperform, ?_⟩
    cases hdismisses with
    | down hdown => exact ⟨rfl, nofun⟩
    | misaligned hup hunits => exact ⟨rfl, nofun⟩
    | outside hup hunits hout => exact ⟨rfl, nofun⟩
    | empty hup hunits hin hempty => exact ⟨hempty, nofun⟩

theorem write_end (hpowered : adapter.Powered bytes) (offset : UInt64)
    (data : List UInt8) :
    WriteEnd adapter bytes offset data
      (adapter.perform (.write offset data)).1.result
      (adapter.perform (.write offset data)).2 := by
  by_cases hlands : adapter.Lands (.write offset data)
  · obtain ⟨_, _, hlower, hupper⟩ := id hlands
    simp only [Access.start, Access.length] at hlower hupper
    rw [perform_of_lands hpowered hlands]
    refine ⟨?_, ?_, ?_, ?_⟩
    · rw [programmed_settle]
      apply SimulatedChip.programs_program
      · simp only [firstCell, Access.start]
        omega
      · simp only [firstCell, Access.start, List.length_take]
        omega
    · rw [programmed_settle, if_pos hlands]
    · intro count hincomplete
      obtain ⟨rfl, hless⟩ := settle_eq_incomplete_iff.mp hincomplete
      omega
    · rw [if_pos hlands]
      exact ⟨hpowered.initialized, rfl, hpowered.space⟩
  · obtain ⟨result, hperform, hnothing, hincomplete⟩ :=
      perform_of_not_lands hpowered hlands
    rw [hperform]
    refine ⟨?_, ?_, hincomplete, ?_⟩
    · rw [hnothing]
      exact SimulatedChip.programs_nil _ _
    · rw [if_neg hlands, hnothing]
    · rw [if_neg hlands]
      exact hpowered

theorem withBudget_perform (adapter : Adapter SimulatedChip)
    (hother : access.isWrite = false) (budget : Option Nat) :
    (adapter.withBudget budget).perform access =
      ((adapter.perform access).1,
        (adapter.perform access).2.withBudget budget) := by
  rw [perform_eq_follow, perform_eq_follow]
  change (adapter.withBudget budget).follow access
    (adapter.device.route adapter.initialized access) = _
  cases adapter.device.route adapter.initialized access with
  | answered result => rfl
  | forwarded address =>
      have hmoved : (access.moveTo address).isWrite = false := by
        rw [Access.isWrite_moveTo]
        exact hother
      have hchip : Chip.perform (adapter.chip.withBudget budget) _ = _ :=
        SimulatedChip.perform_withBudget hmoved budget
      simp only [follow, reach, withBudget, hchip]

/-! ## Runs -/

/-- An adapter after a run that it started with a budget: it is at the same place and
has the rest of the budget, the log accounts for what is gone, and after a torn write
all of it is. -/
structure Metered (start : Adapter SimulatedChip) (bytes : Nat)
    (log : List (Access × Reply (Outcome DeviceError Unit)))
    (now : Adapter SimulatedChip) : Prop where
  powered : now.Powered (bytes - start.demand (log.map Prod.fst))
  device_eq : now.device = start.device
  base_eq : now.chip.base = start.chip.base
  size_eq : now.chip.memory.size = start.chip.memory.size
  total_eq : programmed log = min bytes (start.demand (log.map Prod.fst))
  torn : ∀ entry ∈ log, start.Lands entry.1 →
    ∀ count, entry.2.result = .error (.incomplete count) →
      bytes < start.demand (log.map Prod.fst)

variable {start now : Adapter SimulatedChip}
  {log : List (Access × Reply (Outcome DeviceError Unit))}

theorem metered_nil (hpowered : start.Powered bytes) :
    Metered start bytes [] start where
  powered := hpowered
  device_eq := rfl
  base_eq := rfl
  size_eq := rfl
  total_eq := by
    simp [programmed, demand]
  torn := by
    intro entry hmem
    cases hmem

theorem Metered.lands_iff (hstart : start.Powered bytes)
    (hmetered : Metered start bytes log now) :
    now.Lands access ↔ start.Lands access := by
  unfold Lands
  rw [hmetered.device_eq, hmetered.base_eq, hmetered.size_eq,
    hmetered.powered.initialized, hstart.initialized]

theorem site_perform (adapter : Adapter SimulatedChip) (access : Access) :
    (adapter.perform access).2.chip.base = adapter.chip.base ∧
      (adapter.perform access).2.chip.memory.size =
        adapter.chip.memory.size := by
  rw [perform_eq_follow]
  cases adapter.device.route adapter.initialized access with
  | answered result => exact ⟨rfl, rfl⟩
  | forwarded address => exact SimulatedChip.site_perform _ _

theorem budget_perform (adapter : Adapter SimulatedChip)
    (hother : access.isWrite = false) :
    (adapter.perform access).2.chip.budget = adapter.chip.budget := by
  have hsame := adapter.withBudget_perform hother adapter.chip.budget
  have hself : adapter.withBudget adapter.chip.budget = adapter := rfl
  rw [hself] at hsame
  rw [hsame]
  rfl

/-- One more access: a write takes what it can from the budget, any other access
takes nothing. -/
theorem Powered.perform (hpowered : adapter.Powered bytes) (access : Access) :
    (adapter.perform access).2.Powered
        (bytes - if adapter.Lands access then access.length else 0) ∧
      access.programmed (adapter.perform access).1.result =
        min bytes (if adapter.Lands access then access.length else 0) ∧
      (adapter.Lands access → ∀ count,
        (adapter.perform access).1.result = .error (.incomplete count) →
          bytes < access.length) := by
  by_cases hwrite : access.isWrite = true
  · cases access with
    | read start buffer => cases hwrite
    | erase start length => cases hwrite
    | write offset data =>
        obtain ⟨_, hprogrammed, hincomplete, hafter⟩ :=
          write_end hpowered offset data
        refine ⟨hafter, ?_, ?_⟩
        · rw [hprogrammed]
          by_cases hlands : adapter.Lands (.write offset data)
          · rw [if_pos hlands, if_pos hlands]
            rfl
          · rw [if_neg hlands, if_neg hlands, Nat.min_zero]
        · intro hlands count hresult
          have hless := hincomplete count hresult
          rw [hresult, if_pos hlands] at hprogrammed
          change count = min bytes data.length at hprogrammed
          change bytes < data.length
          omega
  · have hother : access.isWrite = false := by simpa using hwrite
    have hnot : ¬ adapter.Lands access := fun hlands => hwrite hlands.1
    rw [if_neg hnot]
    refine ⟨⟨?_, ?_, ?_⟩, ?_, fun hlands => absurd hlands hnot⟩
    · rw [adapter.initialized_perform]
      exact hpowered.initialized
    · rw [adapter.budget_perform hother]
      exact hpowered.budget_eq
    · rw [adapter.device_perform]
      exact hpowered.space
    · rw [Access.programmed_of_not_write hother, Nat.min_zero]

theorem Metered.perform (hstart : start.Powered bytes)
    (hmetered : Metered start bytes log now) (access : Access) :
    Metered start bytes (log ++ [(access, (now.perform access).1)])
      (now.perform access).2 := by
  obtain ⟨hafter, hprogrammed, htorn⟩ := hmetered.powered.perform access
  simp only [hmetered.lands_iff hstart] at hafter hprogrammed htorn
  obtain ⟨hbase, hsize⟩ := now.site_perform access
  have hdemand : start.demand
      ((log ++ [(access, (now.perform access).1)]).map Prod.fst) =
        start.demand (log.map Prod.fst) +
          if start.Lands access then access.length else 0 := by
    rw [List.map_append]
    exact start.demand_concat _ access
  refine ⟨?_, ?_, ?_, ?_, ?_, ?_⟩
  · rw [hdemand, ← Nat.sub_sub]
    exact hafter
  · rw [device_perform, hmetered.device_eq]
  · rw [hbase, hmetered.base_eq]
  · rw [hsize, hmetered.size_eq]
  · rw [programmed_concat, hdemand, hmetered.total_eq, hprogrammed]
    omega
  · rw [hdemand]
    intro entry hmem hlands count hresult
    rw [List.mem_append, List.mem_singleton] at hmem
    rcases hmem with hearlier | hlast
    · have hspent := hmetered.torn entry hearlier hlands count hresult
      omega
    · subst hlast
      have hspent := htorn hlands count hresult
      rw [if_pos hlands]
      omega

theorem Metered.performAll (hstart : start.Powered bytes)
    (hmetered : Metered start bytes log now) (accesses : List Access) :
    Metered start bytes (log ++ (now.performAll accesses).1)
      (now.performAll accesses).2 := by
  induction accesses generalizing log now with
  | nil => simpa [Adapter.performAll] using hmetered
  | cons access rest ih =>
      have hrest := ih (hmetered.perform hstart access)
      simpa [Adapter.performAll] using hrest

/-- With nothing left in the budget a write that passes counts nothing and changes
nothing. -/
theorem perform_of_no_power (hpowered : adapter.Powered 0)
    (hwrite : access.isWrite = true)
    (hpasses : adapter.device.Passes adapter.initialized access) :
    adapter.perform access = (⟨.error (.incomplete 0), []⟩, adapter) := by
  cases access with
  | read start buffer => cases hwrite
  | erase start length => cases hwrite
  | write offset data =>
      by_cases hlands : adapter.Lands (.write offset data)
      · have hsome : 0 < data.length := hpasses.2.2.2
        have hresult : settle data.length (.ok (min 0 data.length)) =
            .error (.incomplete 0) := by
          rw [settle_eq_incomplete_iff]
          omega
        rw [perform_of_lands hpowered hlands, hresult, Nat.zero_min,
          Nat.zero_sub, List.take_zero, ← hpowered.budget_eq]
        rfl
      · exact perform_of_off_chip hpowered hpasses hlands

/-- On a chip that can program so many bytes, and after any run, a write that is done
has programmed all of its bytes, one that is torn exactly those that it counts, and
any other one none.  All of them together come to the budget or to what the writes
that lie on the chip ask for, whichever is less.  Once one of those was torn, no write
programs anything any more.  Reads and erases neither use the budget nor depend on
it. -/
theorem power_loss_reported {earlier : List Access}
    (hpowered : adapter.Powered bytes)
    (hrun : adapter.performAll earlier = (log, now)) :
    (∀ offset data reply after,
      now.perform (.write offset data) = (reply, after) →
        (reply.result = .ok () →
          SimulatedChip.Programs
            (adapter.device.base.toNat + offset.toNat) data
            now.chip after.chip) ∧
        (∀ count, reply.result = .error (.incomplete count) →
          count < data.length ∧
            SimulatedChip.Programs
              (adapter.device.base.toNat + offset.toNat) (data.take count)
              now.chip after.chip) ∧
        ((Access.write offset data).programmed reply.result = 0 →
          SimulatedChip.Programs
            (adapter.device.base.toNat + offset.toNat) []
            now.chip after.chip)) ∧
    programmed log = min bytes (adapter.demand earlier) ∧
    (∀ entry ∈ log, adapter.Lands entry.1 →
      ∀ count, entry.2.result = .error (.incomplete count) →
        ∀ access, access.isWrite = true →
          adapter.device.Passes adapter.initialized access →
            now.perform access = (⟨.error (.incomplete 0), []⟩, now)) ∧
    ∀ access, access.isWrite = false →
      (now.perform access).2.chip.budget = now.chip.budget ∧
        ∀ budget,
          (now.withBudget budget).perform access =
            ((now.perform access).1,
              (now.perform access).2.withBudget budget) := by
  have hmetered := (metered_nil hpowered).performAll hpowered earlier
  have hlog := adapter.map_fst_performAll earlier
  rw [List.nil_append] at hmetered
  rw [hrun] at hmetered hlog
  obtain ⟨hnow, hdevice, _, _, htotal, htorn⟩ := hmetered
  simp only [hlog] at hnow htotal htorn
  refine ⟨?_, htotal, ?_, ?_⟩
  · intro offset data reply after hperform
    have hend := write_end hnow offset data
    rw [hperform] at hend
    have hprograms := hend.programs
    rw [hdevice] at hprograms
    refine ⟨?_, ?_, ?_⟩
    · intro hdone
      rw [hdone] at hprograms
      rw [← data.take_length]
      exact hprograms
    · intro count hincomplete
      rw [hincomplete] at hprograms
      exact ⟨hend.incomplete_lt count hincomplete, hprograms⟩
    · intro hnothing
      rw [hnothing] at hprograms
      exact hprograms
  · intro entry hmem hlands count hresult access hwrite hpasses
    have hspent := htorn entry hmem hlands count hresult
    have hempty : bytes - adapter.demand earlier = 0 := by omega
    rw [hempty] at hnow
    rw [← hdevice, hpowered.initialized, ← hnow.initialized] at hpasses
    exact perform_of_no_power hnow hwrite hpasses
  · intro access hother
    exact ⟨now.budget_perform hother, now.withBudget_perform hother⟩

end Adapter

namespace SmallBoard

/-- The board with a chip that ends before the device does and can program five
bytes. -/
def draining : Adapter SimulatedChip :=
  ⟨device, (SimulatedChip.mappedAt device.base 48).failAfter 5, true⟩

/-- A write that is done, one behind the end of the chip, an erase, and one that is
torn. -/
def drain : List Access :=
  [.write 0 [0x0F, 0xF3, 0x55], .write 48 [0x00], .erase 0 16,
    .write 8 [0x01, 0x02, 0x03, 0x04]]

theorem draining_powered : draining.Powered 5 :=
  Adapter.powered_failAfter (by decide) _ 5

end SmallBoard

/-- Two of the last four bytes come through, five of seven in all, and nothing after
that. -/
theorem power_loss_reported_smallBoard :
    (SmallBoard.draining.performAll SmallBoard.drain).1.map
        (fun entry => entry.2.result) =
      [.ok (), .error (.incomplete 0), .ok (), .error (.incomplete 2)] ∧
    Adapter.programmed
      (SmallBoard.draining.performAll SmallBoard.drain).1 = min 5 7 ∧
    (SmallBoard.draining.performAll SmallBoard.drain).2.perform
        (.write 32 [0x00]) =
      (⟨.error (.incomplete 0), []⟩,
        (SmallBoard.draining.performAll SmallBoard.drain).2) := by
  obtain ⟨_, htotal, htorn, _⟩ := Adapter.power_loss_reported
    SmallBoard.draining_powered
    (show SmallBoard.draining.performAll SmallBoard.drain = (_, _) from rfl)
  refine ⟨by decide, htotal, ?_⟩
  exact htorn (.write 8 [0x01, 0x02, 0x03, 0x04], ⟨.error (.incomplete 2), []⟩)
    (by decide) (by decide) 2 rfl (.write 32 [0x00]) rfl (by decide)

end FlashStorage
