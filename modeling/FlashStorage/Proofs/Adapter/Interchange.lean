import FlashStorage.Proofs.Adapter.Routing
import FlashStorage.Proofs.Chip.DriverCalls

/-!
# Chips that can be exchanged

A NOR driver over plain cells and a simulated chip find out in different ways whether
they can serve an access: the driver by 32-bit offsets, units and error kinds, the
simulated chip by the distance from its base.  On accesses that keep to the driver's
units both come to the same: the access is done in full if it ends on the cells, and
is out of bounds if not.  By induction the chips answer a whole run alike and hold the
same cells after it.  An adapter keeps to the units on its own if its device does, so
it never notices which of the two it drives.
-/

namespace FlashStorage

/-! ## Runs of commands -/

/-- What a chip, or an adapter over it, can be told to do. -/
inductive Command where
  | init
  | access (access : Access)
deriving DecidableEq, Repr

/-- The answer to a command. -/
inductive Answer (ι ρ : Type) where
  | init (result : ι)
  | access (reply : Reply ρ)
deriving DecidableEq, Repr

def Chip.execute {χ : Type} [Chip χ] (chip : χ) :
    Command → Answer Bool ChipResult × χ
  | .init =>
      let (up, after) := Chip.init chip
      (.init up, after)
  | .access access =>
      let (reply, after) := Chip.perform chip access
      (.access reply, after)

def Adapter.execute {χ : Type} [Chip χ] (adapter : Adapter χ) :
    Command →
      Answer (Except DeviceError Unit) (Outcome DeviceError Unit) × Adapter χ
  | .init =>
      let (result, after) := adapter.init
      (.init result, after)
  | .access access =>
      let (reply, after) := adapter.perform access
      (.access reply, after)

section

variable {σ τ α : Type}

/-- Execute commands one after the other and note down the answers. -/
def executeAll (execute : σ → Command → α × σ) (state : σ) :
    List Command → List α × σ
  | [] => ([], state)
  | command :: rest =>
      let (answer, next) := execute state command
      let (answers, last) := executeAll execute next rest
      (answer :: answers, last)

variable {executeLeft : σ → Command → α × σ}
  {executeRight : τ → Command → α × τ} {Related : σ → τ → Prop}
  {left : σ} {right : τ}

/-- States that answer every allowed command alike and stay related answer allowed
runs alike. -/
theorem executeAll_eq_of_related {commands : List Command}
    (hstep : ∀ left right, Related left right → ∀ command ∈ commands,
      (executeLeft left command).1 = (executeRight right command).1 ∧
        Related (executeLeft left command).2 (executeRight right command).2)
    (hrelated : Related left right) :
    (executeAll executeLeft left commands).1 =
        (executeAll executeRight right commands).1 ∧
      Related (executeAll executeLeft left commands).2
        (executeAll executeRight right commands).2 := by
  induction commands generalizing left right with
  | nil => exact ⟨rfl, hrelated⟩
  | cons command rest ih =>
      obtain ⟨hanswer, hnext⟩ :=
        hstep left right hrelated command List.mem_cons_self
      have hrest : ∀ left right, Related left right → ∀ command ∈ rest,
          (executeLeft left command).1 = (executeRight right command).1 ∧
            Related (executeLeft left command).2
              (executeRight right command).2 := by
        intro left right hsame command hmem
        exact hstep left right hsame command (List.mem_cons_of_mem _ hmem)
      obtain ⟨hanswers, hlast⟩ := ih hrest hnext
      refine ⟨?_, hlast⟩
      simp only [executeAll]
      rw [hanswer, hanswers]

end

/-! ## Accesses in whole units -/

/-- An access that keeps to the units in which a driver over plain cells programs and
erases. -/
def Access.OnUnits : Access → Prop
  | .read _ _ => True
  | .write start data =>
      NorMemory.writeUnit ∣ start.toNat ∧ NorMemory.writeUnit ∣ data.length
  | .erase start length =>
      NorMemory.eraseUnit ∣ start.toNat ∧ NorMemory.eraseUnit ∣ length.toNat

def Command.OnUnits : Command → Prop
  | .init => True
  | .access asked => asked.OnUnits

instance : DecidablePred Access.OnUnits
  | .read _ _ => inferInstanceAs (Decidable True)
  | .write _ _ => inferInstanceAs (Decidable (_ ∧ _))
  | .erase _ _ => inferInstanceAs (Decidable (_ ∧ _))

instance : DecidablePred Command.OnUnits
  | .init => inferInstanceAs (Decidable True)
  | .access asked => inferInstanceAs (Decidable asked.OnUnits)

/-- A device that is laid out in whole units of such a driver. -/
structure Device.OnUnits (device : Device) : Prop where
  base : NorMemory.eraseUnit ∣ device.base.toNat
  word : device.granularity = .bits32 ∨ device.granularity = .bits64
  block : NorMemory.eraseUnit ∣ device.block.toNat

theorem writeUnit_dvd_eraseUnit : NorMemory.writeUnit ∣ NorMemory.eraseUnit := by
  decide

theorem Device.OnUnits.writeUnit_dvd_alignment {device : Device}
    (hdevice : device.OnUnits) :
    NorMemory.writeUnit ∣ device.granularity.alignment := by
  rcases hdevice.word with hbits | hbits
  · rw [hbits]
    decide
  · rw [hbits]
    decide

/-- What such a device lets through is in whole units at its absolute address too. -/
theorem Device.OnUnits.onUnits_moveTo {device : Device} {access : Access}
    {address : UInt64} (hdevice : device.OnUnits)
    (haligned : device.isAligned access = true)
    (haddress : address.toNat = device.base.toNat + access.start.toNat) :
    (access.moveTo address).OnUnits := by
  have hunits := isAligned_iff.mp haligned
  cases access with
  | read start buffer => trivial
  | write start data =>
      obtain ⟨hstart, hlength⟩ := hunits
      have hunit := hdevice.writeUnit_dvd_alignment
      have hbase := Nat.dvd_trans writeUnit_dvd_eraseUnit hdevice.base
      refine ⟨?_, Nat.dvd_trans hunit hlength⟩
      rw [haddress]
      exact Nat.dvd_add hbase (Nat.dvd_trans hunit hstart)
  | erase start length =>
      obtain ⟨_, hstart, hlength⟩ := hunits
      refine ⟨?_, Nat.dvd_trans hdevice.block hlength⟩
      rw [haddress]
      exact Nat.dvd_add hdevice.base (Nat.dvd_trans hdevice.block hstart)

/-! ## One access to the driver -/

namespace NorMemory

variable {driver : NorMemory} {unit start length : Nat} {call : DriverCall}
  {access : Access}

/-- In whole units only the end of a range decides. -/
theorem accept_of_onUnits (hsound : driver.broken = false)
    (hstart : unit ∣ start) (hlength : unit ∣ length) :
    driver.accept unit start (start + length) =
      if start + length ≤ driver.memory.size then .ok ()
      else .error .outOfBounds := by
  have hfirst := Nat.mod_eq_zero_of_dvd hstart
  have hend := Nat.mod_eq_zero_of_dvd (Nat.dvd_add hstart hlength)
  unfold accept
  simp only [hsound, hfirst, hend, Bool.false_eq_true, if_false, ne_eq,
    not_true_eq_false, or_self]
  by_cases hroom : start + length ≤ driver.memory.size
  · rw [if_neg (by omega), if_pos hroom]
  · rw [if_pos (by omega), if_neg hroom]

theorem verdict_of_onUnits (hsound : driver.broken = false)
    (hunits : access.OnUnits) (hspells : call.Spells access) :
    driver.verdict call =
      if access.start.toNat + access.length ≤ driver.memory.size then .ok ()
      else .error .outOfBounds := by
  cases hspells with
  | read buffer hoffset =>
      rw [verdict, hoffset]
      exact accept_of_onUnits hsound (Nat.one_dvd _) (Nat.one_dvd _)
  | write data hoffset =>
      rw [verdict, hoffset]
      exact accept_of_onUnits hsound hunits.1 hunits.2
  | erase hstart hstop =>
      rw [verdict, hstart, hstop]
      exact accept_of_onUnits hsound hunits.1 hunits.2

end NorMemory

namespace NorChip

variable {chip : NorChip NorMemory} {access : Access}

/-- An access in whole units that ends on the cells is done in full. -/
theorem perform_of_room (hsound : chip.driver.broken = false)
    (hsmall : chip.driver.memory.size < UInt32.size)
    (hunits : access.OnUnits)
    (hroom : access.start.toNat + access.length ≤ chip.driver.memory.size) :
    Chip.perform chip access =
      (⟨.ok access.length,
          chip.driver.memory.shown access.start.toNat access⟩,
        ⟨{ chip.driver with
          memory := chip.driver.memory.after access.start.toNat access }⟩) := by
  obtain ⟨call, hspells⟩ :=
    (Access.tellable_of_lt (Nat.lt_of_le_of_lt hroom hsmall)).exists_spells
  have hverdict := NorMemory.verdict_of_onUnits hsound hunits hspells
  rw [if_pos hroom] at hverdict
  rw [perform_of_spells chip hspells]
  simp only [ask, NorMemory.answer_of_accepted hverdict hspells]
  rfl

/-- An access in whole units that does not end on the cells is out of bounds, whether
the driver is asked or its addresses are too short to ask. -/
theorem perform_of_no_room (hsound : chip.driver.broken = false)
    (hunits : access.OnUnits)
    (hroom : ¬ access.start.toNat + access.length ≤ chip.driver.memory.size) :
    Chip.perform chip access =
      (⟨.error .outOfBounds, access.buffer⟩, chip) := by
  by_cases htellable : access.Tellable
  · obtain ⟨call, hspells⟩ := htellable.exists_spells
    have hverdict := NorMemory.verdict_of_onUnits hsound hunits hspells
    rw [if_neg hroom] at hverdict
    rw [perform_of_spells chip hspells]
    simp only [ask, NorMemory.answer_of_refused hverdict, hspells.buffer_eq]
    rfl
  · exact perform_of_not_tellable chip htellable

end NorChip

/-! ## Chips side by side -/

/-- A sound driver and a simulated chip at address zero with the same cells, so few
that a driver can address them all. -/
structure Twins (nor : NorChip NorMemory) (simulated : SimulatedChip) : Prop where
  memory_eq : nor.driver.memory = simulated.memory
  sound : nor.driver.broken = false
  small : simulated.memory.size < UInt32.size
  base_eq : simulated.base = 0
  present : simulated.present = true
  unlimited : simulated.budget = none

/-- An erased driver in use as a chip. -/
def NorChip.ofSize (size : Nat) : NorChip NorMemory :=
  ⟨NorMemory.ofSize size false⟩

theorem twins_ofSize {size : Nat} (hsmall : size < UInt32.size) :
    Twins (NorChip.ofSize size) (SimulatedChip.ofSize size) where
  memory_eq := rfl
  sound := rfl
  small := by
    change (Memory.erased size).size < UInt32.size
    rwa [Memory.size_erased]
  base_eq := rfl
  present := rfl
  unlimited := rfl

theorem SimulatedChip.init_of_present {chip : SimulatedChip}
    (hpresent : chip.present = true) :
    Chip.init chip = (true, { chip with initCalls := chip.initCalls + 1 }) :=
  congrArg (fun up => (up, { chip with initCalls := chip.initCalls + 1 }))
    hpresent

namespace Twins

variable {nor : NorChip NorMemory} {simulated : SimulatedChip}
  {access : Access}

theorem span?_eq (htwins : Twins nor simulated) (access : Access) :
    simulated.span? access.start access.length =
      if access.start.toNat + access.length ≤ nor.driver.memory.size then
        some access.start.toNat
      else none := by
  have hbase : simulated.base.toNat = 0 := congrArg UInt64.toNat htwins.base_eq
  unfold SimulatedChip.span?
  rw [hbase, htwins.memory_eq, Nat.sub_zero]
  simp only [Nat.zero_le, true_and]

theorem perform (htwins : Twins nor simulated) (hunits : access.OnUnits) :
    (Chip.perform nor access).1 = (Chip.perform simulated access).1 ∧
      Twins (Chip.perform nor access).2 (Chip.perform simulated access).2 := by
  have hspan := htwins.span?_eq access
  obtain ⟨hmemory, hsound, hsmall, hbase, hpresent, hunlimited⟩ := htwins
  by_cases hroom : access.start.toNat + access.length ≤ nor.driver.memory.size
  · rw [if_pos hroom] at hspan
    rw [SimulatedChip.perform_of_span (.inl hunlimited) hspan,
      NorChip.perform_of_room hsound (hmemory ▸ hsmall) hunits hroom, hmemory]
    refine ⟨rfl, rfl, hsound, ?_, hbase, hpresent, hunlimited⟩
    change (simulated.memory.after access.start.toNat access).size < UInt32.size
    rwa [Memory.size_after]
  · rw [if_neg hroom] at hspan
    rw [SimulatedChip.perform_of_no_span hspan,
      NorChip.perform_of_no_room hsound hunits hroom]
    exact ⟨rfl, hmemory, hsound, hsmall, hbase, hpresent, hunlimited⟩

theorem init (htwins : Twins nor simulated) :
    Twins nor { simulated with initCalls := simulated.initCalls + 1 } :=
  ⟨htwins.memory_eq, htwins.sound, htwins.small, htwins.base_eq,
    htwins.present, htwins.unlimited⟩

theorem execute (htwins : Twins nor simulated) {command : Command}
    (hunits : command.OnUnits) :
    (Chip.execute nor command).1 = (Chip.execute simulated command).1 ∧
      Twins (Chip.execute nor command).2
        (Chip.execute simulated command).2 := by
  cases command with
  | init =>
      unfold Chip.execute
      rw [SimulatedChip.init_of_present htwins.present]
      exact ⟨rfl, htwins.init⟩
  | access access =>
      obtain ⟨hreply, hafter⟩ := htwins.perform hunits
      exact ⟨congrArg Answer.access hreply, hafter⟩

theorem executeAll (htwins : Twins nor simulated) {commands : List Command}
    (hunits : ∀ command ∈ commands, command.OnUnits) :
    (executeAll Chip.execute nor commands).1 =
        (executeAll Chip.execute simulated commands).1 ∧
      Twins (executeAll Chip.execute nor commands).2
        (executeAll Chip.execute simulated commands).2 := by
  refine executeAll_eq_of_related ?_ htwins
  intro nor simulated hnow command hmem
  exact hnow.execute (hunits command hmem)

end Twins

/-! ## Adapters side by side -/

/-- Adapters of one device over chips that can be exchanged, both up or neither. -/
structure Adapter.Twins (device : Device) (left : Adapter (NorChip NorMemory))
    (right : Adapter SimulatedChip) : Prop where
  left_device : left.device = device
  right_device : right.device = device
  initialized_eq : left.initialized = right.initialized
  chips : FlashStorage.Twins left.chip right.chip

namespace Adapter.Twins

variable {device : Device} {left : Adapter (NorChip NorMemory)}
  {right : Adapter SimulatedChip}

theorem init (htwins : Twins device left right) :
    left.init.1 = right.init.1 ∧ Twins device left.init.2 right.init.2 := by
  obtain ⟨hleft, hright, hup, hchips⟩ := htwins
  unfold Adapter.init
  rw [hup]
  cases hstate : right.initialized with
  | true => exact ⟨rfl, hleft, hright, hup, hchips⟩
  | false =>
      rw [SimulatedChip.init_of_present hchips.present]
      exact ⟨rfl, hleft, hright, rfl, hchips.init⟩

theorem perform (htwins : Twins device left right) (hdevice : device.OnUnits)
    (access : Access) :
    (left.perform access).1 = (right.perform access).1 ∧
      Twins device (left.perform access).2 (right.perform access).2 := by
  obtain ⟨hleft, hright, hup, hchips⟩ := htwins
  rw [left.perform_eq_follow, right.perform_eq_follow, hleft, hright, hup]
  cases hroute : device.route right.initialized access with
  | answered result => exact ⟨rfl, hleft, hright, hup, hchips⟩
  | forwarded address =>
      obtain ⟨_, haligned, _, _, haddress⟩ :=
        Device.route_eq_forwarded_iff.mp hroute
      obtain ⟨hreply, hafter⟩ :=
        hchips.perform (hdevice.onUnits_moveTo haligned haddress)
      simp only [follow, reach, hreply]
      exact ⟨trivial, hleft, hright, hup, hafter⟩

theorem executeAll (htwins : Twins device left right)
    (hdevice : device.OnUnits) (commands : List Command) :
    (executeAll Adapter.execute left commands).1 =
        (executeAll Adapter.execute right commands).1 ∧
      Twins device (executeAll Adapter.execute left commands).2
        (executeAll Adapter.execute right commands).2 := by
  refine executeAll_eq_of_related ?_ htwins
  intro left right hnow command _
  cases command with
  | init =>
      obtain ⟨hresult, hafter⟩ := hnow.init
      exact ⟨congrArg Answer.init hresult, hafter⟩
  | access access =>
      obtain ⟨hreply, hafter⟩ := hnow.perform hdevice access
      exact ⟨congrArg Answer.access hreply, hafter⟩

end Adapter.Twins

/-- A fresh NOR driver in use as a chip and a fresh simulated chip of the same size
give the same answers to every run of commands in whole units, and hold the same cells
after it.  At any such time adapters of one device in whole units, both up or neither,
give the same answers over them to every further run, and leave the same cells. -/
theorem chips_interchangeable {size : Nat} (hsmall : size < UInt32.size)
    {commands : List Command}
    (hunits : ∀ command ∈ commands, command.OnUnits) :
    (executeAll Chip.execute (NorChip.ofSize size) commands).1 =
        (executeAll Chip.execute (SimulatedChip.ofSize size) commands).1 ∧
      (executeAll Chip.execute (NorChip.ofSize size)
          commands).2.driver.memory =
        (executeAll Chip.execute (SimulatedChip.ofSize size)
          commands).2.memory ∧
      ∀ (device : Device) (up : Bool) (further : List Command),
        device.OnUnits →
        (executeAll Adapter.execute
            ⟨device, (executeAll Chip.execute (NorChip.ofSize size)
              commands).2, up⟩ further).1 =
          (executeAll Adapter.execute
            ⟨device, (executeAll Chip.execute (SimulatedChip.ofSize size)
              commands).2, up⟩ further).1 ∧
        (executeAll Adapter.execute
            ⟨device, (executeAll Chip.execute (NorChip.ofSize size)
              commands).2, up⟩ further).2.chip.driver.memory =
          (executeAll Adapter.execute
            ⟨device, (executeAll Chip.execute (SimulatedChip.ofSize size)
              commands).2, up⟩ further).2.chip.memory := by
  obtain ⟨hanswers, htwins⟩ := (twins_ofSize hsmall).executeAll hunits
  refine ⟨hanswers, htwins.memory_eq, ?_⟩
  intro device up further hdevice
  have hstart : Adapter.Twins device
      ⟨device, (executeAll Chip.execute (NorChip.ofSize size) commands).2, up⟩
      ⟨device, (executeAll Chip.execute (SimulatedChip.ofSize size)
        commands).2, up⟩ :=
    ⟨rfl, rfl, rfl, htwins⟩
  obtain ⟨hsame, hafter⟩ := hstart.executeAll hdevice further
  exact ⟨hsame, hafter.chips.memory_eq⟩

namespace TwinBoard

/-- A device that reaches sixteen bytes behind the cells of its chip. -/
def device : Device := .describe "nor0" 16 64 16 .bits32

/-- A write, a read behind the end, an erase of an address beyond 32 bits and one
whose end is no word. -/
def commands : List Command :=
  [.init, .access (.write 16 [0x0F, 0xF0, 0xFF, 0x00]),
    .access (.read 62 [1, 2, 3]), .access (.erase 4294967296 16),
    .access (.erase 18446744073709551600 16), .access (.read 15 [0, 0, 0])]

def further : List Command :=
  [.init, .access (.write 0 [0xF3, 0xFF, 0xFF, 0xFF]),
    .access (.write 2 [0, 0, 0, 0]), .access (.write 48 [1, 2, 3, 4]),
    .access (.read 0 [0, 0]), .access (.erase 0 16)]

end TwinBoard

theorem chips_interchangeable_twinBoard :
    (executeAll Chip.execute (NorChip.ofSize 64) TwinBoard.commands).1 =
        [.init true, .access ⟨.ok 4, []⟩,
          .access ⟨.error .outOfBounds, [1, 2, 3]⟩,
          .access ⟨.error .outOfBounds, []⟩,
          .access ⟨.error .outOfBounds, []⟩,
          .access ⟨.ok 3, [0xFF, 0x0F, 0xF0]⟩] ∧
      (executeAll Adapter.execute
          ⟨TwinBoard.device, (executeAll Chip.execute (NorChip.ofSize 64)
            TwinBoard.commands).2, true⟩ TwinBoard.further).1 =
        [.init (.ok ()), .access ⟨.ok (), []⟩,
          .access ⟨.error .misaligned, []⟩,
          .access ⟨.error (.incomplete 0), []⟩,
          .access ⟨.ok (), [0x03, 0xF0]⟩, .access ⟨.ok (), []⟩] := by
  obtain ⟨hanswers, _, hadapters⟩ := chips_interchangeable
    (show 64 < UInt32.size by decide)
    (show ∀ command ∈ TwinBoard.commands, command.OnUnits by decide)
  have hdevice : TwinBoard.device.OnUnits :=
    ⟨by decide, .inl rfl, by decide⟩
  obtain ⟨hsame, _⟩ :=
    hadapters TwinBoard.device true TwinBoard.further hdevice
  rw [hanswers, hsame]
  exact ⟨rfl, rfl⟩

end FlashStorage
