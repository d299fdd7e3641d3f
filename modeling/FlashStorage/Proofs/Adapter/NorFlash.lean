import FlashStorage.Proofs.Adapter.Routing
import FlashStorage.Proofs.Chip.Imprint

/-!
# Adapters over cells are NOR flash

An adapter that is up, on a chip with cells for all of its device, admits an access
exactly if the device's units and length allow it.  What it admits has the effect of
NOR flash on the bytes of the device, what it does not admit has none.  By induction
over a run, a read shows at every offset the AND of what was programmed there since
it was last erased.
-/

namespace FlashStorage

/-- The accesses that the units and the length of a device allow. -/
def Device.Admits (device : Device) (access : Access) : Prop :=
  device.InUnits access ∧
    access.start.toNat + access.length ≤ device.length.toNat

instance (device : Device) : DecidablePred device.Admits :=
  fun _ => inferInstanceAs (Decidable (_ ∧ _))

/-- The absolute addresses that a chip has cells for. -/
def SimulatedChip.zone (chip : SimulatedChip) : Set Nat :=
  Set.Ico chip.base.toNat (chip.base.toNat + chip.memory.size)

theorem SimulatedChip.subset_zone_mappedAt (base : UInt64) (size : Nat) :
    Set.Ico base.toNat (base.toNat + size) ⊆ (mappedAt base size).zone := by
  intro address hmem
  unfold zone mappedAt
  rw [Memory.size_erased]
  exact hmem

namespace Device

variable {device : Device} {access : Access}

theorem admits_iff :
    device.Admits access ↔
      device.isAligned access = true ∧
        access.start.toNat + access.length ≤ device.length.toNat := by
  rw [isAligned_iff]
  rfl

theorem Admits.end_le (hadmits : device.Admits access) :
    access.start.toNat + access.length ≤ device.length.toNat :=
  hadmits.2

end Device

namespace Adapter

/-- An adapter that is up on a device inside the address space, on a chip that has
cells for all of it and no write budget. -/
structure Backed (adapter : Adapter SimulatedChip) : Prop where
  initialized : adapter.initialized = true
  unlimited : adapter.chip.budget = none
  space : adapter.device.base.toNat + adapter.device.length.toNat ≤ UInt64.size
  covers : adapter.device.zone ⊆ adapter.chip.zone

/-- The byte at an offset of the device. -/
def byte (adapter : Adapter SimulatedChip) (offset : Nat) : UInt8 :=
  adapter.chip.memory.byte
    (adapter.device.base.toNat + offset - adapter.chip.base.toNat)

variable {adapter : Adapter SimulatedChip} {access : Access} {offset : Nat}

/-! ## One access -/

theorem Backed.cell (hbacked : adapter.Backed)
    (hoffset : offset < adapter.device.length.toNat) :
    adapter.chip.base.toNat ≤ adapter.device.base.toNat + offset ∧
      adapter.device.base.toNat + offset <
        adapter.chip.base.toNat + adapter.chip.memory.size := by
  have hmem : adapter.device.base.toNat + offset ∈ adapter.device.zone := by
    unfold Device.zone
    rw [Set.mem_Ico]
    omega
  exact Set.mem_Ico.mp (hbacked.covers hmem)

theorem Backed.cells (hbacked : adapter.Backed)
    (hadmits : adapter.device.Admits access) (hsome : 0 < access.length) :
    adapter.chip.base.toNat ≤
        adapter.device.base.toNat + access.start.toNat ∧
      adapter.device.base.toNat + access.start.toNat + access.length ≤
        adapter.chip.base.toNat + adapter.chip.memory.size := by
  have hend := hadmits.end_le
  have hfirst : access.start.toNat < adapter.device.length.toNat := by omega
  have hlast : access.start.toNat + (access.length - 1) <
      adapter.device.length.toNat := by omega
  have hlower := (hbacked.cell hfirst).1
  have hupper := (hbacked.cell hlast).2
  omega

theorem perform_of_not_admits {χ : Type} [Chip χ] {adapter : Adapter χ}
    (hnot : ¬ adapter.device.Admits access) :
    ∃ error, adapter.perform access =
      (⟨.error error, access.buffer⟩, adapter) := by
  have hrefused : adapter.refusal? access ≠ none := by
    intro hnone
    have hpassed := (refusal?_eq_none_iff.mp hnone).2
    exact hnot (Device.admits_iff.mpr hpassed)
  obtain ⟨error, herror⟩ := Option.ne_none_iff_exists'.mp hrefused
  refine ⟨error, ?_⟩
  unfold perform
  rw [herror]

/-- The index of the first cell that an access reaches. -/
def firstCell (adapter : Adapter SimulatedChip) (access : Access) : Nat :=
  adapter.device.base.toNat + access.start.toNat - adapter.chip.base.toNat

/-- An access that is admitted is done in full on its own cells.  An empty one is
answered before its address is formed, which could lie behind the last one. -/
theorem perform_of_admits (hbacked : adapter.Backed)
    (hadmits : adapter.device.Admits access) :
    adapter.perform access =
      (⟨.ok (), adapter.chip.memory.shown (adapter.firstCell access) access⟩,
        { adapter with chip := { adapter.chip with
          memory := adapter.chip.memory.after
            (adapter.firstCell access) access } }) := by
  have hpassed : adapter.refusal? access = none :=
    refusal?_eq_none_iff.mpr
      ⟨hbacked.initialized, Device.admits_iff.mp hadmits⟩
  unfold perform
  rw [hpassed]
  by_cases hempty : access.length = 0
  · rw [Memory.after_of_empty hempty, Memory.shown_of_empty hempty]
    simp only [hempty, if_true]
  · have hsome : 0 < access.length := Nat.pos_of_ne_zero hempty
    have hend := hadmits.end_le
    have hspace := hbacked.space
    obtain ⟨hlower, hupper⟩ := hbacked.cells hadmits hsome
    have haddress :
        (adapter.device.base + access.start).toNat =
          adapter.device.base.toNat + access.start.toNat :=
      Word.toNat_add_of_lt (by omega)
    have hsum : Word.add? adapter.device.base access.start =
        some (adapter.device.base + access.start) :=
      Word.add?_eq_some_iff.mpr haddress
    have hspan : adapter.chip.span?
        (access.moveTo (adapter.device.base + access.start)).start
        (access.moveTo (adapter.device.base + access.start)).length =
          some (adapter.firstCell access) := by
      rw [SimulatedChip.span?_eq_some_iff, Access.start_moveTo,
        Access.length_moveTo, haddress]
      unfold firstCell
      omega
    have hchip :=
      SimulatedChip.perform_of_span (.inl hbacked.unlimited) hspan
    rw [Access.length_moveTo] at hchip
    simp only [hempty, if_false, hsum, hchip, settle, if_true]
    cases access <;> rfl

/-- An adapter over its cells does exactly what its device admits. -/
theorem perform_eq_ok_iff (hbacked : adapter.Backed) :
    (adapter.perform access).1.result = .ok () ↔
      adapter.device.Admits access := by
  by_cases hadmits : adapter.device.Admits access
  · rw [perform_of_admits hbacked hadmits]
    exact iff_of_true rfl hadmits
  · obtain ⟨error, hrefused⟩ := perform_of_not_admits hadmits
    rw [hrefused]
    simp [hadmits]

theorem base_perform (hbacked : adapter.Backed) :
    (adapter.perform access).2.chip.base = adapter.chip.base := by
  by_cases hadmits : adapter.device.Admits access
  · rw [perform_of_admits hbacked hadmits]
  · obtain ⟨error, hrefused⟩ := perform_of_not_admits hadmits
    rw [hrefused]

theorem Backed.perform (hbacked : adapter.Backed) (access : Access) :
    (adapter.perform access).2.Backed := by
  by_cases hadmits : adapter.device.Admits access
  · rw [perform_of_admits hbacked hadmits]
    refine ⟨hbacked.initialized, hbacked.unlimited, hbacked.space, ?_⟩
    have hcovers := hbacked.covers
    unfold SimulatedChip.zone at hcovers ⊢
    rwa [Memory.size_after]
  · obtain ⟨error, hrefused⟩ := perform_of_not_admits hadmits
    rw [hrefused]
    exact hbacked

/-- A byte of the device takes the imprint of an access that is admitted. -/
theorem byte_perform (hbacked : adapter.Backed)
    (hadmits : adapter.device.Admits access)
    (hoffset : offset < adapter.device.length.toNat) :
    (adapter.perform access).2.byte offset =
      access.imprint offset (adapter.byte offset) := by
  have hcell := (hbacked.cell hoffset).1
  rw [perform_of_admits hbacked hadmits]
  change (adapter.chip.memory.after _ access).byte
    (adapter.device.base.toNat + offset - adapter.chip.base.toNat) = _
  by_cases hempty : access.length = 0
  · rw [Memory.after_of_empty hempty, Access.imprint_of_outside (by omega)]
    rfl
  · obtain ⟨hlower, hupper⟩ :=
      hbacked.cells hadmits (Nat.pos_of_ne_zero hempty)
    apply Memory.byte_after
    · unfold firstCell
      omega
    · unfold firstCell
      omega

theorem buffer_perform_read {start : UInt64} {buffer : List UInt8}
    (hbacked : adapter.Backed)
    (hadmits : adapter.device.Admits (.read start buffer)) :
    (adapter.perform (.read start buffer)).1.buffer =
      (List.range buffer.length).map
        (fun position => adapter.byte (start.toNat + position)) := by
  rw [perform_of_admits hbacked hadmits]
  by_cases hempty : (Access.read start buffer).length = 0
  · have hlength : buffer.length = 0 := hempty
    rw [Memory.shown_of_empty hempty, hlength]
    exact List.eq_nil_of_length_eq_zero hempty
  · obtain ⟨hlower, hupper⟩ :=
      hbacked.cells hadmits (Nat.pos_of_ne_zero hempty)
    simp only [Access.start, Access.length] at hlower hupper
    simp only [Memory.shown, firstCell, Access.start]
    rw [Memory.read_eq_map _ (by omega)]
    apply List.map_congr_left
    intro position _
    unfold byte
    congr 1
    omega

theorem byte_perform_of_outside {index : Nat} (hbacked : adapter.Backed)
    (houtside : adapter.chip.base.toNat + index ∉ adapter.device.zone) :
    (adapter.perform access).2.chip.memory.byte index =
      adapter.chip.memory.byte index := by
  by_cases hadmits : adapter.device.Admits access
  · rw [perform_of_admits hbacked hadmits]
    by_cases hempty : access.length = 0
    · rw [Memory.after_of_empty hempty]
    · obtain ⟨hlower, _⟩ :=
        hbacked.cells hadmits (Nat.pos_of_ne_zero hempty)
      have hend := hadmits.end_le
      unfold Device.zone at houtside
      rw [Set.mem_Ico] at houtside
      apply Memory.byte_after_of_outside
      unfold firstCell
      omega
  · obtain ⟨error, hrefused⟩ := perform_of_not_admits hadmits
    rw [hrefused]

/-! ## Runs -/

/-- Carry out accesses one after the other and note down the replies. -/
def performAll {χ : Type} [Chip χ] (adapter : Adapter χ) :
    List Access →
      List (Access × Reply (Outcome DeviceError Unit)) × Adapter χ
  | [] => ([], adapter)
  | access :: rest =>
      let (reply, next) := adapter.perform access
      let (log, last) := next.performAll rest
      ((access, reply) :: log, last)

/-- The accesses of a log that were done. -/
def done (log : List (Access × Reply (Outcome DeviceError Unit))) :
    List Access :=
  (log.filter (fun entry => entry.2.result = .ok ())).map Prod.fst

/-- A device at a place on its chip that shows what some accesses have left, on a
chip that is erased everywhere else. -/
structure Shows (device : Device) (base : UInt64) (history : List Access)
    (now : Adapter SimulatedChip) : Prop where
  backed : now.Backed
  device_eq : now.device = device
  base_eq : now.chip.base = base
  inside : ∀ offset < device.length.toNat,
    now.byte offset = Access.contents history offset
  outside : ∀ index, base.toNat + index ∉ device.zone →
    now.chip.memory.byte index = erasedByte

variable {device : Device} {base : UInt64} {history : List Access}
  {now : Adapter SimulatedChip}

theorem shows_of_erased {size : Nat} (hbacked : adapter.Backed)
    (hfresh : adapter.chip.memory = Memory.erased size) :
    Shows adapter.device adapter.chip.base [] adapter where
  backed := hbacked
  device_eq := rfl
  base_eq := rfl
  inside := by
    intro offset _
    unfold byte
    rw [hfresh, Memory.byte_erased, Access.contents_nil]
  outside := by
    intro index _
    rw [hfresh, Memory.byte_erased]

theorem Shows.perform_of_admits (hshows : Shows device base history now)
    (hadmits : device.Admits access) :
    Shows device base (history ++ [access]) (now.perform access).2 := by
  obtain ⟨hbacked, rfl, rfl, hinside, houtside⟩ := hshows
  refine ⟨hbacked.perform access, device_perform _ _, base_perform hbacked,
    ?_, ?_⟩
  · intro offset hoffset
    rw [byte_perform hbacked hadmits hoffset, hinside offset hoffset,
      Access.contents_concat]
  · intro index hindex
    rw [byte_perform_of_outside hbacked hindex, houtside index hindex]

theorem Shows.perform_of_not_admits (hshows : Shows device base history now)
    (hnot : ¬ device.Admits access) :
    ∃ error, now.perform access = (⟨.error error, access.buffer⟩, now) := by
  rw [← hshows.device_eq] at hnot
  exact Adapter.perform_of_not_admits hnot

theorem Shows.performAll (hshows : Shows device base history now)
    (accesses : List Access) :
    Shows device base (history ++ done (now.performAll accesses).1)
      (now.performAll accesses).2 := by
  induction accesses generalizing history now with
  | nil => simpa [Adapter.performAll, done] using hshows
  | cons access rest ih =>
      by_cases hadmits : device.Admits access
      · have hresult : (now.perform access).1.result = .ok () := by
          rw [perform_eq_ok_iff hshows.backed, hshows.device_eq]
          exact hadmits
        have hrest := ih (hshows.perform_of_admits hadmits)
        simpa [Adapter.performAll, done, hresult] using hrest
      · obtain ⟨error, hrefused⟩ := hshows.perform_of_not_admits hadmits
        have hrest := ih hshows
        simpa [Adapter.performAll, done, hrefused] using hrest

/-- Over an erased chip with cells for its device an adapter is NOR flash.  At any
time of any run an access is done exactly if the device admits it, and is refused
without a trace if not.  A read that is done shows at every offset the AND of the
bytes that were programmed there since it was last erased.  The chip stays erased
outside the device. -/
theorem nor_flash_of_erased {size : Nat} (hbacked : adapter.Backed)
    (hfresh : adapter.chip.memory = Memory.erased size)
    (earlier : List Access) :
    (∀ access,
      (((adapter.performAll earlier).2.perform access).1.result = .ok () ↔
        adapter.device.Admits access) ∧
      (¬ adapter.device.Admits access →
        ∃ error, (adapter.performAll earlier).2.perform access =
          (⟨.error error, access.buffer⟩, (adapter.performAll earlier).2))) ∧
    (∀ start buffer, adapter.device.Admits (.read start buffer) →
      ((adapter.performAll earlier).2.perform
          (.read start buffer)).1.buffer =
        (List.range buffer.length).map (fun position =>
          Access.contents (done (adapter.performAll earlier).1)
            (start.toNat + position))) ∧
    ∀ index, adapter.chip.base.toNat + index ∉ adapter.device.zone →
      (adapter.performAll earlier).2.chip.memory.byte index = erasedByte := by
  have hshows := (shows_of_erased hbacked hfresh).performAll earlier
  rw [List.nil_append] at hshows
  refine ⟨?_, ?_, hshows.outside⟩
  · intro access
    refine ⟨?_, hshows.perform_of_not_admits⟩
    rw [perform_eq_ok_iff hshows.backed, hshows.device_eq]
  · intro start buffer hadmits
    have hend := hadmits.end_le
    rw [← hshows.device_eq] at hadmits
    rw [buffer_perform_read hshows.backed hadmits]
    apply List.map_congr_left
    intro position hposition
    rw [List.mem_range] at hposition
    apply hshows.inside
    simp only [Access.start, Access.length] at hend
    omega

end Adapter

namespace SmallBoard

theorem ready_backed : ready.Backed where
  initialized := rfl
  unlimited := rfl
  space := by decide
  covers := SimulatedChip.subset_zone_mappedAt 4096 64

/-- Two writes of one byte, an erase that is refused, a write that is refused, and
an erase of the next block. -/
def accesses : List Access :=
  [.write 0 [0x0F], .write 0 [0xF3, 0x55], .erase 0 8, .write 64 [0x00],
    .erase 16 16]

end SmallBoard

theorem nor_flash_of_erased_smallBoard :
    (SmallBoard.ready.performAll SmallBoard.accesses).1.map
        (fun entry => entry.2.result) =
      [.ok (), .ok (), .error .misaligned, .error .outOfRange, .ok ()] ∧
    ((SmallBoard.ready.performAll SmallBoard.accesses).2.perform
        (.read 0 [0, 0, 0])).1 = ⟨.ok (), [0x03, 0x55, 0xFF]⟩ := by
  obtain ⟨hdone, hshown, _⟩ := Adapter.nor_flash_of_erased
    SmallBoard.ready_backed
    (show SmallBoard.ready.chip.memory = Memory.erased 64 from rfl)
    SmallBoard.accesses
  have hresult := (hdone (.read 0 [0, 0, 0])).1.mpr (by decide)
  have hbuffer := hshown 0 [0, 0, 0] (by decide)
  refine ⟨rfl, ?_⟩
  generalize (SmallBoard.ready.performAll SmallBoard.accesses).2.perform
    (.read 0 [0, 0, 0]) = answered at hresult hbuffer
  obtain ⟨⟨result, buffer⟩, after⟩ := answered
  simp only at hresult hbuffer
  rw [hresult, hbuffer]
  rfl

end FlashStorage
