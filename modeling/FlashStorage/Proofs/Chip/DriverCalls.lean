import FlashStorage.Chip.NorMemory
import FlashStorage.Proofs.Chip.Locality
import Mathlib.Data.List.Forall2

/-!
# What a driver is told

A chip over a NOR driver has addresses of 64 bits, its driver is told words of 32 bits.
An access whose ends are such words becomes one call that spells them exactly, and the
chip reads the driver's answer in its own terms.  Any other access is out of bounds, and
no driver hears of it.  A recorder in front of the driver notes the calls.

Over plain cells a call that the driver refuses changes neither the cells nor the
caller's buffer, so the same holds of every access that the chip refuses.
-/

namespace FlashStorage

/-! ## Calls of a driver -/

/-- A call of a driver, with the words that it is told. -/
inductive DriverCall where
  | read (offset : UInt32) (buffer : List UInt8)
  | write (offset : UInt32) (data : List UInt8)
  | erase (start stop : UInt32)
deriving DecidableEq, Repr

/-- The buffer that a call may fill. -/
def DriverCall.buffer : DriverCall → List UInt8
  | .read _ buffer => buffer
  | .write _ _ => []
  | .erase _ _ => []

/-- A call of the kind of an access whose words are the exact ends of its range. -/
inductive DriverCall.Spells : DriverCall → Access → Prop where
  | read {offset : UInt32} {address : UInt64} (buffer : List UInt8)
      (hoffset : offset.toNat = address.toNat) :
      Spells (.read offset buffer) (.read address buffer)
  | write {offset : UInt32} {address : UInt64} (data : List UInt8)
      (hoffset : offset.toNat = address.toNat) :
      Spells (.write offset data) (.write address data)
  | erase {start stop : UInt32} {address length : UInt64}
      (hstart : start.toNat = address.toNat)
      (hstop : stop.toNat = address.toNat + length.toNat) :
      Spells (.erase start stop) (.erase address length)

/-- An access whose range a driver can be told.  Of an erase it is told both ends. -/
def Access.Tellable : Access → Prop
  | .read start _ => start.toNat < UInt32.size
  | .write start _ => start.toNat < UInt32.size
  | .erase start length => start.toNat + length.toNat < UInt32.size

instance : DecidablePred Access.Tellable
  | .read _ _ => inferInstanceAs (Decidable (_ < _))
  | .write _ _ => inferInstanceAs (Decidable (_ < _))
  | .erase _ _ => inferInstanceAs (Decidable (_ < _))

theorem DriverCall.Spells.buffer_eq {call : DriverCall} {access : Access}
    (hspells : call.Spells access) : call.buffer = access.buffer := by
  cases hspells <;> rfl

theorem DriverCall.Spells.tellable {call : DriverCall} {access : Access}
    (hspells : call.Spells access) : access.Tellable := by
  cases hspells with
  | @read offset address buffer hoffset =>
      change address.toNat < UInt32.size
      rw [← hoffset]
      exact offset.toNat_lt_size
  | @write offset address data hoffset =>
      change address.toNat < UInt32.size
      rw [← hoffset]
      exact offset.toNat_lt_size
  | @erase start stop address length hstart hstop =>
      change address.toNat + length.toNat < UInt32.size
      rw [← hstop]
      exact stop.toNat_lt_size

theorem Access.Tellable.exists_spells {access : Access}
    (htellable : access.Tellable) : ∃ call : DriverCall, call.Spells access := by
  cases access with
  | read address buffer =>
      have hoffset := UInt32.toNat_ofNat_of_lt' htellable
      exact ⟨_, .read buffer hoffset⟩
  | write address data =>
      have hoffset := UInt32.toNat_ofNat_of_lt' htellable
      exact ⟨_, .write data hoffset⟩
  | erase address length =>
      have hsmall : address.toNat < UInt32.size :=
        Nat.lt_of_le_of_lt (Nat.le_add_right _ length.toNat) htellable
      have hstart := UInt32.toNat_ofNat_of_lt' hsmall
      have hstop := UInt32.toNat_ofNat_of_lt' htellable
      exact ⟨_, .erase hstart hstop⟩

/-- A range that ends below the end of the words can be told. -/
theorem Access.tellable_of_lt {access : Access}
    (hend : access.start.toNat + access.length < UInt32.size) :
    access.Tellable := by
  have hstart := Nat.lt_of_le_of_lt (Nat.le_add_right _ _) hend
  cases access with
  | read address buffer => exact hstart
  | write address data => exact hstart
  | erase address length => exact hend

section

variable {δ : Type} [NorDriver δ]

/-- Answer a call. -/
def NorDriver.answer (driver : δ) :
    DriverCall → Reply (Except NorError Unit) × δ
  | .read offset buffer => NorDriver.read driver offset buffer
  | .write offset data =>
      let (result, after) := NorDriver.write driver offset data
      (⟨result, []⟩, after)
  | .erase start stop =>
      let (result, after) := NorDriver.erase driver start stop
      (⟨result, []⟩, after)

end

/-! ## One access to a chip over a driver -/

namespace NorChip

variable {δ : Type} [NorDriver δ] {call : DriverCall} {access : Access}

/-- A driver's answer to the call for an access, in the terms of the chip. -/
def ask (chip : NorChip δ) (access : Access) (call : DriverCall) :
    Reply ChipResult × NorChip δ :=
  let (reply, driver) := NorDriver.answer chip.driver call
  (⟨inFull access.length reply.result, reply.buffer⟩, ⟨driver⟩)

theorem perform_of_spells (chip : NorChip δ) (hspells : call.Spells access) :
    Chip.perform chip access = chip.ask access call := by
  cases hspells with
  | read buffer hoffset =>
      rw [perform_read]
      unfold read
      rw [narrow?_eq_some_iff.mpr hoffset]
      rfl
  | write data hoffset =>
      rw [perform_write]
      unfold write
      rw [narrow?_eq_some_iff.mpr hoffset]
      rfl
  | erase hstart hstop =>
      rw [perform_erase]
      unfold erase
      rw [narrow?_eq_some_iff.mpr hstart, narrow?_eq_some_iff.mpr hstop]
      rfl

theorem perform_of_not_tellable (chip : NorChip δ)
    (htold : ¬ access.Tellable) :
    Chip.perform chip access = (⟨.error .outOfBounds, access.buffer⟩, chip) := by
  cases access with
  | read address buffer =>
      have hwide : narrow? address.toNat = none :=
        narrow?_eq_none_iff.mpr (Nat.not_lt.mp htold)
      rw [perform_read]
      unfold read
      rw [hwide]
      rfl
  | write address data =>
      have hwide : narrow? address.toNat = none :=
        narrow?_eq_none_iff.mpr (Nat.not_lt.mp htold)
      rw [perform_write]
      unfold write
      rw [hwide]
      rfl
  | erase address length =>
      have hwide : narrow? (address.toNat + length.toNat) = none :=
        narrow?_eq_none_iff.mpr (Nat.not_lt.mp htold)
      rw [perform_erase]
      unfold erase
      cases narrow? address.toNat with
      | none => rfl
      | some start =>
          rw [hwide]
          rfl

end NorChip

/-! ## Recorded drivers -/

/-- A driver behind a recorder. -/
structure RecordedDriver (δ : Type) where
  driver : δ
  /-- Every call so far, the first in front. -/
  calls : List DriverCall

namespace RecordedDriver

variable {δ : Type} [NorDriver δ]

/-- Answer a call and note it. -/
def note (recorded : RecordedDriver δ) (call : DriverCall) :
    Reply (Except NorError Unit) × RecordedDriver δ :=
  let (reply, driver) := NorDriver.answer recorded.driver call
  (reply, ⟨driver, recorded.calls ++ [call]⟩)

instance : NorDriver (RecordedDriver δ) where
  eraseSize recorded := NorDriver.eraseSize recorded.driver
  capacity recorded := NorDriver.capacity recorded.driver
  read recorded offset buffer := recorded.note (.read offset buffer)
  write recorded offset data :=
    let (reply, after) := recorded.note (.write offset data)
    (reply.result, after)
  erase recorded start stop :=
    let (reply, after) := recorded.note (.erase start stop)
    (reply.result, after)

theorem answer_eq_note (recorded : RecordedDriver δ) (call : DriverCall) :
    NorDriver.answer recorded call = recorded.note call := by
  cases call <;> rfl

end RecordedDriver

namespace NorChip

variable {δ : Type} [NorDriver δ]

/-- The chip with a recorder put in front of its driver. -/
def recorded (chip : NorChip δ) (noted : List DriverCall) :
    NorChip (RecordedDriver δ) :=
  ⟨⟨chip.driver, noted⟩⟩

theorem ask_recorded (chip : NorChip δ) (noted : List DriverCall)
    (access : Access) (call : DriverCall) :
    (chip.recorded noted).ask access call =
      ((chip.ask access call).1,
        (chip.ask access call).2.recorded (noted ++ [call])) := by
  unfold ask
  rw [RecordedDriver.answer_eq_note]
  rfl

theorem perform_recorded_of_spells (chip : NorChip δ)
    (noted : List DriverCall) {access : Access} {call : DriverCall}
    (hspells : call.Spells access) :
    Chip.perform (chip.recorded noted) access =
      ((Chip.perform chip access).1,
        (Chip.perform chip access).2.recorded (noted ++ [call])) := by
  rw [perform_of_spells _ hspells, perform_of_spells _ hspells, ask_recorded]

theorem perform_recorded_of_not_tellable (chip : NorChip δ)
    (noted : List DriverCall) {access : Access} (htold : ¬ access.Tellable) :
    Chip.perform (chip.recorded noted) access =
      ((Chip.perform chip access).1,
        (Chip.perform chip access).2.recorded noted) := by
  rw [perform_of_not_tellable _ htold, perform_of_not_tellable _ htold]

/-- The chip after a run of accesses. -/
def after (chip : NorChip δ) (accesses : List Access) : NorChip δ :=
  accesses.foldl (fun now access => (Chip.perform now access).2) chip

theorem after_cons (chip : NorChip δ) (access : Access)
    (rest : List Access) :
    chip.after (access :: rest) = (Chip.perform chip access).2.after rest := rfl

/-- The calls that a run adds spell, one by one and in order, the accesses of the run
that can be told. -/
theorem after_recorded (chip : NorChip δ) (noted : List DriverCall)
    (accesses : List Access) :
    ∃ calls,
      (chip.recorded noted).after accesses =
        (chip.after accesses).recorded (noted ++ calls) ∧
      List.Forall₂ DriverCall.Spells calls
        (accesses.filter (fun access => access.Tellable)) := by
  induction accesses generalizing chip noted with
  | nil =>
      refine ⟨[], ?_, .nil⟩
      rw [List.append_nil]
      rfl
  | cons access rest ih =>
      by_cases htellable : access.Tellable
      · obtain ⟨call, hspells⟩ := htellable.exists_spells
        obtain ⟨calls, hafter, hcalls⟩ :=
          ih (Chip.perform chip access).2 (noted ++ [call])
        refine ⟨call :: calls, ?_, ?_⟩
        · rw [after_cons, perform_recorded_of_spells chip noted hspells, hafter,
            List.append_assoc]
          rfl
        · rw [List.filter_cons_of_pos (by simpa using htellable)]
          exact .cons hspells hcalls
      · obtain ⟨calls, hafter, hcalls⟩ := ih (Chip.perform chip access).2 noted
        refine ⟨calls, ?_, ?_⟩
        · rw [after_cons, perform_recorded_of_not_tellable chip noted htellable,
            hafter]
          rfl
        · rw [List.filter_cons_of_neg (by simpa using htellable)]
          exact hcalls

end NorChip

/-! ## A driver over plain cells -/

namespace NorMemory

variable {driver : NorMemory} {call : DriverCall} {access : Access}
  {error : NorError}

/-- What the driver finds out about a call before it touches a cell. -/
def verdict (driver : NorMemory) : DriverCall → Except NorError Unit
  | .read offset buffer =>
      driver.accept readUnit offset.toNat (offset.toNat + buffer.length)
  | .write offset data =>
      driver.accept writeUnit offset.toNat (offset.toNat + data.length)
  | .erase start stop => driver.accept eraseUnit start.toNat stop.toNat

theorem answer_of_refused (hrefused : driver.verdict call = .error error) :
    NorDriver.answer driver call = (⟨.error error, call.buffer⟩, driver) := by
  cases call with
  | read offset buffer =>
      simp only [verdict] at hrefused
      simp only [NorDriver.answer, NorDriver.read, read, hrefused]
      rfl
  | write offset data =>
      simp only [verdict] at hrefused
      simp only [NorDriver.answer, NorDriver.write, write, hrefused]
      rfl
  | erase start stop =>
      simp only [verdict] at hrefused
      simp only [NorDriver.answer, NorDriver.erase, erase, hrefused]
      rfl

/-- A call that passes does to the cells what its access asks for. -/
theorem answer_of_accepted (haccepted : driver.verdict call = .ok ())
    (hspells : call.Spells access) :
    NorDriver.answer driver call =
      (⟨.ok (), driver.memory.shown access.start.toNat access⟩,
        { driver with
          memory := driver.memory.after access.start.toNat access }) := by
  cases hspells with
  | read buffer hoffset =>
      simp only [verdict, hoffset] at haccepted
      simp only [NorDriver.answer, NorDriver.read, read, haccepted, hoffset]
      rfl
  | write data hoffset =>
      simp only [verdict, hoffset] at haccepted
      simp only [NorDriver.answer, NorDriver.write, write, haccepted, hoffset]
      rfl
  | erase hstart hstop =>
      simp only [verdict, hstart, hstop] at haccepted
      simp only [NorDriver.answer, NorDriver.erase, erase, haccepted, hstart,
        hstop, Nat.add_sub_cancel_left]
      rfl

theorem verdict_of_broken (hbroken : driver.broken = true)
    (call : DriverCall) : driver.verdict call = .error .other := by
  cases call <;> simp only [verdict, accept, hbroken, if_true]

end NorMemory

namespace NorChip

section

variable {chip : NorChip NorMemory} {access : Access} {fault : ChipFault}

/-- A refused access leaves the cells and the caller's buffer as they were. -/
theorem perform_of_refused
    (hrefused : (Chip.perform chip access).1.result = .error fault) :
    Chip.perform chip access = (⟨.error fault, access.buffer⟩, chip) := by
  by_cases htellable : access.Tellable
  · obtain ⟨call, hspells⟩ := htellable.exists_spells
    rw [perform_of_spells chip hspells] at hrefused ⊢
    cases hverdict : chip.driver.verdict call with
    | error error =>
        have hanswer := NorMemory.answer_of_refused hverdict
        simp only [ask, hanswer, hspells.buffer_eq] at hrefused ⊢
        rw [hrefused]
    | ok done =>
        have hanswer := NorMemory.answer_of_accepted hverdict hspells
        simp only [ask, hanswer, inFull] at hrefused
        cases hrefused
  · rw [perform_of_not_tellable chip htellable] at hrefused ⊢
    cases hrefused
    rfl

theorem perform_of_broken (hbroken : chip.driver.broken = true)
    (access : Access) :
    (Chip.perform chip access).1.result =
      if access.Tellable then .error .generic else .error .outOfBounds := by
  by_cases htellable : access.Tellable
  · obtain ⟨call, hspells⟩ := htellable.exists_spells
    have hanswer :=
      NorMemory.answer_of_refused (NorMemory.verdict_of_broken hbroken call)
    rw [perform_of_spells chip hspells, if_pos htellable]
    simp only [ask, hanswer]
    rfl
  · rw [perform_of_not_tellable chip htellable, if_neg htellable]

end

variable {δ : Type} [NorDriver δ]

/-- A chip asks its driver at most once for an access.  The call spells the exact ends of
the range, and the driver's answer is the chip's: what it accepted counts in full, and
each kind of error has its code.  Where there is no such call, the access is out of
bounds, and neither the driver nor the buffer is touched.  So the calls of a whole run
are those of its accesses that can be told, in their order.  Over plain cells every
refusal leaves the cells and the buffer as they were, and a broken driver refuses
everything.  The driver is watched by a recorder, which changes no reply and nothing
behind it. -/
theorem driver_told_exact_ranges (chip : NorChip δ)
    (noted : List DriverCall) :
    (∀ access : Access, ∃ calls,
      Chip.perform (chip.recorded noted) access =
          ((Chip.perform chip access).1,
            (Chip.perform chip access).2.recorded (noted ++ calls)) ∧
        ((calls = [] ∧ ¬ access.Tellable ∧
            (∀ call : DriverCall, ¬ call.Spells access) ∧
            Chip.perform chip access =
              (⟨.error ⟨-3⟩, access.buffer⟩, chip)) ∨
          ∃ (call : DriverCall) (answer : Reply (Except NorError Unit))
              (driver : δ),
            calls = [call] ∧ call.Spells access ∧
            NorDriver.answer chip.driver call = (answer, driver) ∧
            Chip.perform chip access =
              (⟨match answer.result with
                | .ok _ => .ok access.length
                | .error .notAligned => .error ⟨-2⟩
                | .error .outOfBounds => .error ⟨-3⟩
                | .error .other => .error ⟨-1⟩, answer.buffer⟩, ⟨driver⟩))) ∧
      (∀ accesses : List Access, ∃ calls,
        (chip.recorded noted).after accesses =
            (chip.after accesses).recorded (noted ++ calls) ∧
          List.Forall₂ DriverCall.Spells calls
            (accesses.filter (fun access => access.Tellable))) ∧
      ∀ (cells : NorChip NorMemory) (access : Access),
        (∀ fault, (Chip.perform cells access).1.result = .error fault →
          Chip.perform cells access =
            (⟨.error fault, access.buffer⟩, cells)) ∧
        (cells.driver.broken = true →
          (Chip.perform cells access).1.result =
            if access.Tellable then .error ⟨-1⟩ else .error ⟨-3⟩) := by
  refine ⟨?_, chip.after_recorded noted, ?_⟩
  · intro access
    by_cases htellable : access.Tellable
    · obtain ⟨call, hspells⟩ := htellable.exists_spells
      obtain ⟨answer, driver, hanswer⟩ : ∃ answer driver,
          NorDriver.answer chip.driver call = (answer, driver) := ⟨_, _, rfl⟩
      refine ⟨[call], perform_recorded_of_spells chip noted hspells,
        .inr ⟨call, answer, driver, rfl, hspells, hanswer, ?_⟩⟩
      rw [perform_of_spells chip hspells]
      simp only [ask, hanswer]
      cases answer.result with
      | ok done => rfl
      | error kind => cases kind <;> rfl
    · refine ⟨[], ?_, .inl ⟨rfl, htellable, ?_, ?_⟩⟩
      · rw [List.append_nil]
        exact perform_recorded_of_not_tellable chip noted htellable
      · exact fun call hspells => htellable hspells.tellable
      · exact perform_of_not_tellable chip htellable
  · intro cells access
    exact ⟨fun fault => perform_of_refused,
      fun hbroken => perform_of_broken hbroken access⟩

/-- A broken driver is still told where to erase.  It is not told of the last block below
the end of its words, whose own end is no word any more. -/
theorem driver_told_exact_ranges_broken :
    let chip : NorChip NorMemory := ⟨NorMemory.ofSize 64 true⟩
    (Chip.perform (chip.recorded []) (.erase 16 16)).2.driver.calls =
        [.erase 16 32] ∧
      Chip.perform chip (.erase 16 16) = (⟨.error ⟨-1⟩, []⟩, chip) ∧
      Chip.perform chip (.erase 4294967280 16) =
        (⟨.error ⟨-3⟩, []⟩, chip) := by
  intro chip
  obtain ⟨haccess, _, hcells⟩ := driver_told_exact_ranges chip []
  obtain ⟨hrefused, hbroken⟩ := hcells chip (.erase 16 16)
  refine ⟨?_, hrefused _ (hbroken rfl), (hcells chip _).1 _ rfl⟩
  obtain ⟨calls, hperform, hcalls⟩ := haccess (.erase 16 16)
  rw [hperform]
  rcases hcalls with ⟨_, hnot, _, _⟩ | ⟨call, _, _, rfl, hspells, _⟩
  · exact absurd (by decide) hnot
  · cases hspells with
    | @erase start stop _ _ hstart hstop =>
        obtain rfl : start = 16 := UInt32.toNat_inj.mp hstart
        obtain rfl : stop = 32 := UInt32.toNat_inj.mp hstop
        rfl

end NorChip

end FlashStorage
