import FlashStorage.Proofs.Chip.Locality
import Mathlib.Data.List.DropRight

/-!
# What accesses leave behind

Flash remembers, for every byte, what was programmed there since it was last
erased, and shows the bitwise AND of all of it.  This is said here of a list of
accesses, without any chip.  The cells of a chip follow the list access by access:
each one leaves the same imprint on a byte in both.
-/

namespace FlashStorage

namespace Access

variable {access : Access} {offset : Nat} {byte : UInt8}

/-- The byte that an access programs at an offset, if it programs one there. -/
def stored? (offset : Nat) : Access → Option UInt8
  | .read _ _ => none
  | .write start data =>
      if start.toNat ≤ offset then data[offset - start.toNat]? else none
  | .erase _ _ => none

def erases (offset : Nat) : Access → Bool
  | .read _ _ => false
  | .write _ _ => false
  | .erase start length =>
      start.toNat ≤ offset && offset < start.toNat + length.toNat

/-- The bytes that were programmed at an offset since it was last erased, the first
of them in front. -/
def storedSinceErase (done : List Access) (offset : Nat) : List UInt8 :=
  (done.rtakeWhile (fun access => !access.erases offset)).filterMap
    (stored? offset)

/-- What flash that was erased at first shows at an offset after some accesses. -/
def contents (done : List Access) (offset : Nat) : UInt8 :=
  (storedSinceErase done offset).foldl (fun byte stored => byte &&& stored)
    erasedByte

/-- What one access makes of the byte at an offset. -/
def imprint (access : Access) (offset : Nat) (byte : UInt8) : UInt8 :=
  if access.erases offset then erasedByte
  else
    match access.stored? offset with
    | some stored => byte &&& stored
    | none => byte

@[simp] theorem contents_nil (offset : Nat) : contents [] offset = erasedByte :=
  rfl

theorem contents_concat (done : List Access) (access : Access) (offset : Nat) :
    contents (done ++ [access]) offset =
      access.imprint offset (contents done offset) := by
  unfold contents storedSinceErase imprint
  rw [List.rtakeWhile_concat]
  cases herased : access.erases offset with
  | true => simp
  | false =>
      cases hstored : access.stored? offset with
      | none => simp [hstored]
      | some stored => simp [hstored]

theorem imprint_write_of_mem {start : UInt64} {data : List UInt8}
    {position : Nat} (hposition : position < data.length) (byte : UInt8) :
    (Access.write start data).imprint (start.toNat + position) byte =
      byte &&& data[position] := by
  simp [imprint, erases, stored?, hposition]

theorem imprint_erase_of_mem {start length : UInt64}
    (hstart : start.toNat ≤ offset)
    (hend : offset < start.toNat + length.toNat) (byte : UInt8) :
    (Access.erase start length).imprint offset byte = erasedByte := by
  simp [imprint, erases, hstart, hend]

theorem imprint_of_outside
    (houtside : offset < access.start.toNat ∨
      access.start.toNat + access.length ≤ offset) (byte : UInt8) :
    access.imprint offset byte = byte := by
  cases access with
  | read start buffer => rfl
  | write start data =>
      simp only [Access.start, Access.length] at houtside
      have hstored : (Access.write start data).stored? offset = none := by
        by_cases hstart : start.toNat ≤ offset
        · have hbehind : data.length ≤ offset - start.toNat := by omega
          simp [stored?, hstart, hbehind]
        · simp [stored?, hstart]
      simp [imprint, erases, hstored]
  | erase start length =>
      simp only [Access.start, Access.length] at houtside
      have herased : (Access.erase start length).erases offset = false := by
        rw [erases, Bool.and_eq_false_iff, decide_eq_false_iff_not,
          decide_eq_false_iff_not]
        omega
      simp [imprint, herased, stored?]

end Access

/-! ## Cells follow -/

namespace Memory

variable {memory : Memory} {access : Access} {start index offset : Nat}

/-- A cell takes the imprint of an access that reaches the cells from `start` on. -/
theorem byte_after (hroom : start + access.length ≤ memory.size)
    (hindex : index + access.start.toNat = start + offset) :
    (memory.after start access).byte index =
      access.imprint offset (memory.byte index) := by
  by_cases hinside : start ≤ index ∧ index < start + access.length
  · -- The cell is as far from `start` as the offset is from the access's start.
    obtain ⟨position, rfl⟩ := Nat.exists_eq_add_of_le hinside.1
    have hoffset : offset = access.start.toNat + position := by omega
    have hposition : position < access.length := by omega
    subst hoffset
    cases access with
    | read address buffer => rfl
    | write address data =>
        rw [after, byte_program_of_mem _ _ _ hposition (by omega)]
        exact (Access.imprint_write_of_mem hposition _).symm
    | erase address length =>
        have hcell : start ≤ start + position ∧
            start + position < start + length.toNat := hinside
        rw [after, byte_erase, if_pos hcell]
        refine (Access.imprint_erase_of_mem ?_ ?_ _).symm
        · exact Nat.le_add_right _ _
        · exact Nat.add_lt_add_left hposition _
  · rw [byte_after_of_outside (by omega), Access.imprint_of_outside (by omega)]

theorem after_of_empty (hempty : access.length = 0) :
    memory.after start access = memory := by
  cases access with
  | read address buffer => rfl
  | write address data =>
      rw [List.eq_nil_of_length_eq_zero hempty]
      rfl
  | erase address length =>
      have hlength : length.toNat = 0 := hempty
      rw [after, hlength]
      rfl

theorem shown_of_empty (hempty : access.length = 0) :
    memory.shown start access = access.buffer := by
  cases access with
  | read address buffer =>
      rw [List.eq_nil_of_length_eq_zero hempty]
      simp [shown, read, Access.buffer]
  | write address data => rfl
  | erase address length => rfl

@[simp] theorem byte_erased (size index : Nat) :
    (erased size).byte index = erasedByte := by
  simp only [byte, erased, Array.getElem?_replicate]
  split <;> rfl

end Memory

end FlashStorage
