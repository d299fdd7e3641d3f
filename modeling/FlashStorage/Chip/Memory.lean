/-!
# Flash cells

The cells of a flash chip.  Programming can only clear bits: a byte becomes the
bitwise AND of what it was and what is written.  Erasing sets every bit.
-/

namespace FlashStorage

/-- What every byte reads after it was erased. -/
def erasedByte : UInt8 := 0xFF

structure Memory where
  cells : Array UInt8
deriving DecidableEq

namespace Memory

/-- Erased cells. -/
def erased (size : Nat) : Memory := ⟨Array.replicate size erasedByte⟩

def size (memory : Memory) : Nat := memory.cells.size

/-- The byte at an index; behind the last cell everything reads as erased. -/
def byte (memory : Memory) (index : Nat) : UInt8 :=
  memory.cells[index]?.getD erasedByte

def read (memory : Memory) (start length : Nat) : List UInt8 :=
  (memory.cells.extract start (start + length)).toList

/-- Clear the bits of the cells from `start` on that are clear in the data. -/
def programCells (cells : Array UInt8) (start : Nat) :
    List UInt8 → Array UInt8
  | [] => cells
  | byte :: rest =>
      programCells (cells.modify start (fun cell => cell &&& byte)) (start + 1)
        rest

def program (memory : Memory) (start : Nat) (data : List UInt8) : Memory :=
  ⟨programCells memory.cells start data⟩

/-- Set all bits of the `length` cells from `start` on. -/
def eraseCells (cells : Array UInt8) (start : Nat) : Nat → Array UInt8
  | 0 => cells
  | length + 1 =>
      eraseCells (cells.setIfInBounds start erasedByte) (start + 1) length

def erase (memory : Memory) (start length : Nat) : Memory :=
  ⟨eraseCells memory.cells start length⟩

/-- Put a byte in front of the runs that start behind its index. -/
def extendRuns (index : Nat) (byte : UInt8) :
    List (Nat × List UInt8) → List (Nat × List UInt8)
  | [] => [(index, [byte])]
  | (start, bytes) :: rest =>
      if start = index + 1 then (index, byte :: bytes) :: rest
      else (index, [byte]) :: (start, bytes) :: rest

/-- The runs among the first cells, in front of runs already found. -/
def runsBelow (memory : Memory) :
    Nat → List (Nat × List UInt8) → List (Nat × List UInt8)
  | 0, found => found
  | index + 1, found =>
      let byte := memory.byte index
      memory.runsBelow index
        (if byte = erasedByte then found else extendRuns index byte found)

/-- The longest stretches of bytes that are not in the erased state, each with
the index of its first byte. -/
def runs (memory : Memory) : List (Nat × List UInt8) :=
  memory.runsBelow memory.size []

@[simp] theorem size_erased (size : Nat) : (erased size).size = size := by
  simp [erased, Memory.size]

@[simp] theorem size_programCells (cells : Array UInt8) (start : Nat)
    (data : List UInt8) : (programCells cells start data).size = cells.size := by
  induction data generalizing cells start with
  | nil => rfl
  | cons byte rest ih => simp [programCells, ih]

@[simp] theorem size_program (memory : Memory) (start : Nat)
    (data : List UInt8) : (memory.program start data).size = memory.size :=
  size_programCells _ _ _

@[simp] theorem size_eraseCells (cells : Array UInt8) (start length : Nat) :
    (eraseCells cells start length).size = cells.size := by
  induction length generalizing cells start with
  | zero => rfl
  | succ length ih => simp [eraseCells, ih]

@[simp] theorem size_erase (memory : Memory) (start length : Nat) :
    (memory.erase start length).size = memory.size :=
  size_eraseCells _ _ _

theorem byte_programCells_of_not_mem (cells : Array UInt8) (start : Nat)
    (data : List UInt8) {index : Nat}
    (houtside : index < start ∨ start + data.length ≤ index) :
    (programCells cells start data)[index]? = cells[index]? := by
  induction data generalizing cells start with
  | nil => rfl
  | cons byte rest ih =>
      rw [List.length_cons] at houtside
      rw [programCells, ih _ _ (by omega), Array.getElem?_modify,
        if_neg (by omega)]

/-- Programming leaves the bytes outside its range alone. -/
theorem byte_program_of_not_mem (memory : Memory) (start : Nat)
    (data : List UInt8) {index : Nat}
    (houtside : index < start ∨ start + data.length ≤ index) :
    (memory.program start data).byte index = memory.byte index := by
  simp only [byte, program]
  rw [byte_programCells_of_not_mem _ _ _ houtside]

theorem byte_programCells_of_mem (cells : Array UInt8) (start : Nat)
    (data : List UInt8) {offset : Nat} (hoffset : offset < data.length) :
    (programCells cells start data)[start + offset]? =
      cells[start + offset]?.map (fun cell => cell &&& data[offset]) := by
  induction data generalizing cells start offset with
  | nil => simp at hoffset
  | cons byte rest ih =>
      cases offset with
      | zero =>
          rw [programCells,
            byte_programCells_of_not_mem _ _ _ (Or.inl (by omega)),
            Nat.add_zero, Array.getElem?_modify, if_pos rfl,
            List.getElem_cons_zero]
      | succ offset =>
          have hrest : offset < rest.length := by
            rw [List.length_cons] at hoffset
            omega
          have hstep := ih (cells.modify start (fun cell => cell &&& byte))
            (start + 1) hrest
          rw [show start + 1 + offset = start + (offset + 1) by omega] at hstep
          rw [programCells, hstep, Array.getElem?_modify, if_neg (by omega),
            List.getElem_cons_succ]

/-- Programming clears exactly the bits that are clear in the data. -/
theorem byte_program_of_mem (memory : Memory) (start : Nat) (data : List UInt8)
    {offset : Nat} (hoffset : offset < data.length)
    (hsize : start + offset < memory.size) :
    (memory.program start data).byte (start + offset) =
      memory.byte (start + offset) &&& data[offset] := by
  simp only [byte, program]
  rw [byte_programCells_of_mem _ _ _ hoffset,
    Array.getElem?_eq_getElem (show start + offset < memory.cells.size from hsize)]
  rfl

theorem byte_eraseCells (cells : Array UInt8) (start length index : Nat) :
    (eraseCells cells start length)[index]?.getD erasedByte =
      if start ≤ index ∧ index < start + length then erasedByte
      else cells[index]?.getD erasedByte := by
  induction length generalizing cells start with
  | zero => rw [eraseCells, if_neg (by omega)]
  | succ length ih =>
      rw [eraseCells, ih]
      by_cases hfirst : index = start
      · subst hfirst
        rw [if_neg (by omega), if_pos (by omega),
          Array.getElem?_setIfInBounds_self]
        split <;> rfl
      · by_cases hrange : start ≤ index ∧ index < start + (length + 1)
        · rw [if_pos (by omega), if_pos hrange]
        · rw [if_neg (by omega), if_neg hrange,
            Array.getElem?_setIfInBounds_ne (by omega)]

/-- Erasing sets the bytes of its range and leaves the others alone. -/
theorem byte_erase (memory : Memory) (start length index : Nat) :
    (memory.erase start length).byte index =
      if start ≤ index ∧ index < start + length then erasedByte
      else memory.byte index :=
  byte_eraseCells _ _ _ _

/-- Reading shows the bytes of its range. -/
theorem read_eq_map (memory : Memory) {start length : Nat}
    (hsize : start + length ≤ memory.size) :
    memory.read start length =
      (List.range length).map (fun offset => memory.byte (start + offset)) := by
  have hcells : start + length ≤ memory.cells.size := hsize
  apply List.ext_getElem
  · simp only [read, Array.length_toList, Array.size_extract, List.length_map,
      List.length_range]
    omega
  · intro offset hread hrange
    have hoffset : offset < length := by simpa using hrange
    have hcell : start + offset < memory.cells.size := by omega
    simp only [read, Array.getElem_toList, Array.getElem_extract,
      List.getElem_map, List.getElem_range, byte,
      Array.getElem?_eq_getElem hcell, Option.getD_some]

end Memory

end FlashStorage
