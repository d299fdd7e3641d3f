import FlashStorage.Chip.Basic

/-!
# Recorded chips

A chip behind a recorder.  The recorder notes every call with its answer, and a
script can answer accesses in the chip's place, with any count or fault and
without touching the cells or the caller's buffer.
-/

namespace FlashStorage

/-- A call that reached a chip, and what was answered. -/
inductive ChipCall where
  | init (up : Bool)
  | access (access : Access) (result : ChipResult)

/-- How an access is to be answered. -/
inductive ScriptItem where
  /-- By the chip. -/
  | pass
  | count (bytes : Nat)
  | fault (fault : ChipFault)
deriving DecidableEq, Repr

structure Recorded (χ : Type) where
  chip : χ
  /-- The answers for the next accesses; behind its end the chip answers. -/
  script : List ScriptItem
  /-- Every call so far, the first in front. -/
  calls : List ChipCall

namespace Recorded

variable {χ : Type}

def ofChip (chip : χ) : Recorded χ := ⟨chip, [], []⟩

/-- Add answers behind those already scripted. -/
def enqueue (recorded : Recorded χ) (items : List ScriptItem) : Recorded χ :=
  { recorded with script := recorded.script ++ items }

variable [Chip χ]

/-- Note the call and bring the chip up. -/
def init (recorded : Recorded χ) : Bool × Recorded χ :=
  let (up, chip) := Chip.init recorded.chip
  (up, { recorded with chip := chip, calls := recorded.calls ++ [.init up] })

/-- The answer to an access, scripted or the chip's own. -/
def answer (recorded : Recorded χ) (access : Access) : Reply ChipResult × χ :=
  match recorded.script.head?.getD .pass with
  | .pass => Chip.perform recorded.chip access
  | .count bytes => (⟨.ok bytes, access.buffer⟩, recorded.chip)
  | .fault fault => (⟨.error fault, access.buffer⟩, recorded.chip)

/-- Answer an access and note it. -/
def perform (recorded : Recorded χ) (access : Access) :
    Reply ChipResult × Recorded χ :=
  let (reply, chip) := recorded.answer access
  (reply,
    { chip := chip
      script := recorded.script.tail
      calls := recorded.calls ++ [.access access reply.result] })

instance : Chip (Recorded χ) where
  init := init
  read recorded address buffer := recorded.perform (.read address buffer)
  write recorded address data :=
    let (reply, after) := recorded.perform (.write address data)
    (reply.result, after)
  erase recorded address length :=
    let (reply, after) := recorded.perform (.erase address length)
    (reply.result, after)

end Recorded

end FlashStorage
