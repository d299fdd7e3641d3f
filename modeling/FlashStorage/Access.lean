/-!
# Accesses

Reading, programming and erasing a range are the three accesses to flash.  The
same three exist at every level: inside a partition, inside a device, and on the
chip.  Between levels only the start of the range is moved.
-/

namespace FlashStorage

inductive Access where
  /-- Fill the buffer from a range of its length. -/
  | read (start : UInt64) (buffer : List UInt8)
  | write (start : UInt64) (data : List UInt8)
  | erase (start length : UInt64)
deriving DecidableEq, Repr

namespace Access

def start : Access → UInt64
  | .read start _ => start
  | .write start _ => start
  | .erase start _ => start

def length : Access → Nat
  | .read _ buffer => buffer.length
  | .write _ data => data.length
  | .erase _ length => length.toNat

/-- The buffer that an access may fill. -/
def buffer : Access → List UInt8
  | .read _ buffer => buffer
  | .write _ _ => []
  | .erase _ _ => []

/-- The same access at another start. -/
def moveTo (start : UInt64) : Access → Access
  | .read _ buffer => .read start buffer
  | .write _ data => .write start data
  | .erase _ length => .erase start length

@[simp] theorem start_moveTo (start : UInt64) (access : Access) :
    (access.moveTo start).start = start := by
  cases access <;> rfl

@[simp] theorem length_moveTo (start : UInt64) (access : Access) :
    (access.moveTo start).length = access.length := by
  cases access <;> rfl

@[simp] theorem buffer_moveTo (start : UInt64) (access : Access) :
    (access.moveTo start).buffer = access.buffer := by
  cases access <;> rfl

@[simp] theorem moveTo_moveTo (start start' : UInt64) (access : Access) :
    (access.moveTo start).moveTo start' = access.moveTo start' := by
  cases access <;> rfl

end Access

end FlashStorage
