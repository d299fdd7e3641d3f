import FlashStorage.Binding.Basic
import FlashStorage.Word

/-!
# Sessions

A database works on its partition in sessions.  A session holds the lock hook of
its database from its opening to its closing, and confines every access to the
partition: starts count from the partition's first byte, and a range that leaves
the partition is refused before the adapter sees it.
-/

namespace FlashStorage

/-- Exclusive use of one partition. -/
structure Session where
  partition : Partition
deriving DecidableEq, Repr

/-- Carry out an access whose start counts from the partition's first byte. -/
def Session.perform {χ : Type} [Chip χ] (session : Session)
    (adapter : Adapter χ) (access : Access) :
    Reply (Outcome DeviceError Unit) × Adapter χ :=
  if session.partition.length.toNat < access.start.toNat + access.length then
    (⟨.error .outOfRange, access.buffer⟩, adapter)
  else
    match Word.add? session.partition.offset access.start with
    | none => (⟨.halt .addOverflow, access.buffer⟩, adapter)
    | some offset => adapter.perform (access.moveTo offset)

namespace Binding

variable {χ κ : Type}

/-- Open a session for a database.  Without a partition the hook is not asked;
with one, it must be free. -/
def openSession [LockHook κ] (binding : Binding χ κ) (database : Database) :
    Outcome BindingError Session × Binding χ κ :=
  match binding.partition? database with
  | none => (.error (.partitionMissing database), binding)
  | some partition =>
      match LockHook.acquire? (binding.locks.get database) with
      | none => (.halt .lockHeld, binding)
      | some lock =>
          (.ok ⟨partition⟩,
            { binding with locks := binding.locks.set database lock })

/-- End a session and give its hook back. -/
def closeSession [LockHook κ] (binding : Binding χ κ) (session : Session) :
    Binding χ κ :=
  let database := session.partition.database
  { binding with
    locks := binding.locks.set database
      (LockHook.release (binding.locks.get database)) }

/-- Carry out an access in a session. -/
def perform [Chip χ] (binding : Binding χ κ) (session : Session)
    (access : Access) : Reply (Outcome DeviceError Unit) × Binding χ κ :=
  let (reply, adapter) := session.perform binding.adapter access
  (reply, { binding with adapter := adapter })

end Binding

end FlashStorage
