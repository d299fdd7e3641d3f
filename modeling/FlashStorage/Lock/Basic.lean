/-!
# Locks

Each database is guarded by a lock hook of its own.  Taking a hook that is held
would block for as long as it stays held, so for one that is held there is no
next state; giving a hook back is always possible.  A tally in front of a hook
counts how often it is taken and given back, and passes everything on.
-/

namespace FlashStorage

class LockHook (κ : Type) where
  /-- The hook once it is taken; none while it is held. -/
  acquire? : κ → Option κ
  release : κ → κ

/-- A flag that is set while the lock is held. -/
structure SpinLock where
  held : Bool
deriving DecidableEq, Repr

namespace SpinLock

def free : SpinLock := ⟨false⟩

/-- Set the flag if it is clear, and tell whether it was. -/
def tryLock (lock : SpinLock) : Bool × SpinLock := (!lock.held, ⟨true⟩)

def unlock (_ : SpinLock) : SpinLock := ⟨false⟩

def acquire? (lock : SpinLock) : Option SpinLock :=
  match lock.tryLock with
  | (true, taken) => some taken
  | (false, _) => none

instance : LockHook SpinLock := ⟨acquire?, unlock⟩

end SpinLock

/-- A hook behind a tally. -/
structure Tallied (κ : Type) where
  hook : κ
  /-- How often the hook was taken. -/
  taken : Nat
  /-- How often the hook was given back. -/
  released : Nat
deriving DecidableEq, Repr

namespace Tallied

variable {κ : Type}

def ofHook (hook : κ) : Tallied κ := ⟨hook, 0, 0⟩

def held (tallied : Tallied SpinLock) : Bool := tallied.hook.held

instance [LockHook κ] : LockHook (Tallied κ) where
  acquire? tallied :=
    (LockHook.acquire? tallied.hook).map (fun hook =>
      { tallied with hook := hook, taken := tallied.taken + 1 })
  release tallied :=
    { tallied with
      hook := LockHook.release tallied.hook
      released := tallied.released + 1 }

end Tallied

end FlashStorage
