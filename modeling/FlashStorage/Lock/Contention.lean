import FlashStorage.Lock.Basic

/-!
# Threads on one lock

Several threads share a spin lock and a counter.  In each of its rounds a thread
takes the lock, reads the counter, writes back one more than it read, and gives
the lock back.  Threads are interleaved in single atomic steps.  An attempt to
take the lock may fail although the lock is free; after a failed attempt a thread
watches the flag until it sees it clear, and tries again.
-/

namespace FlashStorage

/-- Where a thread stands in its current round. -/
inductive Stage where
  /-- About to attempt the lock. -/
  | attempting
  /-- Watching the flag after a failed attempt. -/
  | watching
  /-- Holds the lock, about to read the counter. -/
  | reading
  /-- Holds the lock, about to write back one more than it read. -/
  | writing (seen : Nat)
  /-- Holds the lock, about to give it back. -/
  | releasing
deriving DecidableEq, Repr

/-- Between taking the lock and giving it back. -/
def Stage.isInside : Stage → Bool
  | .attempting | .watching => false
  | .reading | .writing _ | .releasing => true

/-- A thread and the rounds it has not finished. -/
structure Thread where
  rounds : Nat
  stage : Stage
deriving DecidableEq, Repr

structure Contention where
  lock : SpinLock
  counter : Nat
  threads : List Thread
deriving DecidableEq, Repr

namespace Contention

/-- All threads before their first attempt. -/
def start (lock : SpinLock) (threads rounds : Nat) : Contention :=
  ⟨lock, 0, List.replicate threads ⟨rounds, .attempting⟩⟩

/-- One atomic step of a thread that has rounds left.  If `spurious` is set, an
attempt on a free lock fails. -/
def advance (spurious : Bool) (lock : SpinLock) (counter : Nat)
    (thread : Thread) : SpinLock × Nat × Thread :=
  match thread.stage with
  | .attempting =>
      if spurious then (lock, counter, { thread with stage := .watching })
      else
        match lock.tryLock with
        | (true, lock) => (lock, counter, { thread with stage := .reading })
        | (false, lock) => (lock, counter, { thread with stage := .watching })
  | .watching =>
      if lock.held then (lock, counter, thread)
      else (lock, counter, { thread with stage := .attempting })
  | .reading => (lock, counter, { thread with stage := .writing counter })
  | .writing seen => (lock, seen + 1, { thread with stage := .releasing })
  | .releasing => (lock.unlock, counter, ⟨thread.rounds - 1, .attempting⟩)

/-- Let the thread of an index take a step; a finished thread takes none. -/
def step (contention : Contention) (index : Nat) (spurious : Bool) :
    Contention :=
  match contention.threads[index]? with
  | none => contention
  | some thread =>
      if thread.rounds = 0 then contention
      else
        let (lock, counter, thread) :=
          advance spurious contention.lock contention.counter thread
        ⟨lock, counter, contention.threads.set index thread⟩

/-- Steps of the given threads, in this order. -/
def run (contention : Contention) (schedule : List (Nat × Bool)) :
    Contention :=
  schedule.foldl (fun contention (index, spurious) =>
    contention.step index spurious) contention

/-- Someone outside gives the lock back. -/
def unlock (contention : Contention) : Contention :=
  { contention with lock := contention.lock.unlock }

/-- Every thread takes a step. -/
def sweep (threads : Nat) : List (Nat × Bool) :=
  (List.range threads).map (fun index => (index, false))

/-- One thread after the other takes the steps that all its rounds need, and one
more to see that the lock is free. -/
def inTurn (threads rounds : Nat) : List (Nat × Bool) :=
  (List.range threads).flatMap (fun index =>
    List.replicate (4 * rounds + 1) (index, false))

/-- Threads that start while the lock is held, wait until it is given back and
then run to their ends. -/
def released (threads rounds : Nat) : Contention :=
  let waiting := (start ⟨true⟩ threads rounds).run (sweep threads)
  waiting.unlock.run (inTurn threads rounds)

end Contention

end FlashStorage
