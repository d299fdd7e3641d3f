import FlashStorage.Binding.Session
import FlashStorage.Proofs.Adapter.Routing

/-!
# The life of a binding

A binding is made once and then serves its owner in sessions, which are opened,
used and closed in any order.  None of this changes the table, the device or
whether the chip is up.  What was found when the binding was made therefore holds
for as long as it lives, and a database finds the same partition at every opening.
-/

namespace FlashStorage

namespace Binding

variable {χ κ : Type} {binding now : Binding χ κ} {database : Database}
  {session : Session}

/-! ## Finding partitions -/

theorem partition?_eq_some {partition : Partition}
    (hfound : binding.partition? database = some partition) :
    partition ∈ binding.table.partitions ∧
      partition.device = binding.adapter.device.name ∧
      partition.database = database := by
  have hboth := List.find?_some hfound
  rw [Bool.and_eq_true, beq_iff_eq, beq_iff_eq] at hboth
  exact ⟨List.mem_of_find?_eq_some hfound, hboth⟩

theorem partition?_eq_none_iff :
    binding.partition? database = none ↔
      ∀ partition ∈ binding.table.partitions,
        partition.device = binding.adapter.device.name →
          partition.database ≠ database := by
  simp [partition?]

/-! ## What never changes -/

/-- What stays as it is for as long as a binding lives. -/
structure Continues (binding now : Binding χ κ) : Prop where
  table_eq : now.table = binding.table
  device_eq : now.adapter.device = binding.adapter.device
  initialized_eq : now.adapter.initialized = binding.adapter.initialized

theorem continues_refl (binding : Binding χ κ) : Continues binding binding :=
  ⟨rfl, rfl, rfl⟩

theorem Continues.partition?_eq (hnow : Continues binding now)
    (database : Database) :
    now.partition? database = binding.partition? database := by
  unfold partition?
  rw [hnow.table_eq, hnow.device_eq]

/-! ## Opening sessions -/

section

variable [LockHook κ]

theorem openSession_of_none (hnone : binding.partition? database = none) :
    binding.openSession database =
      (.error (.partitionMissing database), binding) := by
  unfold openSession
  rw [hnone]

theorem openSession_of_some {partition : Partition} {taken : κ}
    (hfound : binding.partition? database = some partition)
    (hfree : LockHook.acquire? (binding.locks.get database) = some taken) :
    binding.openSession database =
      (.ok ⟨partition⟩,
        { binding with locks := binding.locks.set database taken }) := by
  unfold openSession
  rw [hfound]
  simp only [hfree]

theorem openSession_of_held {partition : Partition}
    (hfound : binding.partition? database = some partition)
    (hheld : LockHook.acquire? (binding.locks.get database) = none) :
    binding.openSession database = (.halt .lockHeld, binding) := by
  unfold openSession
  rw [hfound]
  simp only [hheld]

theorem partition?_of_openSession
    (hopen : (binding.openSession database).1 = .ok session) :
    binding.partition? database = some session.partition := by
  unfold openSession at hopen
  split at hopen
  · cases hopen
  · rename_i partition hfound
    split at hopen
    · cases hopen
    · cases hopen
      exact hfound

theorem continues_openSession (hnow : Continues binding now)
    (database : Database) :
    Continues binding (now.openSession database).2 := by
  unfold openSession
  split
  · exact hnow
  · split
    · exact hnow
    · exact ⟨hnow.table_eq, hnow.device_eq, hnow.initialized_eq⟩

end

end Binding

/-! ## Working in sessions -/

section

variable {χ : Type} [Chip χ]

theorem Session.perform_adapter (session : Session) (adapter : Adapter χ)
    (access : Access) :
    ∃ chip,
      (session.perform adapter access).2 = { adapter with chip := chip } := by
  unfold Session.perform
  split
  · exact ⟨_, rfl⟩
  · split
    · exact ⟨_, rfl⟩
    · exact Adapter.perform_adapter _ _

theorem Session.device_perform (session : Session) (adapter : Adapter χ)
    (access : Access) :
    (session.perform adapter access).2.device = adapter.device := by
  obtain ⟨chip, hadapter⟩ := session.perform_adapter adapter access
  rw [hadapter]

theorem Session.initialized_perform (session : Session) (adapter : Adapter χ)
    (access : Access) :
    (session.perform adapter access).2.initialized = adapter.initialized := by
  obtain ⟨chip, hadapter⟩ := session.perform_adapter adapter access
  rw [hadapter]

namespace Binding

variable {κ : Type} {binding now : Binding χ κ}

theorem continues_perform (hnow : Continues binding now) (session : Session)
    (access : Access) : Continues binding (now.perform session access).2 where
  table_eq := hnow.table_eq
  device_eq := (session.device_perform now.adapter access).trans hnow.device_eq
  initialized_eq :=
    (session.initialized_perform now.adapter access).trans hnow.initialized_eq

end Binding

end

namespace Binding

/-! ## What its owner asks of a binding -/

inductive Request where
  | openSession (database : Database)
  | access (session : Session) (access : Access)
  | closeSession (session : Session)

variable {χ κ : Type} [Chip χ] [LockHook κ] {binding now : Binding χ κ}
  {database : Database} {session : Session}

def handle (binding : Binding χ κ) : Request → Binding χ κ
  | .openSession database => (binding.openSession database).2
  | .access session access => (binding.perform session access).2
  | .closeSession session => binding.closeSession session

/-- The binding after some requests, the first of them handled first. -/
def after (binding : Binding χ κ) (requests : List Request) : Binding χ κ :=
  requests.foldl handle binding

theorem continues_handle (hnow : Continues binding now) (request : Request) :
    Continues binding (now.handle request) := by
  cases request with
  | openSession database => exact continues_openSession hnow database
  | access session access => exact continues_perform hnow session access
  | closeSession session =>
      exact ⟨hnow.table_eq, hnow.device_eq, hnow.initialized_eq⟩

theorem continues_after (hnow : Continues binding now)
    (requests : List Request) : Continues binding (now.after requests) := by
  induction requests generalizing now with
  | nil => exact hnow
  | cons request rest ih => exact ih (continues_handle hnow request)

/-- Whether a session was opened for a database at some time in the life of a
binding. -/
def Opens (binding : Binding χ κ) (database : Database) (session : Session) :
    Prop :=
  ∃ requests,
    ((binding.after requests).openSession database).1 = .ok session

theorem Opens.partition?_eq (hopens : binding.Opens database session) :
    binding.partition? database = some session.partition := by
  obtain ⟨requests, hopen⟩ := hopens
  have hnow := continues_after (continues_refl binding) requests
  rw [← hnow.partition?_eq]
  exact partition?_of_openSession hopen

end Binding

end FlashStorage
