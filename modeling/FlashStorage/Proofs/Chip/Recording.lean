import FlashStorage.Chip.Recorded
import FlashStorage.Proofs.Adapter.Routing
import FlashStorage.Proofs.Binding.Lifetime

/-!
# Recorders go unnoticed

A recorder without a script passes every call on to the chip behind it.  An adapter,
and a binding over it, cannot tell whether its chip is recorded: the replies are the
same, and so is the chip behind the recorder, at every point of every run.  What a
recorder notes is therefore what an adapter asks of any chip.
-/

namespace FlashStorage

section

variable {χ : Type}

/-- The adapter with a recorder put in front of its chip. -/
def Adapter.recorded (adapter : Adapter χ) : Adapter (Recorded χ) :=
  ⟨adapter.device, Recorded.ofChip adapter.chip, adapter.initialized⟩

structure Adapter.Records (watched : Adapter (Recorded χ))
    (plain : Adapter χ) : Prop where
  device_eq : watched.device = plain.device
  initialized_eq : watched.initialized = plain.initialized
  chip_eq : watched.chip.chip = plain.chip
  unscripted : watched.chip.script = []

theorem Adapter.records_recorded (adapter : Adapter χ) :
    adapter.recorded.Records adapter :=
  ⟨rfl, rfl, rfl, rfl⟩

variable [Chip χ]

/-! ## Calls of an adapter -/

theorem Recorded.calls_init (recorded : Recorded χ) :
    (Chip.init recorded).2.calls =
      recorded.calls ++ [.init (Chip.init recorded).1] := rfl

theorem Recorded.perform_eq (recorded : Recorded χ) (access : Access) :
    Chip.perform recorded access = recorded.perform access := by
  cases access with
  | read address buffer => rfl
  | write address data =>
      have hbuffer : (recorded.answer (.write address data)).1.buffer = [] := by
        unfold Recorded.answer
        cases recorded.script.head?.getD .pass <;> rfl
      simp only [Chip.perform, Chip.write, Recorded.perform]
      rw [← hbuffer]
  | erase address length =>
      have hbuffer :
          (recorded.answer (.erase address length)).1.buffer = [] := by
        unfold Recorded.answer
        cases recorded.script.head?.getD .pass <;> rfl
      simp only [Chip.perform, Chip.erase, Recorded.perform]
      rw [← hbuffer]

/-- An access that is answered at once is not noted, one that is forwarded is noted
once. -/
theorem Adapter.calls_perform (adapter : Adapter (Recorded χ))
    (access : Access) :
    (adapter.perform access).2.chip.calls = adapter.chip.calls ∨
      ∃ address result,
        adapter.device.route adapter.initialized access =
            .forwarded address ∧
          (adapter.perform access).2.chip.calls =
            adapter.chip.calls ++
              [.access (access.moveTo address) result] := by
  rw [adapter.perform_eq_follow]
  cases hroute : adapter.device.route adapter.initialized access with
  | answered result => exact .inl rfl
  | forwarded address =>
      right
      refine ⟨address,
        (adapter.chip.answer (access.moveTo address)).1.result, rfl, ?_⟩
      simp only [Adapter.follow, Adapter.reach, Recorded.perform_eq]
      rfl

/-! ## Adapters side by side -/

variable {watched : Adapter (Recorded χ)} {plain : Adapter χ}

theorem Recorded.answer_of_unscripted {recorded : Recorded χ}
    (hscript : recorded.script = []) (access : Access) :
    recorded.answer access = Chip.perform recorded.chip access := by
  unfold Recorded.answer
  rw [hscript]
  rfl

theorem Adapter.Records.perform (hrecords : watched.Records plain)
    (access : Access) :
    (watched.perform access).1 = (plain.perform access).1 ∧
      (watched.perform access).2.Records (plain.perform access).2 := by
  obtain ⟨hdevice, hinitialized, hchip, hscript⟩ := hrecords
  rw [watched.perform_eq_follow, plain.perform_eq_follow, hdevice,
    hinitialized]
  cases plain.device.route plain.initialized access with
  | answered result =>
      exact ⟨rfl, hdevice, hinitialized, hchip, hscript⟩
  | forwarded address =>
      have hanswer := Recorded.answer_of_unscripted hscript
        (access.moveTo address)
      rw [hchip] at hanswer
      simp only [follow, reach, Recorded.perform_eq, Recorded.perform,
        hanswer]
      refine ⟨trivial, hdevice, hinitialized, rfl, ?_⟩
      simp only [hscript, List.tail_nil]

/-- What is asked of a chip while it is brought up. -/
def Adapter.initCalls (adapter : Adapter χ) : List ChipCall :=
  if adapter.initialized then [] else [.init (Chip.init adapter.chip).1]

theorem Adapter.Records.answer_init (hrecords : watched.Records plain) :
    (Chip.init watched.chip).1 = (Chip.init plain.chip).1 := by
  rw [← hrecords.chip_eq]
  rfl

theorem Adapter.Records.calls_init (hrecords : watched.Records plain) :
    watched.init.2.chip.calls = watched.chip.calls ++ plain.initCalls := by
  have hnoted := watched.chip.calls_init
  unfold Adapter.initCalls
  rw [← hrecords.initialized_eq, ← hrecords.answer_init]
  have hend := watched.init_end
  generalize watched.init = result at hend
  cases hend with
  | already hup => simp [hup]
  | answered hdown _ => simpa [hdown] using hnoted
  | silent hdown _ => simpa [hdown] using hnoted

theorem Adapter.Records.init (hrecords : watched.Records plain) :
    watched.init.1 = plain.init.1 ∧ watched.init.2.Records plain.init.2 := by
  have hanswer := hrecords.answer_init
  obtain ⟨hdevice, hinitialized, hchip, hscript⟩ := hrecords
  have hbehind : (Chip.init watched.chip).2.chip =
      (Chip.init plain.chip).2 := by
    rw [← hchip]
    rfl
  have hplain := plain.init_end
  have hwatched := watched.init_end
  generalize plain.init = result at hplain
  generalize watched.init = seen at hwatched
  cases hplain with
  | already hup =>
      cases hwatched with
      | already _ => exact ⟨rfl, hdevice, hinitialized, hchip, hscript⟩
      | answered hdown _ => simp [hinitialized, hup] at hdown
      | silent hdown _ => simp [hinitialized, hup] at hdown
  | answered hdown hup =>
      cases hwatched with
      | already hraised => simp [hinitialized, hdown] at hraised
      | answered _ _ => exact ⟨rfl, hdevice, rfl, hbehind, hscript⟩
      | silent _ hsilent => simp [hanswer, hup] at hsilent
  | silent hdown hsilent =>
      cases hwatched with
      | already hraised => simp [hinitialized, hdown] at hraised
      | answered _ hup => simp [hanswer, hsilent] at hup
      | silent _ _ => exact ⟨rfl, hdevice, hinitialized, hbehind, hscript⟩

theorem Session.perform_records (hrecords : watched.Records plain)
    (session : Session) (access : Access) :
    (session.perform watched access).1 = (session.perform plain access).1 ∧
      (session.perform watched access).2.Records
        (session.perform plain access).2 := by
  unfold Session.perform
  split
  · exact ⟨rfl, hrecords⟩
  · cases Word.add? session.partition.offset access.start with
    | none => exact ⟨rfl, hrecords⟩
    | some offset => exact hrecords.perform _

end

/-! ## Bindings side by side -/

namespace Binding

variable {χ κ : Type}

/-- The binding with a recorder put in front of its chip. -/
def recorded (binding : Binding χ κ) : Binding (Recorded χ) κ :=
  ⟨binding.adapter.recorded, binding.table, binding.config,
    binding.timestampWidth, binding.locks⟩

structure Records (watched : Binding (Recorded χ) κ)
    (plain : Binding χ κ) : Prop where
  adapter : watched.adapter.Records plain.adapter
  table_eq : watched.table = plain.table
  locks_eq : watched.locks = plain.locks

theorem records_recorded (binding : Binding χ κ) :
    binding.recorded.Records binding :=
  ⟨binding.adapter.records_recorded, rfl, rfl⟩

variable [LockHook κ] {watched : Binding (Recorded χ) κ}
  {plain : Binding χ κ}

theorem Records.openSession (hrecords : watched.Records plain)
    (database : Database) :
    (watched.openSession database).1 = (plain.openSession database).1 ∧
      (watched.openSession database).2.Records
        (plain.openSession database).2 := by
  have hpartition : watched.partition? database = plain.partition? database := by
    unfold partition?
    rw [hrecords.table_eq, hrecords.adapter.device_eq]
  unfold Binding.openSession
  rw [hpartition, hrecords.locks_eq]
  cases plain.partition? database with
  | none => exact ⟨rfl, hrecords⟩
  | some partition =>
      cases LockHook.acquire? (plain.locks.get database) with
      | none => exact ⟨rfl, hrecords⟩
      | some taken =>
          exact ⟨rfl, hrecords.adapter, hrecords.table_eq, rfl⟩

theorem Records.closeSession (hrecords : watched.Records plain)
    (session : Session) :
    (watched.closeSession session).Records (plain.closeSession session) := by
  refine ⟨hrecords.adapter, hrecords.table_eq, ?_⟩
  simp only [Binding.closeSession, hrecords.locks_eq]

end Binding

namespace Binding

variable {χ κ : Type} [Chip χ] {watched : Binding (Recorded χ) κ}
  {plain : Binding χ κ}

theorem Records.perform (hrecords : watched.Records plain)
    (session : Session) (access : Access) :
    (watched.perform session access).1 = (plain.perform session access).1 ∧
      (watched.perform session access).2.Records
        (plain.perform session access).2 := by
  obtain ⟨hreply, hadapter⟩ :=
    Session.perform_records hrecords.adapter session access
  exact ⟨hreply, hadapter, hrecords.table_eq, hrecords.locks_eq⟩

variable [LockHook κ]

theorem Records.handle (hrecords : watched.Records plain)
    (request : Request) :
    (watched.handle request).Records (plain.handle request) := by
  cases request with
  | openSession database => exact (hrecords.openSession database).2
  | access session access => exact (hrecords.perform session access).2
  | closeSession session => exact hrecords.closeSession session

theorem Records.after (hrecords : watched.Records plain)
    (requests : List Request) :
    (watched.after requests).Records (plain.after requests) := by
  induction requests generalizing watched plain with
  | nil => exact hrecords
  | cons request rest ih => exact ih (hrecords.handle request)

end Binding

end FlashStorage
