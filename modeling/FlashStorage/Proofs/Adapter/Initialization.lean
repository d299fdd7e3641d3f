import FlashStorage.Proofs.Adapter.Interchange
import FlashStorage.Proofs.Binding.Opening
import FlashStorage.Proofs.Binding.StartEffects

/-!
# A chip is brought up once

The owner of an adapter may initialize it, start storage with it and access it, in any
order and as often as it likes, and the chip may fail to come up any number of times.
The calls of the chip are watched from the first one on.  The adapter is initialized
exactly if the chip has answered an initialization, so it never asks for another one
after that and for no access before.  A binding takes the adapter only in this state,
which nothing that is done in sessions ends.
-/

namespace FlashStorage

/-! ## Orderly calls -/

/-- What may be asked of a chip after some calls: an initialization until one was
answered, and an access from then on. -/
def ChipCall.Due (before : List ChipCall) : ChipCall → Prop
  | .init _ => .init true ∉ before
  | .access _ _ => .init true ∈ before

/-- Every call of a chip came when it was due. -/
def Orderly (calls : List ChipCall) : Prop :=
  ∀ before call after, calls = before ++ call :: after → call.Due before

theorem orderly_nil : Orderly [] := by
  intro before call after hsplit
  exact absurd hsplit.symm (List.append_ne_nil_of_right_ne_nil _ nofun)

theorem Orderly.concat {calls : List ChipCall} {call : ChipCall}
    (horderly : Orderly calls) (hdue : call.Due calls) :
    Orderly (calls ++ [call]) := by
  intro before other after hsplit
  obtain rfl | ⟨rest, last, rfl⟩ := List.eq_nil_or_concat after
  · obtain ⟨rfl, hsame⟩ := List.append_inj' hsplit rfl
    cases hsame
    exact hdue
  · rw [List.concat_eq_append, ← List.cons_append, ← List.append_assoc]
      at hsplit
    obtain ⟨hcalls, _⟩ := List.append_inj' hsplit rfl
    exact horderly before other rest hcalls

/-! ## Runs of an adapter -/

/-- What the owner of an adapter can do with it. -/
inductive Adapter.Task : Type 1 where
  | command (asked : Command)
  | bringUp {σ : Type} [RegionSource σ] (config : Config) (source : σ)
      (registry : Registry)

/-- What the owner is told. -/
inductive Adapter.Report where
  | command
      (answer : Answer (Except DeviceError Unit) (Outcome DeviceError Unit))
  | bringUp (outcome : Outcome StorageError Table) (registry : Registry)

namespace Adapter

variable {χ : Type} [Chip χ]

def carryOut (adapter : Adapter χ) : Task → Report × Adapter χ
  | .command asked =>
      let (answer, after) := adapter.execute asked
      (.command answer, after)
  | @Task.bringUp _ _ config source registry =>
      let (outcome, after, registry) :=
        FlashStorage.bringUp config source adapter registry
      (.bringUp outcome registry, after)

/-- Carry out tasks one after the other and note down the reports. -/
def carryOutAll (adapter : Adapter χ) : List Task → List Report × Adapter χ
  | [] => ([], adapter)
  | task :: rest =>
      let (report, next) := adapter.carryOut task
      let (reports, last) := next.carryOutAll rest
      (report :: reports, last)

/-- Whatever the task, the adapter is left as it is, initialized, or asked for one
access. -/
theorem carryOut_adapter (adapter : Adapter χ) (task : Task) :
    (adapter.carryOut task).2 = adapter ∨
      (adapter.carryOut task).2 = adapter.init.2 ∨
        ∃ access, (adapter.carryOut task).2 = (adapter.perform access).2 := by
  cases task with
  | command asked =>
      cases asked with
      | init => exact .inr (.inl rfl)
      | access access => exact .inr (.inr ⟨access, rfl⟩)
  | bringUp config source registry =>
      simp only [carryOut, FlashStorage.bringUp]
      cases config.suits adapter.device with
      | error cause => exact .inl rfl
      | ok _ =>
          right
          left
          cases adapter.init with
          | mk result ready =>
              cases result with
              | error cause => rfl
              | ok _ => rfl

/-! ## What the calls tell -/

variable {watched : Adapter (Recorded χ)} {plain : Adapter χ}

/-- An adapter that knows from the calls of its chip whether it is up, on a chip that
was called in order. -/
structure Tracks (watched : Adapter (Recorded χ)) : Prop where
  initialized_iff :
    watched.initialized = true ↔ .init true ∈ watched.chip.calls
  orderly : Orderly watched.chip.calls

omit [Chip χ] in
theorem Tracks.due_init (htracks : watched.Tracks)
    (hdown : watched.initialized = false) (up : Bool) :
    (ChipCall.init up).Due watched.chip.calls := by
  intro hmem
  rw [htracks.initialized_iff.mpr hmem] at hdown
  cases hdown

theorem Tracks.init (htracks : watched.Tracks) : watched.init.2.Tracks := by
  have hnoted := watched.chip.calls_init
  have hend := watched.init_end
  generalize watched.init = result at hend
  cases hend with
  | already _ => exact htracks
  | answered hdown hanswer =>
      rw [hanswer] at hnoted
      constructor
      · simp [hnoted]
      · rw [hnoted]
        exact htracks.orderly.concat (htracks.due_init hdown true)
  | silent hdown hanswer =>
      rw [hanswer] at hnoted
      constructor
      · simpa [hnoted] using htracks.initialized_iff
      · rw [hnoted]
        exact htracks.orderly.concat (htracks.due_init hdown false)

theorem Tracks.perform (htracks : watched.Tracks) (access : Access) :
    (watched.perform access).2.Tracks := by
  have hinitialized := watched.initialized_perform access
  obtain hcalls | ⟨address, result, hroute, hcalls⟩ :=
    watched.calls_perform access
  · constructor
    · rw [hinitialized, hcalls]
      exact htracks.initialized_iff
    · rw [hcalls]
      exact htracks.orderly
  · obtain ⟨hup, _⟩ := Device.route_eq_forwarded_iff.mp hroute
    have hanswered := htracks.initialized_iff.mp hup
    constructor
    · rw [hinitialized, hcalls]
      simpa using htracks.initialized_iff
    · rw [hcalls]
      exact htracks.orderly.concat hanswered

theorem Tracks.carryOut (htracks : watched.Tracks) (task : Task) :
    (watched.carryOut task).2.Tracks := by
  obtain hsame | hinit | ⟨access, hperform⟩ := watched.carryOut_adapter task
  · rw [hsame]
    exact htracks
  · rw [hinit]
    exact htracks.init
  · rw [hperform]
    exact htracks.perform access

theorem Tracks.carryOutAll (htracks : watched.Tracks) (tasks : List Task) :
    (watched.carryOutAll tasks).2.Tracks := by
  induction tasks generalizing watched with
  | nil => exact htracks
  | cons task rest ih => exact ih (htracks.carryOut task)

omit [Chip χ] in
theorem tracks_mount (device : Device) (chip : χ) :
    (mount device chip).recorded.Tracks where
  initialized_iff := by simp [mount, recorded, Recorded.ofChip]
  orderly := orderly_nil

/-! ## Runs side by side -/

theorem Records.carryOut (hrecords : watched.Records plain) (task : Task) :
    (watched.carryOut task).1 = (plain.carryOut task).1 ∧
      (watched.carryOut task).2.Records (plain.carryOut task).2 := by
  cases task with
  | command asked =>
      cases asked with
      | init =>
          obtain ⟨hresult, hnext⟩ := hrecords.init
          refine ⟨?_, hnext⟩
          simp only [Adapter.carryOut, execute, hresult]
      | access access =>
          obtain ⟨hreply, hnext⟩ := hrecords.perform access
          refine ⟨?_, hnext⟩
          simp only [Adapter.carryOut, execute, hreply]
  | bringUp config source registry =>
      obtain ⟨houtcome, hnext, hregistry⟩ :=
        hrecords.bringUp config source registry
      refine ⟨?_, hnext⟩
      simp only [Adapter.carryOut, houtcome, hregistry]

theorem Records.carryOutAll (hrecords : watched.Records plain)
    (tasks : List Task) :
    (watched.carryOutAll tasks).1 = (plain.carryOutAll tasks).1 ∧
      (watched.carryOutAll tasks).2.Records (plain.carryOutAll tasks).2 := by
  induction tasks generalizing watched plain with
  | nil => exact ⟨rfl, hrecords⟩
  | cons task rest ih =>
      obtain ⟨hreport, hnext⟩ := hrecords.carryOut task
      obtain ⟨hreports, hlast⟩ := ih hnext
      refine ⟨?_, hlast⟩
      simp only [Adapter.carryOutAll, hreport, hreports]

end Adapter

/-! ## Accesses before and after -/

theorem Device.route_true_ne_notPresent (device : Device) (access : Access) :
    device.route true access ≠ .answered (.error .notPresent) := by
  unfold Device.route
  cases device.isAligned access with
  | false => simp
  | true =>
      cases device.contains access.start access.length with
      | false => simp
      | true =>
          by_cases hempty : access.length = 0
          · simp [hempty]
          · cases Word.add? device.base access.start with
            | none => simp [hempty]
            | some address => simp [hempty]

namespace Adapter

theorem settle_ne_notPresent (requested : Nat) (answer : ChipResult) :
    settle requested answer ≠ .error .notPresent := by
  rcases settle_cases requested answer with hdone | ⟨count, hshort⟩
  · simp [hdone]
  · simp [hshort]

variable {χ : Type} [Chip χ]

theorem perform_of_not_initialized {adapter : Adapter χ}
    (hdown : adapter.initialized = false) (access : Access) :
    adapter.perform access =
      (⟨.error .notPresent, access.buffer⟩, adapter) := by
  simp [perform, refusal?, hdown]

theorem perform_ne_notPresent {adapter : Adapter χ}
    (hup : adapter.initialized = true) (access : Access) :
    (adapter.perform access).1.result ≠ .error .notPresent := by
  rw [adapter.perform_eq_follow, hup]
  cases hroute : adapter.device.route true access with
  | answered result =>
      intro hresult
      change result = .error .notPresent at hresult
      rw [hresult] at hroute
      exact adapter.device.route_true_ne_notPresent access hroute
  | forwarded address => exact settle_ne_notPresent _ _

end Adapter

/-! ## Bindings -/

section

variable {χ κ : Type} [Chip χ] {adapter : Adapter χ} {table : Table}
  {config : Config} {locks : PerDatabase κ} {binding : Binding χ κ}

theorem Session.perform_ne_notPresent (hup : adapter.initialized = true)
    (session : Session) (access : Access) :
    (session.perform adapter access).1.result ≠ .error .notPresent := by
  unfold Session.perform
  split
  · simp
  · split
    · simp
    · exact Adapter.perform_ne_notPresent hup _

theorem Binding.perform_ne_notPresent [LockHook κ]
    (hbind : Binding.bind adapter table config locks = .ok binding)
    (requests : List Binding.Request) (session : Session) (access : Access) :
    ((binding.after requests).perform session access).1.result ≠
      .error .notPresent := by
  obtain ⟨hup, _, _, _, hbinding⟩ := Binding.bind_eq_ok_iff.mp hbind
  have hready : binding.adapter.initialized = true := by
    rw [hbinding]
    exact hup
  have hnow :=
    Binding.continues_after (Binding.continues_refl binding) requests
  exact session.perform_ne_notPresent (hnow.initialized_eq.trans hready)
    access

/-- In a run on a fresh adapter the chip is asked to come up until it answers, and
never again; it is accessed only from then on.  The adapter is initialized exactly
from then on as well: before that it refuses every access as not present and does
nothing, after that it refuses none for this reason, and no session does on any
binding that is made over it.  The chip is watched by a recorder, which changes
nothing else. -/
theorem chip_brought_up_once {device : Device} {chip : χ}
    {tasks : List Adapter.Task} {reports seen : List Adapter.Report}
    {watched : Adapter (Recorded χ)}
    (hrun : (Adapter.mount device chip).carryOutAll tasks =
      (reports, adapter))
    (hwatched : (Adapter.mount device chip).recorded.carryOutAll tasks =
      (seen, watched)) :
    (seen = reports ∧ watched.Records adapter) ∧
      Orderly watched.chip.calls ∧
      (adapter.initialized = true ↔ .init true ∈ watched.chip.calls) ∧
      (.init true ∉ watched.chip.calls → ∀ access,
        adapter.perform access =
          (⟨.error .notPresent, access.buffer⟩, adapter)) ∧
      (.init true ∈ watched.chip.calls → ∀ access,
        (adapter.perform access).1.result ≠ .error .notPresent) ∧
      ∀ (table : Table) (config : Config) (κ : Type) [LockHook κ]
        (locks : PerDatabase κ) (binding : Binding χ κ),
        Binding.bind adapter table config locks = .ok binding →
          ∀ requests session access,
            ((binding.after requests).perform session access).1.result ≠
              .error .notPresent := by
  have hsame :=
    (Adapter.mount device chip).records_recorded.carryOutAll tasks
  have htracks := (Adapter.tracks_mount device chip).carryOutAll tasks
  rw [hrun, hwatched] at hsame
  rw [hwatched] at htracks
  obtain ⟨hseen, hrecords⟩ := hsame
  have hup : adapter.initialized = true ↔
      .init true ∈ watched.chip.calls := by
    rw [← hrecords.initialized_eq]
    exact htracks.initialized_iff
  refine ⟨⟨hseen, hrecords⟩, htracks.orderly, hup, ?_, ?_, ?_⟩
  · intro hsilent access
    have hdown : adapter.initialized = false :=
      Bool.eq_false_iff.mpr (fun hraised => hsilent (hup.mp hraised))
    exact Adapter.perform_of_not_initialized hdown access
  · intro hanswered access
    exact Adapter.perform_ne_notPresent (hup.mpr hanswered) access
  · intro table config κ _ locks binding hbind requests session access
    exact Binding.perform_ne_notPresent hbind requests session access

end

namespace SmallBoard

/-- An access that comes too early, a start, and an initialization that comes after
it. -/
def tasks : List Adapter.Task :=
  [.command (.access (.read 0 [0])), .bringUp config source Registry.empty,
    .command .init]

end SmallBoard

/-- On the small board the chip is asked once and the binding over it serves.  With
the chip taken off it is asked by the start and again by the initialization, and
everything stays refused. -/
theorem chip_brought_up_once_smallBoard :
    SmallBoard.ready.initialized = true ∧ Orderly [.init true] ∧
      ((SmallBoard.binding.after []).perform (SmallBoard.session .kv)
        (.read 0 [0])).1.result ≠ .error .notPresent ∧
      Orderly [.init false, .init false] ∧
      ((SmallBoard.silent.carryOutAll SmallBoard.tasks).2.perform
        (.read 0 [0])).1 = ⟨.error .notPresent, [0]⟩ := by
  have hrun : (Adapter.mount SmallBoard.device
      (SimulatedChip.mappedAt 4096 64)).carryOutAll SmallBoard.tasks =
        (_, SmallBoard.ready) := rfl
  have hsilent : (Adapter.mount SmallBoard.device
      SimulatedChip.absent).carryOutAll SmallBoard.tasks =
        (_, (SmallBoard.silent.carryOutAll SmallBoard.tasks).2) := rfl
  have hnever : ChipCall.init true ∉ [.init false, .init false] := by simp
  obtain ⟨_, hcalls, hup, _, _, hbinding⟩ := chip_brought_up_once hrun rfl
  obtain ⟨_, hattempts, _, hrefused, _, _⟩ :=
    chip_brought_up_once hsilent rfl
  refine ⟨hup.mpr List.mem_cons_self, hcalls, ?_, hattempts, ?_⟩
  · exact hbinding _ _ _ _ _ SmallBoard.bind_eq [] _ _
  · exact congrArg Prod.fst (hrefused hnever _)

end FlashStorage
