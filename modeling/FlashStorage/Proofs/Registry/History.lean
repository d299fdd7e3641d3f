import FlashStorage.Proofs.Registry.Placement
import FlashStorage.Registry.Basic

/-!
# Histories of a registry

A registry is called again and again, each time with a board, devices and a
configuration of its own.  Whatever was called and refused before, the committed
table is the one that the last answered call has laid out, and its partitions lie
where that call's configuration, device and region put them.
-/

namespace FlashStorage.Registry

section Calls

variable {σ : Type} [RegionSource σ] {source : σ} {devices : List Device}
  {config : Config} {registry after : Registry} {table : Table}

theorem rescan_eq_ok_iff :
    registry.rescan source devices config = (.ok table, after) ↔
      build source devices config = .ok table ∧ after = ⟨table, true⟩ := by
  unfold rescan
  cases build source devices config with
  | ok built =>
      simp only [Prod.mk.injEq, Outcome.ok.injEq]
      constructor
      · rintro ⟨rfl, hafter⟩
        exact ⟨rfl, hafter.symm⟩
      · rintro ⟨rfl, hafter⟩
        exact ⟨rfl, hafter.symm⟩
  | error error => simp
  | halt reason => simp

/-- A load is answered with a table only once, with the one that it commits. -/
theorem load_eq_ok_iff :
    registry.load source devices config = (.ok table, after) ↔
      registry.loaded = false ∧
        build source devices config = .ok table ∧ after = ⟨table, true⟩ := by
  unfold load
  cases registry.loaded with
  | true => simp
  | false => simp [rescan_eq_ok_iff]

theorem rescan_snd_of_ne_ok
    (hrefused : ∀ table,
      (registry.rescan source devices config).1 ≠ .ok table) :
    (registry.rescan source devices config).2 = registry := by
  unfold rescan at hrefused ⊢
  cases hbuild : build source devices config with
  | ok built => simp [hbuild] at hrefused
  | error error => rfl
  | halt reason => rfl

theorem load_snd_of_ne_ok
    (hrefused : ∀ table,
      (registry.load source devices config).1 ≠ .ok table) :
    (registry.load source devices config).2 = registry := by
  unfold load at hrefused ⊢
  split
  · rfl
  · rename_i hloaded
    rw [if_neg hloaded] at hrefused
    exact rescan_snd_of_ne_ok hrefused

end Calls

/-! ## Runs of calls -/

/-- What a table is laid out from.  Each call may keep its regions in a form of
its own. -/
structure Inputs : Type 1 where
  Source : Type
  [regionSource : RegionSource Source]
  source : Source
  devices : List Device
  config : Config

attribute [instance] Inputs.regionSource

/-- The storage regions of the board, in table order. -/
def Inputs.storageRegions (inputs : Inputs) : List Region :=
  RegionSource.find inputs.source Region.storageTag

inductive Call : Type 1 where
  | load (inputs : Inputs)
  | rescan (inputs : Inputs)

def Call.inputs : Call → Inputs
  | .load inputs => inputs
  | .rescan inputs => inputs

/-- The answer to a call, and the registry after it. -/
def answer (registry : Registry) : Call → Layout Table × Registry
  | .load inputs => registry.load inputs.source inputs.devices inputs.config
  | .rescan inputs => registry.rescan inputs.source inputs.devices inputs.config

/-- The registry after some calls. -/
def run (registry : Registry) : List Call → Registry
  | [] => registry
  | call :: rest => (registry.answer call).2.run rest

/-- The last of some calls that was answered with a table. -/
def lastAnswered? (registry : Registry) : List Call → Option Call
  | [] => none
  | call :: rest =>
      match (registry.answer call).2.lastAnswered? rest,
          (registry.answer call).1 with
      | some later, _ => some later
      | none, .ok _ => some call
      | none, _ => none

variable {registry : Registry} {call : Call} {calls : List Call} {table : Table}

/-- A call that is answered with a table has laid that table out and committed
it. -/
theorem answer_eq_ok (hanswer : (registry.answer call).1 = .ok table) :
    build call.inputs.source call.inputs.devices call.inputs.config =
        .ok table ∧
      (registry.answer call).2 = ⟨table, true⟩ := by
  have hpair : registry.answer call =
      (.ok table, (registry.answer call).2) := by
    rw [← hanswer]
  cases call with
  | load inputs => exact (load_eq_ok_iff.mp hpair).2
  | rescan inputs => exact rescan_eq_ok_iff.mp hpair

/-- A call that is not answered with a table leaves the registry as it was. -/
theorem answer_snd_of_ne_ok
    (hrefused : ∀ table, (registry.answer call).1 ≠ .ok table) :
    (registry.answer call).2 = registry := by
  cases call with
  | load inputs => exact load_snd_of_ne_ok hrefused
  | rescan inputs => exact rescan_snd_of_ne_ok hrefused

theorem run_of_lastAnswered?_eq_none
    (hnone : registry.lastAnswered? calls = none) :
    registry.run calls = registry := by
  induction calls generalizing registry with
  | nil => rfl
  | cons call rest ih =>
      simp only [lastAnswered?] at hnone
      split at hnone
      next => simp at hnone
      next => simp at hnone
      next hlater hrefused =>
        rw [run, ih hlater]
        exact answer_snd_of_ne_ok hrefused

/-- After some calls the committed table is what the last answered one has laid
out. -/
theorem run_of_lastAnswered?_eq_some
    (hlast : registry.lastAnswered? calls = some call) :
    ∃ table,
      build call.inputs.source call.inputs.devices call.inputs.config =
          .ok table ∧
        registry.run calls = ⟨table, true⟩ := by
  induction calls generalizing registry with
  | nil => simp [lastAnswered?] at hlast
  | cons first rest ih =>
      simp only [lastAnswered?] at hlast
      split at hlast
      next later hlater =>
        rw [hlast] at hlater
        exact ih hlater
      next table hlater hanswer =>
        cases hlast
        obtain ⟨hbuild, hcommitted⟩ := answer_eq_ok hanswer
        refine ⟨table, hbuild, ?_⟩
        rw [run, run_of_lastAnswered?_eq_none hlater, hcommitted]
      next => simp at hlast

/-- In every state that calls of a fresh registry lead to, the committed table is
empty or holds the partitions of the last answered call, in a row from the start
of its only storage region, on the first of its devices that contains that
region. -/
theorem committed_table_placed (calls : List Call) :
    (empty.run calls).table = Table.empty ∨
      ∃ call region device,
        empty.lastAnswered? calls = some call ∧
          call.inputs.storageRegions = [region] ∧
          deviceOf? call.inputs.devices region = some device ∧
          Placed call.inputs.config device region
            (empty.run calls).table.partitions := by
  cases hlast : empty.lastAnswered? calls with
  | none =>
      rw [run_of_lastAnswered?_eq_none hlast]
      exact .inl rfl
  | some call =>
      obtain ⟨table, hbuild, hrun⟩ := run_of_lastAnswered?_eq_some hlast
      rw [hrun]
      rcases build_eq_ok_placed hbuild with ⟨_, hempty⟩ |
        ⟨region, device, hregions, hdevice, hplaced⟩
      · exact .inl hempty
      · exact .inr ⟨call, region, device, rfl, hregions, hdevice, hplaced⟩

end FlashStorage.Registry
