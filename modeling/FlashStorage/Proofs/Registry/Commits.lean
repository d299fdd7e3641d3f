import FlashStorage.Proofs.Binding.StartUp

/-!
# Commits of a registry

A registry is loaded, rescanned, brought up with adapters of any kind, and asked
for layouts that it does not keep.  Every one of these ends in a commit of a whole
table or in none at all.  A run is read back from its log: the registry holds the
table of the last entry that committed one, and an entry that was refused, or that
halted half way through a layout, has left no trace.
-/

namespace FlashStorage

section

variable {ε ε' α : Type} {outcome : Outcome ε α} {value : α}

def Outcome.value? : Outcome ε α → Option α
  | .ok value => some value
  | .error _ => none
  | .halt _ => none

theorem Outcome.value?_eq_some_iff :
    outcome.value? = some value ↔ outcome = .ok value := by
  cases outcome <;> simp [Outcome.value?]

theorem Outcome.value?_eq_none_iff :
    outcome.value? = none ↔ ∀ value, outcome ≠ .ok value := by
  cases outcome <;> simp [Outcome.value?]

@[simp] theorem Outcome.value?_mapError (widen : ε → ε') :
    (outcome.mapError widen).value? = outcome.value? := by
  cases outcome <;> rfl

end

/-! ## What a registry is asked for -/

/-- What storage is brought up with.  The adapter may be in any state, also the one
that an earlier start has left it in, and drive any kind of chip. -/
structure StartUp : Type 1 where
  ChipType : Type
  [chip : Chip ChipType]
  Source : Type
  [regionSource : RegionSource Source]
  config : Config
  source : Source
  adapter : Adapter ChipType

attribute [instance] StartUp.chip StartUp.regionSource

def StartUp.inputs (start : StartUp) : Registry.Inputs where
  Source := start.Source
  source := start.source
  devices := [start.adapter.device]
  config := start.config

namespace Registry

def Inputs.layout (inputs : Inputs) : Layout Table :=
  build inputs.source inputs.devices inputs.config

inductive Action : Type 1 where
  /-- A load or a rescan. -/
  | ask (call : Call)
  /-- A layout that is not kept. -/
  | build (inputs : Inputs)
  | bringUp (start : StartUp)

def Action.inputs : Action → Inputs
  | .ask call => call.inputs
  | .build inputs => inputs
  | .bringUp start => start.inputs

/-- Whether a table that is answered is also kept. -/
def Action.commits : Action → Bool
  | .build _ => false
  | _ => true

def Action.isRescan : Action → Bool
  | .ask (.rescan _) => true
  | _ => false

/-- What an action comes to, and the registry after it. -/
def act (registry : Registry) : Action → Outcome StorageError Table × Registry
  | .ask call =>
      let (outcome, after) := registry.answer call
      (outcome.mapError .registry, after)
  | .build inputs => (inputs.layout.mapError .registry, registry)
  | .bringUp start =>
      let (outcome, _, after) :=
        FlashStorage.bringUp start.config start.source start.adapter registry
      (outcome, after)

/-- Carry out actions one after the other and note down what they came to. -/
def actAll (registry : Registry) :
    List Action → List (Action × Outcome StorageError Table) × Registry
  | [] => ([], registry)
  | action :: rest =>
      let (outcome, next) := registry.act action
      let (log, last) := next.actAll rest
      ((action, outcome) :: log, last)

/-- The table that an entry of a log has committed, if any. -/
def committed? (entry : Action × Outcome StorageError Table) : Option Table :=
  if entry.1.commits then entry.2.value? else none

/-- The registry once a table, if there is one, is committed. -/
def commit (registry : Registry) : Option Table → Registry
  | some table => ⟨table, true⟩
  | none => registry

variable {registry : Registry} {action : Action} {actions more : List Action}

/-! ## One action -/

theorem answer_snd (registry : Registry) (call : Call) :
    (registry.answer call).2 =
      registry.commit (registry.answer call).1.value? := by
  cases hvalue : (registry.answer call).1.value? with
  | none => exact answer_snd_of_ne_ok (Outcome.value?_eq_none_iff.mp hvalue)
  | some table => exact (answer_eq_ok (Outcome.value?_eq_some_iff.mp hvalue)).2

theorem bringUp_cases {χ σ : Type} [Chip χ] [RegionSource σ] (config : Config)
    (source : σ) (adapter : Adapter χ) (registry : Registry) :
    (∃ error ready, FlashStorage.bringUp config source adapter registry =
      (.error error, ready, registry)) ∨
    ∃ ready, FlashStorage.bringUp config source adapter registry =
      ((registry.load source [adapter.device] config).1.mapError .registry,
        ready, (registry.load source [adapter.device] config).2) := by
  unfold FlashStorage.bringUp
  cases config.suits adapter.device with
  | error error => exact .inl ⟨.config error, adapter, rfl⟩
  | ok _ =>
      rcases hinit : adapter.init with ⟨error | _, ready⟩
      · exact .inl ⟨.device error, ready, rfl⟩
      · have hdevice := (Adapter.init_eq_ok hinit).1
        simp only [hdevice]
        exact .inr ⟨ready, rfl⟩

/-- A start is refused before the registry is asked, or it loads the registry for
the device of its adapter. -/
theorem act_bringUp_cases (registry : Registry) (start : StartUp) :
    (∃ error, registry.act (.bringUp start) = (.error error, registry)) ∨
      registry.act (.bringUp start) =
        registry.act (.ask (.load start.inputs)) := by
  rcases bringUp_cases start.config start.source start.adapter registry with
    ⟨error, ready, hrefused⟩ | ⟨ready, hload⟩
  · left
    refine ⟨error, ?_⟩
    simp only [act, hrefused]
  · right
    simp only [act, hload]
    rfl

/-- An action commits the table that it is answered with, or leaves the registry as
it was. -/
theorem act_snd (registry : Registry) (action : Action) :
    (registry.act action).2 =
      registry.commit (committed? (action, (registry.act action).1)) := by
  cases action with
  | ask call =>
      have hanswer := registry.answer_snd call
      simpa [act, committed?, Action.commits] using hanswer
  | build inputs => rfl
  | bringUp start =>
      rcases registry.act_bringUp_cases start with ⟨error, hrefused⟩ | hload
      · rw [hrefused]
        rfl
      · have hanswer := registry.answer_snd (.load start.inputs)
        rw [hload]
        simpa [act, committed?, Action.commits] using hanswer

theorem layout_of_act_ask_eq_ok {call : Call} {table : Table}
    (hok : (registry.act (.ask call)).1 = .ok table) :
    call.inputs.layout = .ok table := by
  have hanswer : (registry.answer call).1 = .ok table :=
    Outcome.mapError_eq_ok_iff.mp hok
  exact (answer_eq_ok hanswer).1

theorem layout_of_act_eq_ok {table : Table}
    (hok : (registry.act action).1 = .ok table) :
    action.inputs.layout = .ok table := by
  cases action with
  | ask call => exact layout_of_act_ask_eq_ok hok
  | build inputs =>
      have hlayout : inputs.layout.mapError StorageError.registry =
          .ok table := hok
      exact Outcome.mapError_eq_ok_iff.mp hlayout
  | bringUp start =>
      rcases registry.act_bringUp_cases start with ⟨error, hrefused⟩ | hload
      · rw [hrefused] at hok
        cases hok
      · rw [hload] at hok
        exact layout_of_act_ask_eq_ok hok

theorem act_snd_of_ne_ok
    (hrefused : ∀ table, (registry.act action).1 ≠ .ok table) :
    (registry.act action).2 = registry := by
  have hvalue : (registry.act action).1.value? = none :=
    Outcome.value?_eq_none_iff.mpr hrefused
  rw [act_snd]
  simp [committed?, hvalue, commit]

/-! ## Once a table is committed -/

theorem loaded_commit (hloaded : registry.loaded = true)
    (table? : Option Table) : (registry.commit table?).loaded = true := by
  cases table? with
  | none => exact hloaded
  | some table => rfl

theorem loaded_act (hloaded : registry.loaded = true) (action : Action) :
    (registry.act action).2.loaded = true := by
  rw [act_snd]
  exact loaded_commit hloaded _

theorem act_load_of_loaded (hloaded : registry.loaded = true)
    (inputs : Inputs) :
    (registry.act (.ask (.load inputs))).1 =
      .error (.registry .alreadyLoaded) := by
  simp [act, answer, load, hloaded]

theorem act_bringUp_of_loaded (hloaded : registry.loaded = true)
    (start : StartUp) :
    ∃ error, (registry.act (.bringUp start)).1 = .error error := by
  rcases registry.act_bringUp_cases start with ⟨error, hrefused⟩ | hload
  · exact ⟨error, by rw [hrefused]⟩
  · rw [hload]
    exact ⟨_, act_load_of_loaded hloaded start.inputs⟩

theorem committed?_of_loaded (hloaded : registry.loaded = true)
    (hrescan : action.isRescan = false) :
    committed? (action, (registry.act action).1) = none := by
  cases action with
  | ask call =>
      cases call with
      | load inputs => rw [act_load_of_loaded hloaded]; rfl
      | rescan inputs => cases hrescan
  | build inputs => rfl
  | bringUp start =>
      obtain ⟨error, hrefused⟩ := act_bringUp_of_loaded hloaded start
      rw [hrefused]
      rfl

/-! ## Runs -/

theorem actAll_append (registry : Registry) (actions more : List Action) :
    (registry.actAll (actions ++ more)).2 =
      ((registry.actAll actions).2.actAll more).2 := by
  induction actions generalizing registry with
  | nil => rfl
  | cons action rest ih => exact ih _

/-- A run leaves the table that its log shows as the last one committed, since a
later commit replaces the table as a whole. -/
theorem actAll_snd (registry : Registry) (actions : List Action) :
    (registry.actAll actions).2 =
      registry.commit
        ((registry.actAll actions).1.filterMap committed?).getLast? := by
  induction actions generalizing registry with
  | nil => rfl
  | cons action rest ih =>
      have hnext := registry.act_snd action
      simp only [actAll, List.filterMap_cons]
      rw [ih]
      cases hfirst : committed? (action, (registry.act action).1) with
      | none =>
          rw [hfirst] at hnext
          rw [hnext]
          rfl
      | some table =>
          rw [hfirst] at hnext
          simp only [List.getLast?_cons]
          rw [hnext]
          cases (List.filterMap committed?
            ((registry.commit (some table)).actAll rest).1).getLast? with
          | none => rfl
          | some later => rfl

theorem layout_of_mem_actAll {entry : Action × Outcome StorageError Table}
    {table : Table} (hentry : entry ∈ (registry.actAll actions).1)
    (hok : entry.2 = .ok table) : entry.1.inputs.layout = .ok table := by
  induction actions generalizing registry with
  | nil => cases hentry
  | cons action rest ih =>
      simp only [actAll, List.mem_cons] at hentry
      rcases hentry with rfl | hlater
      · exact layout_of_act_eq_ok hok
      · exact ih hlater

/-- Whatever a registry was asked for, its table is empty or lies in a row on some
device. -/
theorem laidOut_of_actAll (actions : List Action) :
    (empty.actAll actions).2.table = Table.empty ∨
      ∃ config device,
        LaidOut config device (empty.actAll actions).2.table.partitions := by
  rw [actAll_snd]
  cases hlast :
      ((empty.actAll actions).1.filterMap committed?).getLast? with
  | none => exact .inl rfl
  | some table =>
      have hmem := List.mem_of_getLast? hlast
      obtain ⟨entry, hentry, hcommitted⟩ := List.mem_filterMap.mp hmem
      have hvalue : entry.2.value? = some table := by
        unfold committed? at hcommitted
        split at hcommitted
        · exact hcommitted
        · cases hcommitted
      have hlayout :=
        layout_of_mem_actAll hentry (Outcome.value?_eq_some_iff.mp hvalue)
      rcases build_eq_ok_placed hlayout with ⟨_, hempty⟩ |
        ⟨region, device, _, _, hplaced⟩
      · exact .inl hempty
      · exact .inr ⟨_, device, hplaced.toLaidOut⟩

theorem loaded_actAll (hloaded : registry.loaded = true)
    (actions : List Action) : (registry.actAll actions).2.loaded = true := by
  rw [actAll_snd]
  exact loaded_commit hloaded _

theorem committed_eq_nil_of_loaded (hloaded : registry.loaded = true)
    (hrescan : ∀ action ∈ actions, action.isRescan = false) :
    (registry.actAll actions).1.filterMap committed? = [] := by
  induction actions generalizing registry with
  | nil => rfl
  | cons action rest ih =>
      rw [List.forall_mem_cons] at hrescan
      have hfirst := committed?_of_loaded hloaded hrescan.1
      have hrest := ih (loaded_act hloaded action) hrescan.2
      simp [actAll, hfirst, hrest]

theorem length_committed_le_one
    (hrescan : ∀ action ∈ actions, action.isRescan = false) :
    ((registry.actAll actions).1.filterMap committed?).length ≤ 1 := by
  induction actions generalizing registry with
  | nil => exact Nat.zero_le 1
  | cons action rest ih =>
      rw [List.forall_mem_cons] at hrescan
      have hnext := registry.act_snd action
      simp only [actAll, List.filterMap_cons]
      cases hfirst : committed? (action, (registry.act action).1) with
      | none => exact ih hrescan.2
      | some table =>
          rw [hfirst] at hnext
          have hloaded : (registry.act action).2.loaded = true := by
            rw [hnext]
            rfl
          have hrest := committed_eq_nil_of_loaded hloaded hrescan.2
          simp [hrest]

/-- After any run of a fresh registry it holds the table of the last entry that
committed one, as the inputs of that entry lay it out, and is unloaded as long as
there is no such entry.  What is refused or halts changes nothing.  A loaded
registry stays loaded and refuses every load and every start, so that without a
rescan no run commits twice. -/
theorem commits_whole_tables (actions : List Action) :
    (empty.actAll actions).2 =
        empty.commit
          ((empty.actAll actions).1.filterMap committed?).getLast? ∧
      (∀ entry ∈ (empty.actAll actions).1, ∀ table,
        entry.2 = .ok table → entry.1.inputs.layout = .ok table) ∧
      (∀ action,
        (∀ table, ((empty.actAll actions).2.act action).1 ≠ .ok table) →
          ((empty.actAll actions).2.act action).2 =
            (empty.actAll actions).2) ∧
      ((empty.actAll actions).2.loaded = true →
        (∀ more, (empty.actAll (actions ++ more)).2.loaded = true) ∧
        (∀ inputs, ((empty.actAll actions).2.act (.ask (.load inputs))).1 =
          .error (.registry .alreadyLoaded)) ∧
        ∀ start, ∃ error,
          ((empty.actAll actions).2.act (.bringUp start)).1 =
            .error error) ∧
      ((∀ action ∈ actions, action.isRescan = false) →
        ((empty.actAll actions).1.filterMap committed?).length ≤ 1) := by
  refine ⟨actAll_snd _ _, ?_, ?_, ?_, length_committed_le_one⟩
  · intro entry hentry table hok
    exact layout_of_mem_actAll hentry hok
  · intro action hrefused
    exact act_snd_of_ne_ok hrefused
  · intro hloaded
    refine ⟨?_, act_load_of_loaded hloaded, act_bringUp_of_loaded hloaded⟩
    intro more
    rw [actAll_append]
    exact loaded_actAll hloaded more

end Registry

namespace SmallBoard

/-- Two databases whose sizes add up to one more than the largest word. -/
def hugeInputs : Registry.Inputs where
  Source := RegionList
  source := ⟨[{ region with offset := 0, length := Word.largest }], by decide⟩
  devices := [{ device with base := 0, length := Word.largest }]
  config := .ofValues 8 32 9223372036854775808 9223372036854775808

def startUp : StartUp where
  ChipType := SimulatedChip
  Source := RegionList
  config := config
  source := source
  adapter := adapter

def actions : List Registry.Action :=
  [.ask (.load hugeInputs), .bringUp startUp, .ask (.rescan hugeInputs),
    .ask (.load startUp.inputs)]

end SmallBoard

/-- Layouts that halt at their last sum leave the registry unloaded at first, and
the table of the start in between alone afterwards. -/
theorem commits_whole_tables_smallBoard :
    (Registry.empty.actAll SmallBoard.actions).1.map Prod.snd =
        [.halt .addOverflow, .ok SmallBoard.table, .halt .addOverflow,
          .error (.registry .alreadyLoaded)] ∧
      (Registry.empty.actAll SmallBoard.actions).2 =
        ⟨SmallBoard.table, true⟩ ∧
      ∀ more, (Registry.empty.actAll
        (SmallBoard.actions ++ more)).2.loaded = true := by
  obtain ⟨hlast, _, _, hloaded, _⟩ :=
    Registry.commits_whole_tables SmallBoard.actions
  have hkept : (Registry.empty.actAll SmallBoard.actions).2 =
      ⟨SmallBoard.table, true⟩ := hlast.trans rfl
  refine ⟨rfl, hkept, (hloaded ?_).1⟩
  rw [hkept]

end FlashStorage
