import FlashStorage.Proofs.Binding.Opening
import FlashStorage.Proofs.Registry.Commits

/-!
# Sessions and the configuration of a binding

A binding is given a table and a configuration, and asks of the two no more than that
every enabled database has a partition on the device of its adapter.  The table may
have been laid out with another configuration, by any of the loads and rescans of a
registry.  The sessions then have the sizes of that one.  They follow the
configuration of the binding exactly if it gives the same sizes to all databases that
the table has on the device.
-/

namespace FlashStorage

theorem Config.enabled_or_disabled (config : Config) (database : Database) :
    0 < (config.partitionSize database).toNat ∨
      config.partitionSize database = 0 := by
  by_cases hsize : (config.partitionSize database).toNat = 0
  · exact .inr (UInt64.toNat_inj.mp hsize)
  · exact .inl (Nat.pos_of_ne_zero hsize)

namespace Registry

/-! ## The last commit -/

/-- The last entry of a log that committed a table. -/
def lastCommit? (log : List (Action × Outcome StorageError Table)) :
    Option (Action × Outcome StorageError Table) :=
  (log.filter (fun entry => (committed? entry).isSome)).getLast?

theorem getLast?_committed
    (log : List (Action × Outcome StorageError Table)) :
    (log.filterMap committed?).getLast? =
      (lastCommit? log).bind committed? := by
  unfold lastCommit?
  induction log using List.reverseRecOn with
  | nil => rfl
  | append_singleton earlier entry ih =>
      rw [List.filterMap_append, List.filter_append]
      cases hcommitted : committed? entry with
      | none => simpa [hcommitted] using ih
      | some table => simp [hcommitted]

variable {actions : List Action} {entry : Action × Outcome StorageError Table}
  {inputs : Inputs} {table : Table} {partition : Partition}

theorem table_of_no_commit
    (hnone : lastCommit? (empty.actAll actions).1 = none) :
    (empty.actAll actions).2.table = Table.empty := by
  rw [actAll_snd, getLast?_committed, hnone]
  rfl

theorem layout_of_lastCommit?
    (hlast : lastCommit? (empty.actAll actions).1 = some entry) :
    entry.1.inputs.layout = .ok (empty.actAll actions).2.table := by
  have hmem := List.mem_of_getLast? hlast
  rw [List.mem_filter] at hmem
  obtain ⟨hentry, hsome⟩ := hmem
  obtain ⟨table, htable⟩ := Option.isSome_iff_exists.mp hsome
  have hvalue : entry.2.value? = some table := by
    unfold committed? at htable
    split at htable
    · exact htable
    · cases htable
  rw [actAll_snd, getLast?_committed, hlast]
  simp only [Option.bind_some, htable]
  exact layout_of_mem_actAll hentry (Outcome.value?_eq_some_iff.mp hvalue)

theorem length_of_layout (hlayout : inputs.layout = .ok table)
    (hmem : partition ∈ table.partitions) :
    partition.length = inputs.config.partitionSize partition.database ∧
      0 < partition.length.toNat := by
  rcases build_eq_ok_placed hlayout with ⟨_, rfl⟩ |
    ⟨region, device, _, _, hplaced⟩
  · cases hmem
  · exact ⟨hplaced.length_eq partition hmem,
      hplaced.length_pos partition hmem⟩

end Registry

namespace Binding

section

variable {χ κ : Type} [LockHook κ] {now binding : Binding χ κ}
  {config : Config} {database : Database} {partition : Partition} {taken : κ}

/-! ## One time in the life of a binding -/

/-- The sessions of a database are what a configuration says: if it is enabled one
opens, as soon as the hook is free, on storage of the configured size, and if it is
disabled there is none and no hook is touched. -/
structure Follows (now : Binding χ κ) (config : Config) (database : Database) :
    Prop where
  opens : 0 < (config.partitionSize database).toNat → ∀ taken,
    LockHook.acquire? (now.locks.get database) = some taken →
      ∃ session : Session,
        now.openSession database =
          (.ok session,
            { now with locks := now.locks.set database taken }) ∧
        session.partition.length = config.partitionSize database
  refuses : config.partitionSize database = 0 →
    now.openSession database = (.error (.partitionMissing database), now)

theorem follows_of_some (hfound : now.partition? database = some partition)
    (hsize : config.partitionSize database = partition.length)
    (hpos : 0 < partition.length.toNat) : now.Follows config database where
  opens := by
    intro _ taken hfree
    exact ⟨⟨partition⟩, openSession_of_some hfound hfree, hsize.symm⟩
  refuses := by
    intro hdisabled
    rw [← hsize, hdisabled] at hpos
    exact absurd hpos (Nat.lt_irrefl 0)

theorem follows_of_none (hnone : now.partition? database = none)
    (hdisabled : config.partitionSize database = 0) :
    now.Follows config database where
  opens := by
    intro henabled
    rw [hdisabled] at henabled
    exact absurd henabled (Nat.lt_irrefl 0)
  refuses := fun _ => openSession_of_none hnone

theorem Follows.size_eq (hfollows : now.Follows config database)
    (hfound : now.partition? database = some partition)
    (hfree : LockHook.acquire? (now.locks.get database) = some taken) :
    config.partitionSize database = partition.length := by
  have hopen := openSession_of_some hfound hfree
  rcases config.enabled_or_disabled database with henabled | hdisabled
  · obtain ⟨session, hsession, hsize⟩ :=
      hfollows.opens henabled taken hfree
    rw [hopen] at hsession
    cases hsession
    exact hsize.symm
  · have hrefused := hfollows.refuses hdisabled
    rw [hopen] at hrefused
    cases hrefused

omit [LockHook κ] in
theorem serves_iff_partition? (binding : Binding χ κ) (database : Database) :
    serves binding.table binding.adapter.device.name database = true ↔
      ∃ partition, binding.partition? database = some partition := by
  rw [serves_iff]
  constructor
  · rintro ⟨partition, hmem, hdevice, hdatabase⟩
    cases hfound : binding.partition? database with
    | some found => exact ⟨found, rfl⟩
    | none =>
        exact absurd hdatabase
          (partition?_eq_none_iff.mp hfound partition hmem hdevice)
  · rintro ⟨partition, hfound⟩
    exact ⟨partition, partition?_eq_some hfound⟩

end

/-! ## The whole life -/

/-- If the table that a registry has after some actions serves a database on a device,
a configuration gives it the size that the table was laid out with. -/
def SizeKept (actions : List Registry.Action) (device : Name)
    (config : Config) (database : Database) : Prop :=
  serves (Registry.empty.actAll actions).2.table device database = true →
    ∀ entry,
      Registry.lastCommit? (Registry.empty.actAll actions).1 = some entry →
        config.partitionSize database =
          entry.1.inputs.config.partitionSize database

section

variable {χ κ : Type} {adapter : Adapter χ} {actions : List Registry.Action}
  {config : Config} {locks : PerDatabase κ} {binding : Binding χ κ}
  {database : Database} {partition : Partition}

/-- A partition that a binding finds in the table of a registry has the size of the
last commit. -/
theorem exists_lastCommit?
    (htable : binding.table = (Registry.empty.actAll actions).2.table)
    (hfound : binding.partition? database = some partition) :
    ∃ entry,
      Registry.lastCommit? (Registry.empty.actAll actions).1 = some entry ∧
        partition.length =
          entry.1.inputs.config.partitionSize database ∧
        0 < partition.length.toNat := by
  obtain ⟨hmem, _, rfl⟩ := partition?_eq_some hfound
  rw [htable] at hmem
  cases hlast : Registry.lastCommit? (Registry.empty.actAll actions).1 with
  | none =>
      rw [Registry.table_of_no_commit hlast] at hmem
      cases hmem
  | some entry =>
      have hlayout := Registry.layout_of_lastCommit? hlast
      exact ⟨entry, rfl, Registry.length_of_layout hlayout hmem⟩

variable [Chip χ] [LockHook κ]

/-- A binding is made of an adapter, the table of a registry after any actions, and
any configuration.  For as long as it lives the sessions of a database follow the
configuration if that has kept the size of the table's.  Only then do they at any time
when the hook is free. -/
theorem sessions_follow_iff_size_kept
    (hbind : bind adapter (Registry.empty.actAll actions).2.table config
      locks = .ok binding) (database : Database) :
    (SizeKept actions adapter.device.name config database →
      ∀ requests, (binding.after requests).Follows config database) ∧
    ∀ requests taken,
      LockHook.acquire? ((binding.after requests).locks.get database) =
          some taken →
        (binding.after requests).Follows config database →
          SizeKept actions adapter.device.name config database := by
  obtain ⟨_, hserved, width, _, hmade⟩ := bind_eq_ok_iff.mp hbind
  have htable : binding.table = (Registry.empty.actAll actions).2.table := by
    rw [hmade]
  have hserves : serves (Registry.empty.actAll actions).2.table
      adapter.device.name database = true ↔
        ∃ partition, binding.partition? database = some partition := by
    rw [← serves_iff_partition?, hmade]
  have hcontinues := continues_after (continues_refl binding)
  constructor
  · intro hkept requests
    cases hfound : binding.partition? database with
    | some partition =>
        obtain ⟨entry, hlast, hlength, hpos⟩ :=
          exists_lastCommit? htable hfound
        have hsize := hkept (hserves.mpr ⟨partition, hfound⟩) entry hlast
        rw [← (hcontinues requests).partition?_eq] at hfound
        exact follows_of_some hfound (hsize.trans hlength.symm) hpos
    | none =>
        rcases config.enabled_or_disabled database with
          henabled | hdisabled
        · obtain ⟨partition, hsome⟩ := hserves.mp
            (hserved database (Config.mem_databases_iff.mpr henabled))
          rw [hfound] at hsome
          cases hsome
        · rw [← (hcontinues requests).partition?_eq] at hfound
          exact follows_of_none hfound hdisabled
  · intro requests taken hfree hfollows hserve entry hlast
    obtain ⟨partition, hfound⟩ := hserves.mp hserve
    obtain ⟨found, hfoundLast, hlength, _⟩ :=
      exists_lastCommit? htable hfound
    rw [hlast, Option.some.injEq] at hfoundLast
    subst hfoundLast
    rw [← (hcontinues requests).partition?_eq] at hfound
    exact (hfollows.size_eq hfound hfree).trans hlength

end

end Binding

namespace SmallBoard

/-- The key-value database gives half of its storage to the time series. -/
def shifted : Config := .ofValues 8 64 16 32

def shiftedTable : Table :=
  ⟨[⟨Config.defaultKvName, device.name, 0, 16, .kv⟩,
    ⟨Config.defaultTsName, device.name, 16, 32, .ts⟩], by decide⟩

/-- The board comes up, and is scanned again for other sizes. -/
def shift : List Registry.Action :=
  [.bringUp startUp,
    .ask (.rescan { startUp.inputs with config := shifted })]

def shiftedBinding : Binding SimulatedChip (Tallied SpinLock) :=
  ⟨ready, shiftedTable, shifted, .bits64, locks⟩

theorem bind_shifted :
    Binding.bind ready (Registry.empty.actAll shift).2.table shifted locks =
      .ok shiftedBinding := by
  rfl

end SmallBoard

/-- After the second scan both databases follow its sizes. -/
theorem sessions_follow_iff_size_kept_smallBoard :
    SmallBoard.shiftedBinding.Follows SmallBoard.shifted .kv ∧
      SmallBoard.shiftedBinding.Follows SmallBoard.shifted .ts := by
  have hkept : ∀ database, Binding.SizeKept SmallBoard.shift
      SmallBoard.ready.device.name SmallBoard.shifted database := by
    intro database _ entry hlast
    have hrescan : Registry.lastCommit?
        (Registry.empty.actAll SmallBoard.shift).1 =
          some (.ask (.rescan
            { SmallBoard.startUp.inputs with config := SmallBoard.shifted }),
            .ok SmallBoard.shiftedTable) := rfl
    rw [hrescan, Option.some.injEq] at hlast
    subst hlast
    rfl
  have hfollows := fun database =>
    (Binding.sessions_follow_iff_size_kept SmallBoard.bind_shifted
      database).1 (hkept database) []
  exact ⟨hfollows .kv, hfollows .ts⟩

namespace SmallBoard

/-- Half of the key-value storage, and no time series. -/
def shrunk : Config := .ofValues 8 32 16 0

def shrunkBinding : Binding SimulatedChip (Tallied SpinLock) :=
  ⟨ready, table, shrunk, .bits32, locks⟩

end SmallBoard

/-- The table of a board that has come up is bound under another configuration without
a complaint.  The key-value session keeps its old length, and the database that is
disabled has a session. -/
theorem smallBoard_shrunk_not_followed :
    Binding.bind SmallBoard.ready
        (Registry.empty.actAll [.bringUp SmallBoard.startUp]).2.table
        SmallBoard.shrunk SmallBoard.locks = .ok SmallBoard.shrunkBinding ∧
      ¬ SmallBoard.shrunkBinding.Follows SmallBoard.shrunk .kv ∧
      ¬ SmallBoard.shrunkBinding.Follows SmallBoard.shrunk .ts := by
  refine ⟨rfl, ?_, ?_⟩
  · intro hfollows
    have hfound : SmallBoard.shrunkBinding.partition? .kv =
        some (SmallBoard.session .kv).partition := rfl
    have hfree : LockHook.acquire?
        (SmallBoard.shrunkBinding.locks.get .kv) = some ⟨⟨true⟩, 1, 0⟩ := rfl
    exact absurd (hfollows.size_eq hfound hfree) (by decide)
  · intro hfollows
    have hrefused := hfollows.refuses rfl
    have hopen : (SmallBoard.shrunkBinding.openSession .ts).1 =
        .ok (SmallBoard.session .ts) := rfl
    rw [hrefused] at hopen
    cases hopen

end FlashStorage
