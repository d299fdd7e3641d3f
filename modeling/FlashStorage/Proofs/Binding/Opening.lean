import FlashStorage.Chip.Simulated
import FlashStorage.Proofs.Binding.Lifetime
import FlashStorage.Proofs.Binding.StartUp
import Mathlib.Data.List.Nodup

/-!
# Opening sessions

A binding finds the partition of a database by two tests, one when it is made and
one when a session is opened.  On a table whose partitions are laid out on the
adapter's device both come to the same: an enabled database has exactly its
configured partition, a disabled one has none.
-/

namespace FlashStorage

section

variable {config : Config} {device : Device} {partitions : List Partition}

/-! ## Partitions by database -/

namespace Registry.LaidOut

theorem exists_mem_of_enabled (hlaid : LaidOut config device partitions)
    {database : Database} (hsize : 0 < (config.partitionSize database).toNat) :
    ∃ partition ∈ partitions, partition.database = database := by
  have hmem := Config.mem_databases_iff.mpr hsize
  rw [← hlaid.databases_eq] at hmem
  exact List.mem_map.mp hmem

theorem enabled_of_mem (hlaid : LaidOut config device partitions)
    {partition : Partition} (hmem : partition ∈ partitions) :
    0 < (config.partitionSize partition.database).toNat := by
  rw [← hlaid.length_eq partition hmem]
  exact hlaid.length_pos partition hmem

theorem eq_of_database_eq (hlaid : LaidOut config device partitions)
    {one other : Partition} (hone : one ∈ partitions)
    (hother : other ∈ partitions) (hsame : one.database = other.database) :
    one = other :=
  List.inj_on_of_nodup_map hlaid.databases_nodup hone hother hsame

/-- The time-series partition starts exactly where the key-value one ends. -/
theorem ts_offset_eq (hlaid : LaidOut config device partitions)
    {kv ts : Partition} (hkv : kv ∈ partitions) (hts : ts ∈ partitions)
    (hkvDatabase : kv.database = .kv) (htsDatabase : ts.database = .ts) :
    ts.offset.toNat = kv.offset.toNat + kv.length.toNat := by
  have horder := hlaid.kv_first
  have hchain := hlaid.adjacent
  match partitions, hlaid with
  | [], _ => simp at hkv
  | [only], _ =>
      rw [List.mem_singleton] at hkv hts
      rw [hkv] at hkvDatabase
      rw [hts, hkvDatabase] at htsDatabase
      cases htsDatabase
  | [first, second], hlaid =>
      have hdatabases : [first.database, second.database] = [.kv, .ts] :=
        horder.eq_of_length rfl
      simp only [List.cons.injEq, and_true] at hdatabases
      have hfirst := hlaid.eq_of_database_eq hkv List.mem_cons_self
        (hkvDatabase.trans hdatabases.1.symm)
      have hsecond := hlaid.eq_of_database_eq hts
        (List.mem_cons_of_mem first List.mem_cons_self)
        (htsDatabase.trans hdatabases.2.symm)
      rw [hfirst, hsecond]
      exact (List.isChain_cons_cons.mp hchain).1
  | first :: second :: third :: rest, _ =>
      have hlength := horder.length_le
      simp at hlength

/-- Partitions of different databases share no byte. -/
theorem disjoint_of_database_ne (hlaid : LaidOut config device partitions)
    {one other : Partition} (hone : one ∈ partitions)
    (hother : other ∈ partitions) (hne : one.database ≠ other.database) :
    one.offset.toNat + one.length.toNat ≤ other.offset.toNat ∨
      other.offset.toNat + other.length.toNat ≤ one.offset.toNat := by
  cases hfirst : one.database with
  | kv =>
      cases hsecond : other.database with
      | kv => exact absurd (hfirst.trans hsecond.symm) hne
      | ts =>
          have hoffset := hlaid.ts_offset_eq hone hother hfirst hsecond
          exact .inl hoffset.ge
  | ts =>
      cases hsecond : other.database with
      | kv =>
          have hoffset := hlaid.ts_offset_eq hother hone hsecond hfirst
          exact .inr hoffset.ge
      | ts => exact absurd (hfirst.trans hsecond.symm) hne

end Registry.LaidOut

/-! ## Bindings -/

namespace Binding

variable {χ κ : Type} {adapter : Adapter χ} {table : Table}
  {locks : PerDatabase κ} {binding : Binding χ κ} {database : Database}

theorem serves_iff :
    serves table device.name database = true ↔
      ∃ partition ∈ table.partitions,
        partition.device = device.name ∧ partition.database = database := by
  simp [serves, Table.forDevice, Name.ext_iff]

/-- An adapter that is up is bound exactly if the timestamp width is known and
every enabled database has a partition on its device. -/
theorem bind_eq_ok_iff :
    bind adapter table config locks = .ok binding ↔
      adapter.initialized = true ∧
        (∀ database ∈ config.databases,
          serves table adapter.device.name database = true) ∧
        ∃ width, config.timestampWidth = .ok width ∧
          binding = ⟨adapter, table, config, width, locks⟩ := by
  unfold bind
  cases adapter.initialized with
  | false => simp
  | true =>
      cases config.timestampWidth with
      | error error => simp
      | ok width =>
          simp only [Bool.not_true, Bool.false_eq_true, if_false, true_and,
            Except.ok.injEq, exists_eq_left']
          split
          next database hmissing =>
            have hmem := List.mem_of_find?_eq_some hmissing
            have hunserved := List.find?_some hmissing
            constructor
            · intro hbound
              cases hbound
            · rintro ⟨hserved, _⟩
              rw [hserved database hmem] at hunserved
              cases hunserved
          next hfound =>
            have hserved : ∀ database ∈ config.databases,
                serves table adapter.device.name database = true := by
              simpa using hfound
            rw [Except.ok.injEq]
            exact ⟨fun hbound => ⟨hserved, hbound.symm⟩,
              fun hbound => hbound.2.symm⟩

/-- A binding made on a table that is laid out on its device has the partition of
every enabled database, and none of a disabled one. -/
theorem partition?_eq_some_of_enabled
    (hlaid : Registry.LaidOut config binding.adapter.device
      binding.table.partitions)
    (hsize : 0 < (config.partitionSize database).toNat) :
    ∃ partition, binding.partition? database = some partition := by
  obtain ⟨partition, hmem, hdatabase⟩ := hlaid.exists_mem_of_enabled hsize
  cases hfound : binding.partition? database with
  | none =>
      have hdevice := hlaid.device_eq partition hmem
      exact absurd hdatabase
        (partition?_eq_none_iff.mp hfound partition hmem hdevice)
  | some found => exact ⟨found, rfl⟩

theorem partition?_eq_none_of_disabled
    (hlaid : Registry.LaidOut config binding.adapter.device
      binding.table.partitions)
    (hsize : config.partitionSize database = 0) :
    binding.partition? database = none := by
  rw [partition?_eq_none_iff]
  intro partition hmem _ hdatabase
  have henabled := hlaid.enabled_of_mem hmem
  rw [hdatabase, hsize] at henabled
  exact Nat.lt_irrefl 0 henabled

end Binding

/-! ## From a successful start to sessions -/

variable {χ κ σ : Type} [Chip χ] [RegionSource σ] {source : σ}
  {adapter ready : Adapter χ} {registry committed : Registry} {table : Table}
  {locks : PerDatabase κ} {binding : Binding χ κ} {database : Database}
  {session : Session}

/-- A session on the storage that a configuration gives a database. -/
structure Session.HasStorage (session : Session) (config : Config)
    (device : Device) (database : Database) : Prop where
  database_eq : session.partition.database = database
  name_eq : session.partition.name = config.partitionName database
  device_eq : session.partition.device = device.name
  length_eq : session.partition.length = config.partitionSize database

/-- What comes up can be bound. -/
theorem exists_bind_of_bringUp
    (hup : bringUp config source adapter registry =
      (.ok table, ready, committed)) (locks : PerDatabase κ) :
    ∃ binding, Binding.bind ready table config locks = .ok binding := by
  have hlaid := laidOut_of_bringUp hup
  obtain ⟨hdevice, hinitialized, _⟩ := ready_of_bringUp hup
  obtain ⟨hsuits, _, _⟩ := bringUp_eq_ok_iff.mp hup
  obtain ⟨_, width, hwidth⟩ := Config.suits_eq_ok_iff.mp hsuits
  have hserved : ∀ database ∈ config.databases,
      Binding.serves table ready.device.name database = true := by
    intro database henabled
    obtain ⟨partition, hmem, hdatabase⟩ :=
      hlaid.exists_mem_of_enabled (Config.mem_databases_iff.mp henabled)
    rw [Binding.serves_iff, hdevice]
    exact ⟨partition, hmem, hlaid.device_eq partition hmem, hdatabase⟩
  exact ⟨_, Binding.bind_eq_ok_iff.mpr
    ⟨hinitialized, hserved, width, hwidth, rfl⟩⟩

/-- A binding that was made of what came up holds the partitions of the
configuration, on a chip that is up. -/
theorem laidOut_of_bind
    (hup : bringUp config source adapter registry =
      (.ok table, ready, committed))
    (hbind : Binding.bind ready table config locks = .ok binding) :
    Registry.LaidOut config binding.adapter.device binding.table.partitions ∧
      binding.adapter = ready ∧ binding.table = table := by
  obtain ⟨hdevice, _, _⟩ := ready_of_bringUp hup
  obtain ⟨_, _, _, _, rfl⟩ := Binding.bind_eq_ok_iff.mp hbind
  refine ⟨?_, rfl, rfl⟩
  rw [hdevice]
  exact laidOut_of_bringUp hup

variable [LockHook κ]

theorem hasStorage_of_opens
    (hlaid : Registry.LaidOut config binding.adapter.device
      binding.table.partitions)
    (hopens : binding.Opens database session) :
    session.HasStorage config binding.adapter.device database := by
  obtain ⟨hmem, hdevice, rfl⟩ :=
    Binding.partition?_eq_some hopens.partition?_eq
  exact ⟨rfl, hlaid.name_eq _ hmem, hdevice, hlaid.length_eq _ hmem⟩

/-- At any time an enabled database opens, if its hook is free, on a partition of
the table that is its storage. -/
theorem exists_openSession {taken : κ}
    (hlaid : Registry.LaidOut config binding.adapter.device
      binding.table.partitions)
    (requests : List Binding.Request)
    (hsize : 0 < (config.partitionSize database).toNat)
    (hfree : LockHook.acquire?
      ((binding.after requests).locks.get database) = some taken) :
    ∃ partition ∈ binding.table.partitions,
      (binding.after requests).openSession database =
          (.ok ⟨partition⟩, { binding.after requests with
            locks := (binding.after requests).locks.set database taken }) ∧
        Session.HasStorage ⟨partition⟩ config binding.adapter.device
          database := by
  obtain ⟨partition, hfound⟩ :=
    Binding.partition?_eq_some_of_enabled hlaid hsize
  obtain ⟨hmem, _, _⟩ := Binding.partition?_eq_some hfound
  have hcontinues :=
    Binding.continues_after (Binding.continues_refl binding) requests
  rw [← hcontinues.partition?_eq] at hfound
  have hopen := Binding.openSession_of_some hfound hfree
  have hstorage : Session.HasStorage ⟨partition⟩ config
      binding.adapter.device database :=
    hasStorage_of_opens hlaid ⟨requests, by rw [hopen]⟩
  exact ⟨partition, hmem, hopen, hstorage⟩

/-- What comes up can be bound.  At any time in the life of the binding a session
of an enabled database opens, once its hook is free, on the storage that the
configuration gives it, the time-series one right behind the key-value one; for a
disabled database there is no session and no hook is touched. -/
theorem storage_of_bringUp
    (hup : bringUp config source adapter registry =
      (.ok table, ready, committed)) (locks : PerDatabase κ) :
    ∃ binding, Binding.bind ready table config locks = .ok binding ∧
      (∀ requests database taken,
        0 < (config.partitionSize database).toNat →
        LockHook.acquire? ((binding.after requests).locks.get database) =
          some taken →
        ∃ session : Session,
          (binding.after requests).openSession database =
            (.ok session, { binding.after requests with
              locks := (binding.after requests).locks.set database taken }) ∧
          session.HasStorage config adapter.device database) ∧
      (∀ kv ts : Session, binding.Opens .kv kv → binding.Opens .ts ts →
        ts.partition.offset.toNat =
          kv.partition.offset.toNat + kv.partition.length.toNat) ∧
      ∀ requests database, config.partitionSize database = 0 →
        (binding.after requests).openSession database =
          (.error (.partitionMissing database), binding.after requests) := by
  obtain ⟨binding, hbind⟩ := exists_bind_of_bringUp hup locks
  obtain ⟨hlaid, hready, _⟩ := laidOut_of_bind hup hbind
  obtain ⟨hdevice, _, _⟩ := ready_of_bringUp hup
  refine ⟨binding, hbind, ?_, ?_, ?_⟩
  · intro requests database taken hsize hfree
    obtain ⟨partition, _, hopen, hstorage⟩ :=
      exists_openSession hlaid requests hsize hfree
    rw [hready, hdevice] at hstorage
    exact ⟨⟨partition⟩, hopen, hstorage⟩
  · intro kv ts hkv hts
    obtain ⟨hkvMem, _, hkvDatabase⟩ :=
      Binding.partition?_eq_some hkv.partition?_eq
    obtain ⟨htsMem, _, htsDatabase⟩ :=
      Binding.partition?_eq_some hts.partition?_eq
    exact hlaid.ts_offset_eq hkvMem htsMem hkvDatabase htsDatabase
  · intro requests database hsize
    have hcontinues :=
      Binding.continues_after (Binding.continues_refl binding) requests
    apply Binding.openSession_of_none
    rw [hcontinues.partition?_eq]
    exact Binding.partition?_eq_none_of_disabled hlaid hsize

end

namespace SmallBoard

def locks : PerDatabase (Tallied SpinLock) :=
  ⟨.ofHook .free, .ofHook .free⟩

def binding : Binding SimulatedChip (Tallied SpinLock) :=
  ⟨ready, table, config, .bits32, locks⟩

theorem bind_eq : Binding.bind ready table config locks = .ok binding := by
  rfl

def session : Database → Session
  | .kv => ⟨⟨Config.defaultKvName, device.name, 0, 32, .kv⟩⟩
  | .ts => ⟨⟨Config.defaultTsName, device.name, 32, 16, .ts⟩⟩

theorem opens (database : Database) :
    binding.Opens database (session database) := by
  refine ⟨[], ?_⟩
  cases database with
  | kv => rfl
  | ts => rfl

end SmallBoard

/-- On the small board both databases find their storage. -/
theorem storage_of_bringUp_smallBoard :
    ∃ kv ts : Session,
      (SmallBoard.binding.openSession .kv).1 = .ok kv ∧
        (SmallBoard.binding.openSession .ts).1 = .ok ts ∧
        kv.HasStorage SmallBoard.config SmallBoard.device .kv ∧
        ts.HasStorage SmallBoard.config SmallBoard.device .ts := by
  obtain ⟨binding, hbind, hopens, _, _⟩ :=
    storage_of_bringUp SmallBoard.bringUp_eq SmallBoard.locks
  rw [SmallBoard.bind_eq, Except.ok.injEq] at hbind
  subst hbind
  obtain ⟨kv, hkv, hkvStorage⟩ :=
    hopens [] .kv ⟨⟨true⟩, 1, 0⟩ (by decide) rfl
  obtain ⟨ts, hts, htsStorage⟩ :=
    hopens [] .ts ⟨⟨true⟩, 1, 0⟩ (by decide) rfl
  exact ⟨kv, ts, congrArg Prod.fst hkv, congrArg Prod.fst hts, hkvStorage,
    htsStorage⟩

end FlashStorage
