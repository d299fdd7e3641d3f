import FlashStorage.Config.Basic

/-!
# What a validated configuration promises

The tests of a configuration are opened here once: which databases are enabled,
what an accepted configuration is known to satisfy, and how many bytes its
partitions take in exact arithmetic.
-/

namespace FlashStorage.Config

variable {config : Config} {block : UInt32} {database : Database}

theorem isEnabled_iff :
    config.isEnabled database = true ↔
      0 < (config.partitionSize database).toNat := by
  simp [isEnabled]

theorem mem_databases_iff :
    database ∈ config.databases ↔
      0 < (config.partitionSize database).toNat := by
  rw [databases, List.mem_filter, isEnabled_iff]
  exact and_iff_right (Database.mem_all database)

theorem databases_sublist (config : Config) :
    config.databases.Sublist Database.all :=
  List.filter_sublist

theorem databases_nodup (config : Config) : config.databases.Nodup :=
  (databases_sublist config).nodup (by decide)

theorem databases_eq_nil_iff :
    config.databases = [] ↔ ∀ database, config.isEnabled database = false := by
  simp [databases, List.filter_eq_nil_iff]

theorem length_databases_le_two (config : Config) :
    config.databases.length ≤ 2 :=
  config.databases_sublist.length_le

/-! ## The tests of a configuration -/

theorem checkValues_eq_ok_iff :
    config.checkValues = .ok () ↔
      (∃ granularity, config.granularity = .ok granularity) ∧
        (∃ width, config.timestampWidth = .ok width) ∧
          config.namesClash = false := by
  unfold checkValues
  cases config.granularity with
  | error error => simp [bind, Except.bind]
  | ok granularity =>
      cases config.timestampWidth with
      | error error => simp [bind, Except.bind]
      | ok width =>
          cases config.namesClash with
          | false => simp [bind, Except.bind]
          | true => simp [bind, Except.bind]

theorem namesClash_eq_false_of_disabled (hnone : config.databases = []) :
    config.namesClash = false := by
  have hkv := databases_eq_nil_iff.mp hnone .kv
  simp [namesClash, hkv]

/-- Without a clash the enabled databases go by different names. -/
theorem names_nodup_of_namesClash_eq_false (hclash : config.namesClash = false) :
    (config.databases.map config.partitionName).Nodup := by
  unfold namesClash at hclash
  cases hkv : config.isEnabled .kv with
  | false =>
      cases hts : config.isEnabled .ts <;> simp [databases, Database.all, hkv, hts]
  | true =>
      cases hts : config.isEnabled .ts with
      | false => simp [databases, Database.all, hkv, hts]
      | true =>
          have hnames : config.kvName ≠ config.tsName := by
            simpa [hkv, hts] using hclash
          simpa [databases, Database.all, hkv, hts, partitionName] using hnames

/-- A configuration passes for an erase block exactly if its values pass and
every enabled partition consists of whole blocks. -/
theorem validate_eq_ok_iff :
    config.validate block = .ok () ↔
      config.checkValues = .ok () ∧
        ∀ database ∈ config.databases,
          config.isWholeBlocks block database = true := by
  unfold validate
  cases hvalues : config.checkValues with
  | error error => simp [bind, Except.bind]
  | ok _ =>
      simp only [bind, Except.bind, true_and]
      cases hfirst : config.databases.find?
          (fun database => !config.isWholeBlocks block database) with
      | none =>
          rw [List.find?_eq_none] at hfirst
          simp only [true_iff]
          intro database hmem
          simpa using hfirst database hmem
      | some broken =>
          have hmem := List.mem_of_find?_eq_some hfirst
          have hbroken := List.find?_some hfirst
          simp only [reduceCtorEq, false_iff]
          intro hwhole
          rw [hwhole broken hmem] at hbroken
          simp at hbroken

/-- What is left to object to once both codes are known. -/
theorem cause_of_validate_eq_error {granularity : Granularity}
    {width : TimestampWidth} {cause : ConfigError}
    (hgranularity : config.granularity = .ok granularity)
    (hwidth : config.timestampWidth = .ok width)
    (hcause : config.validate block = .error cause) :
    cause = .duplicateName ∨
      ∃ database, cause =
        .misaligned database (config.partitionSize database) block := by
  unfold validate checkValues at hcause
  rw [hgranularity, hwidth] at hcause
  cases hclash : config.namesClash with
  | true =>
      left
      simpa [hclash, bind, Except.bind, eq_comm] using hcause
  | false =>
      right
      simp only [hclash, bind, Except.bind, Bool.false_eq_true, if_false] at hcause
      split at hcause
      next database _ =>
        simp only [Except.error.injEq] at hcause
        exact ⟨database, hcause.symm⟩
      next => cases hcause

theorem isWholeBlocks_iff :
    config.isWholeBlocks block database = true ↔
      0 < block.toNat ∧
        block.toNat ∣ (config.partitionSize database).toNat := by
  simp [isWholeBlocks, Nat.dvd_iff_mod_eq_zero, Nat.pos_iff_ne_zero]

/-- An enabled database whose partition is not made of whole erase blocks; without an
erase block none is. -/
def Misfits (config : Config) (block : UInt32) (database : Database) : Prop :=
  0 < (config.partitionSize database).toNat ∧
    (block.toNat = 0 ∨ ¬ block.toNat ∣ (config.partitionSize database).toNat)

instance : Decidable (config.Misfits block database) :=
  inferInstanceAs (Decidable (_ ∧ _))

theorem misfits_iff :
    config.Misfits block database ↔
      config.isEnabled database = true ∧
        config.isWholeBlocks block database = false := by
  rw [Misfits, isEnabled_iff, ← Bool.not_eq_true, isWholeBlocks_iff,
    Classical.not_and_iff_not_or_not, Nat.not_lt, Nat.le_zero]

theorem find?_databases :
    config.databases.find? (fun database =>
        !config.isWholeBlocks block database) =
      Database.all.find? (fun database =>
        decide (config.Misfits block database)) := by
  rw [databases, List.find?_filter]
  simp only [misfits_iff, Bool.not_eq_true']

/-- Once the values pass, the partitions are tested in layout order. -/
theorem validate_of_checkValues (hvalues : config.checkValues = .ok ()) :
    config.validate block =
      if config.Misfits block .kv then
        .error (.misaligned .kv config.kvSize block)
      else if config.Misfits block .ts then
        .error (.misaligned .ts config.tsSize block)
      else .ok () := by
  unfold validate
  simp only [hvalues, bind, Except.bind, find?_databases, Database.all,
    List.find?_cons, List.find?_nil]
  by_cases hkv : config.Misfits block .kv
  · simp [hkv, partitionSize]
  · by_cases hts : config.Misfits block .ts
    · simp [hkv, hts, partitionSize]
    · simp [hkv, hts]

theorem validate_eq_ok_iff_of_checkValues
    (hvalues : config.checkValues = .ok ()) :
    config.validate block = .ok () ↔
      ∀ database, ¬ config.Misfits block database := by
  rw [validate_of_checkValues hvalues]
  constructor
  · intro hpasses database
    split at hpasses
    · cases hpasses
    · rename_i hkv
      split at hpasses
      · cases hpasses
      · rename_i hts
        cases database with
        | kv => exact hkv
        | ts => exact hts
  · intro hnone
    rw [if_neg (hnone .kv), if_neg (hnone .ts)]

/-- The first partition in layout order that misfits is reported, and nothing else is
refused. -/
theorem validate_eq_error_iff (hvalues : config.checkValues = .ok ())
    {cause : ConfigError} :
    config.validate block = .error cause ↔
      ∃ database,
        cause = .misaligned database (config.partitionSize database) block ∧
          config.Misfits block database ∧
            (database = .ts → ¬ config.Misfits block .kv) := by
  rw [validate_of_checkValues hvalues]
  constructor
  · intro hcause
    split at hcause
    · rename_i hkv
      cases hcause
      exact ⟨.kv, rfl, hkv, nofun⟩
    · rename_i hkv
      split at hcause
      · rename_i hts
        cases hcause
        exact ⟨.ts, rfl, hts, fun _ => hkv⟩
      · cases hcause
  · rintro ⟨database, rfl, hmisfits, hfirst⟩
    cases database with
    | kv => rw [if_pos hmisfits, partitionSize]
    | ts => rw [if_neg (hfirst rfl), if_pos hmisfits, partitionSize]

/-! ## The bytes of several partitions -/

/-- The bytes that the partitions of some databases take together. -/
def extent (config : Config) : List Database → Nat
  | [] => 0
  | database :: rest =>
      (config.partitionSize database).toNat + config.extent rest

@[simp] theorem extent_nil (config : Config) : config.extent [] = 0 := rfl

@[simp] theorem extent_cons (config : Config) (database : Database)
    (rest : List Database) :
    config.extent (database :: rest) =
      (config.partitionSize database).toNat + config.extent rest := rfl

/-- Leaving out disabled databases leaves out no bytes. -/
theorem extent_filter_isEnabled (config : Config) (databases : List Database) :
    config.extent (databases.filter config.isEnabled) =
      config.extent databases := by
  induction databases with
  | nil => rfl
  | cons database rest ih =>
      rw [List.filter_cons]
      split
      · rw [extent_cons, extent_cons, ih]
      · rename_i hdisabled
        rw [isEnabled_iff] at hdisabled
        rw [extent_cons, ih]
        omega

theorem extent_databases (config : Config) :
    config.extent config.databases =
      config.kvSize.toNat + config.tsSize.toNat := by
  rw [databases, extent_filter_isEnabled]
  simp [Database.all, partitionSize]

/-- The total is exact wherever the exact sum is a word. -/
theorem toNat_totalSize_of_lt
    (hword : config.extent config.databases < UInt64.size) :
    config.totalSize.toNat = config.extent config.databases := by
  rw [extent_databases] at hword ⊢
  rw [totalSize, Word.toNat_saturatingAdd]
  omega

end FlashStorage.Config
