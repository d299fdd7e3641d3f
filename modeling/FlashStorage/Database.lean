/-!
# The two databases

Storage is shared by a key-value database and a time-series database.  Wherever
something exists once for each of them, it is kept as a pair indexed by the
database.
-/

namespace FlashStorage

inductive Database where
  | kv
  | ts
deriving DecidableEq, Repr

namespace Database

/-- The name a database goes by in messages. -/
def label : Database → String
  | .kv => "kvdb"
  | .ts => "tsdb"

/-- Both databases, in the order in which their partitions are laid out. -/
def all : List Database := [.kv, .ts]

@[simp] theorem mem_all (database : Database) : database ∈ all := by
  cases database <;> simp [all]

end Database

/-- One value for each database. -/
structure PerDatabase (α : Type) where
  kv : α
  ts : α
deriving DecidableEq, Repr

namespace PerDatabase

variable {α β : Type}

def get (pair : PerDatabase α) : Database → α
  | .kv => pair.kv
  | .ts => pair.ts

def set (pair : PerDatabase α) (database : Database) (value : α) :
    PerDatabase α :=
  match database with
  | .kv => { pair with kv := value }
  | .ts => { pair with ts := value }

def map (f : α → β) (pair : PerDatabase α) : PerDatabase β :=
  ⟨f pair.kv, f pair.ts⟩

@[simp] theorem get_set_self (pair : PerDatabase α) (database : Database)
    (value : α) : (pair.set database value).get database = value := by
  cases database <;> rfl

theorem get_set_of_ne (pair : PerDatabase α) {database other : Database}
    (value : α) (hne : other ≠ database) :
    (pair.set database value).get other = pair.get other := by
  cases database <;> cases other <;> simp_all [set, get]

@[simp] theorem get_map (f : α → β) (pair : PerDatabase α)
    (database : Database) : (pair.map f).get database = f (pair.get database) := by
  cases database <;> rfl

theorem map_set (f : α → β) (pair : PerDatabase α) (database : Database)
    (value : α) :
    (pair.set database value).map f = (pair.map f).set database (f value) := by
  cases database <;> rfl

end PerDatabase

end FlashStorage
