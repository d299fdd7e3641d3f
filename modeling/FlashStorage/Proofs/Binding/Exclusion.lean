import FlashStorage.Proofs.Binding.Opening
import FlashStorage.Proofs.Lock.Exclusive
import Mathlib.Data.List.Count

/-!
# One session at a time

Clients share a binding.  Each opens sessions, works in those that it has and drops
them, and their steps come in any order.  An attempt on a hook that is held waits: it
leaves everything as it is, and the client may try again later.  Every step takes one
hook for a new session, gives one back with a session, or leaves both hooks and all
sessions alone.  So a hook is held exactly while its database has a session, and was
taken once more than it was given back for each session that is open.
-/

namespace FlashStorage

/-! ## Openings -/

/-- How an attempt to open a session ends. -/
inductive Binding.OpenEnd {χ κ : Type} [LockHook κ] (binding : Binding χ κ)
    (database : Database) :
    Outcome BindingError Session × Binding χ κ → Prop where
  | missing (hnone : binding.partition? database = none) :
      OpenEnd binding database (.error (.partitionMissing database), binding)
  | waiting {partition : Partition}
      (hfound : binding.partition? database = some partition)
      (hheld : LockHook.acquire? (binding.locks.get database) = none) :
      OpenEnd binding database (.halt .lockHeld, binding)
  | opened {partition : Partition} {taken : κ}
      (hfound : binding.partition? database = some partition)
      (htaken : LockHook.acquire? (binding.locks.get database) =
        some taken) :
      OpenEnd binding database (.ok ⟨partition⟩,
        { binding with locks := binding.locks.set database taken })

theorem Binding.openSession_end {χ κ : Type} [LockHook κ]
    (binding : Binding χ κ) (database : Database) :
    binding.OpenEnd database (binding.openSession database) := by
  unfold Binding.openSession
  cases hfound : binding.partition? database with
  | none => exact .missing hfound
  | some partition =>
      cases htaken : LockHook.acquire? (binding.locks.get database) with
      | none => exact .waiting hfound htaken
      | some taken => exact .opened hfound htaken

/-! ## Clients of a binding -/

/-- A session in the hands of a client, and the database it was opened for. -/
structure Lease where
  client : Nat
  database : Database
  session : Session
deriving DecidableEq, Repr

/-- A binding and the sessions that its clients have open. -/
structure Service (χ κ : Type) where
  binding : Binding χ κ
  leases : List Lease

namespace Service

/-- A step of some client. -/
inductive Step where
  | attempt (client : Nat) (database : Database)
  | access (lease : Lease) (access : Access)
  | drop (lease : Lease)

section

variable {χ κ : Type}

/-- A binding that nobody has a session of. -/
def idle (binding : Binding χ κ) : Service χ κ := ⟨binding, []⟩

/-- How many sessions of a database are open. -/
def openCount (leases : List Lease) (database : Database) : Nat :=
  leases.countP (fun lease => lease.database == database)

variable [Chip χ] [LockHook κ]

/-- What a step makes of a service.  A client that has no such session can neither
use nor drop it. -/
def step (service : Service χ κ) : Step → Service χ κ
  | .attempt client database =>
      match service.binding.openSession database with
      | (.ok session, binding) =>
          ⟨binding, ⟨client, database, session⟩ :: service.leases⟩
      | (.error _, binding) => { service with binding := binding }
      | (.halt _, binding) => { service with binding := binding }
  | .access lease access =>
      if lease ∈ service.leases then
        { service with
          binding := (service.binding.perform lease.session access).2 }
      else service
  | .drop lease =>
      if lease ∈ service.leases then
        ⟨service.binding.closeSession lease.session,
          service.leases.erase lease⟩
      else service

/-- The service after some steps, the first of them taken first. -/
def run (service : Service χ κ) (steps : List Step) : Service χ κ :=
  steps.foldl step service

end

/-! ## Counting sessions -/

theorem openCount_cons (lease : Lease) (leases : List Lease)
    (database : Database) :
    openCount (lease :: leases) database =
      openCount leases database +
        if lease.database = database then 1 else 0 := by
  simp [openCount, List.countP_cons]

theorem openCount_pos {lease : Lease} {leases : List Lease}
    (hmem : lease ∈ leases) : 0 < openCount leases lease.database :=
  List.countP_pos_iff.mpr ⟨lease, hmem, by simp⟩

theorem openCount_erase {lease : Lease} {leases : List Lease}
    (hmem : lease ∈ leases) (database : Database) :
    openCount (leases.erase lease) database =
      openCount leases database -
        if lease.database = database then 1 else 0 := by
  simp [openCount, List.countP_erase, hmem]

/-! ## What a step does to the hooks -/

section

variable {χ κ : Type} [LockHook κ]

inductive Effect (service : Service χ κ) : Service χ κ → Prop where
  | kept {after : Service χ κ}
      (hlocks : after.binding.locks = service.binding.locks)
      (hleases : after.leases = service.leases) : Effect service after
  | taken {after : Service χ κ} {hook : κ} (lease : Lease)
      (htaken : LockHook.acquire?
        (service.binding.locks.get lease.database) = some hook)
      (hdatabase : lease.session.partition.database = lease.database)
      (hlocks : after.binding.locks =
        service.binding.locks.set lease.database hook)
      (hleases : after.leases = lease :: service.leases) :
      Effect service after
  | given {after : Service χ κ} (lease : Lease)
      (hmem : lease ∈ service.leases)
      (hlocks : after.binding.locks =
        service.binding.locks.set lease.session.partition.database
          (LockHook.release (service.binding.locks.get
            lease.session.partition.database)))
      (hleases : after.leases = service.leases.erase lease) :
      Effect service after

variable [Chip χ]

theorem step_effect (service : Service χ κ) (step : Step) :
    service.Effect (service.step step) := by
  cases step with
  | attempt client database =>
      have hend := service.binding.openSession_end database
      cases hopen : service.binding.openSession database with
      | mk outcome opened =>
          rw [hopen] at hend
          simp only [Service.step, hopen]
          cases hend with
          | missing _ => exact .kept rfl rfl
          | waiting _ _ => exact .kept rfl rfl
          | @opened partition hook hfound htaken =>
              obtain ⟨_, _, hdatabase⟩ := Binding.partition?_eq_some hfound
              exact .taken ⟨client, database, ⟨partition⟩⟩ htaken hdatabase
                rfl rfl
  | access lease access =>
      simp only [Service.step]
      split
      · exact .kept rfl rfl
      · exact .kept rfl rfl
  | drop lease =>
      simp only [Service.step]
      split
      next hmem => exact .given lease hmem rfl rfl
      · exact .kept rfl rfl

theorem binding_step_attempt (service : Service χ κ) (client : Nat)
    (database : Database) :
    (service.step (.attempt client database)).binding =
      (service.binding.openSession database).2 := by
  simp only [Service.step]
  split
  next hopen => rw [hopen]
  next hopen => rw [hopen]
  next hopen => rw [hopen]

theorem locks_step_access (service : Service χ κ) (lease : Lease)
    (access : Access) :
    (service.step (.access lease access)).binding.locks =
      service.binding.locks := by
  simp only [Service.step]
  split
  · rfl
  · rfl

theorem step_attempt_of_refused {service : Service χ κ} {database : Database}
    (hrefused : ∀ session,
      (service.binding.openSession database).1 ≠ .ok session)
    (client : Nat) :
    service.step (.attempt client database) = service := by
  have hend := service.binding.openSession_end database
  cases hopen : service.binding.openSession database with
  | mk outcome opened =>
      rw [hopen] at hend hrefused
      simp only [Service.step, hopen]
      cases hend with
      | missing _ => rfl
      | waiting _ _ => rfl
      | opened _ _ => exact absurd rfl (hrefused _)

theorem hook_step_attempt_of_ne (service : Service χ κ) (client : Nat)
    {database other : Database} (hne : other ≠ database) :
    (service.step (.attempt client database)).binding.locks.get other =
      service.binding.locks.get other := by
  rw [binding_step_attempt]
  have hend := service.binding.openSession_end database
  cases hopen : service.binding.openSession database with
  | mk outcome opened =>
      rw [hopen] at hend
      cases hend with
      | missing _ => rfl
      | waiting _ _ => rfl
      | opened _ _ => exact PerDatabase.get_set_of_ne _ _ hne

theorem continues_step {binding : Binding χ κ} {service : Service χ κ}
    (hnow : binding.Continues service.binding) (step : Step) :
    binding.Continues (service.step step).binding := by
  cases step with
  | attempt client database =>
      rw [binding_step_attempt]
      exact Binding.continues_openSession hnow database
  | access lease access =>
      simp only [Service.step]
      split
      · exact Binding.continues_perform hnow lease.session access
      · exact hnow
  | drop lease =>
      simp only [Service.step]
      split
      · exact ⟨hnow.table_eq, hnow.device_eq, hnow.initialized_eq⟩
      · exact hnow

theorem continues_run {binding : Binding χ κ} {service : Service χ κ}
    (hnow : binding.Continues service.binding) (steps : List Step) :
    binding.Continues (service.run steps).binding := by
  induction steps generalizing service with
  | nil => exact hnow
  | cons step rest ih => exact ih (continues_step hnow step)

end

/-! ## Hooks and sessions go together -/

section

open ExclusiveHook

variable {χ κ : Type} [ExclusiveHook κ] {service after : Service χ κ}
  {lease : Lease} {database : Database}

/-- Sessions are on partitions of the database they were opened for, and a database
has one while its hook is held and none while it is free. -/
structure Orderly (service : Service χ κ) : Prop where
  database_eq : ∀ lease ∈ service.leases,
    lease.session.partition.database = lease.database
  openCount_eq : ∀ database, openCount service.leases database =
    if held (service.binding.locks.get database) then 1 else 0

theorem orderly_idle {binding : Binding χ κ}
    (hfree : ∀ database, held (binding.locks.get database) = false) :
    (idle binding).Orderly := by
  refine ⟨?_, ?_⟩
  · intro lease hmem
    cases hmem
  · intro database
    change 0 = if held (binding.locks.get database) then 1 else 0
    rw [hfree database]
    rfl

theorem Orderly.held_of_mem (horderly : service.Orderly)
    (hmem : lease ∈ service.leases) :
    held (service.binding.locks.get lease.database) = true := by
  have hpos := openCount_pos hmem
  rw [horderly.openCount_eq] at hpos
  by_contra hfree
  rw [if_neg hfree] at hpos
  exact Nat.lt_irrefl 0 hpos

/-- The hook that a new session takes was free, and the one that a session gives back,
that of its partition, was held: a database never has a second session to count. -/
theorem Orderly.of_effect (horderly : service.Orderly)
    (heffect : service.Effect after) : after.Orderly := by
  obtain ⟨hdatabases, hcount⟩ := horderly
  cases heffect with
  | kept hlocks hleases =>
      refine ⟨?_, ?_⟩
      · rw [hleases]
        exact hdatabases
      · rw [hleases, hlocks]
        exact hcount
  | taken lease htaken hdatabase hlocks hleases =>
      have hfree := held_eq_false_of_acquire? htaken
      have hheld := held_of_acquire? _ _ htaken
      refine ⟨?_, ?_⟩
      · rw [hleases]
        intro other hmem
        cases hmem with
        | head => exact hdatabase
        | tail _ hmem => exact hdatabases other hmem
      · intro database
        rw [hleases, hlocks, openCount_cons, hcount database]
        by_cases hsame : lease.database = database
        · subst hsame
          rw [PerDatabase.get_set_self, hfree, hheld]
          simp
        · rw [PerDatabase.get_set_of_ne _ _ (Ne.symm hsame), if_neg hsame,
            Nat.add_zero]
  | given lease hmem hlocks hleases =>
      rw [hdatabases lease hmem] at hlocks
      have hheld := Orderly.held_of_mem ⟨hdatabases, hcount⟩ hmem
      refine ⟨?_, ?_⟩
      · rw [hleases]
        intro other hother
        exact hdatabases other (List.mem_of_mem_erase hother)
      · intro database
        rw [hleases, hlocks, openCount_erase hmem, hcount database]
        by_cases hsame : lease.database = database
        · subst hsame
          rw [PerDatabase.get_set_self, hheld, held_release]
          simp
        · rw [PerDatabase.get_set_of_ne _ _ (Ne.symm hsame), if_neg hsame,
            Nat.sub_zero]

theorem Orderly.openCount_le_one (horderly : service.Orderly)
    (database : Database) : openCount service.leases database ≤ 1 := by
  rw [horderly.openCount_eq]
  split
  · exact Nat.le_refl 1
  · exact Nat.zero_le 1

theorem Orderly.held_iff (horderly : service.Orderly) (database : Database) :
    held (service.binding.locks.get database) = true ↔
      openCount service.leases database = 1 := by
  rw [horderly.openCount_eq]
  cases held (service.binding.locks.get database) <;> simp

theorem Orderly.held_eq_false_iff (horderly : service.Orderly)
    (database : Database) :
    held (service.binding.locks.get database) = false ↔
      openCount service.leases database = 0 := by
  rw [horderly.openCount_eq]
  cases held (service.binding.locks.get database) <;> simp

theorem Orderly.openSession_of_closed {partition : Partition}
    (horderly : service.Orderly)
    (hfound : service.binding.partition? database = some partition)
    (hclosed : openCount service.leases database = 0) :
    (service.binding.openSession database).1 = .ok ⟨partition⟩ := by
  have hfree := (horderly.held_eq_false_iff database).mpr hclosed
  obtain ⟨taken, htaken⟩ := exists_acquire?_eq_some hfree
  rw [Binding.openSession_of_some hfound htaken]

theorem Orderly.openSession_of_open {partition : Partition}
    (horderly : service.Orderly)
    (hfound : service.binding.partition? database = some partition)
    (hopen : openCount service.leases database = 1) :
    (service.binding.openSession database).1 = .halt .lockHeld := by
  have hheld := (horderly.held_iff database).mpr hopen
  have hnone := (acquire?_eq_none_iff _).mpr hheld
  rw [Binding.openSession_of_held hfound hnone]

theorem Orderly.hook_step_drop_of_ne [Chip χ] (horderly : service.Orderly)
    {other : Database} (hne : other ≠ lease.database) :
    (service.step (.drop lease)).binding.locks.get other =
      service.binding.locks.get other := by
  simp only [Service.step]
  split
  next hmem =>
    rw [← horderly.database_eq lease hmem] at hne
    exact PerDatabase.get_set_of_ne _ _ hne
  · rfl

theorem Orderly.run [Chip χ] (horderly : service.Orderly)
    (steps : List Step) : (service.run steps).Orderly := by
  induction steps generalizing service with
  | nil => exact horderly
  | cons step rest ih => exact ih (horderly.of_effect (service.step_effect step))

end

/-! ## Hooks behind tallies -/

section

variable {χ κ : Type} [LockHook κ] {service after : Service χ (Tallied κ)}

/-- Each hook was taken once more than it was given back for every open session of its
database. -/
def Balanced (service : Service χ (Tallied κ)) : Prop :=
  ∀ database, (service.binding.locks.get database).taken =
    (service.binding.locks.get database).released +
      openCount service.leases database

theorem Balanced.of_effect (hbalanced : service.Balanced)
    (hdatabases : ∀ lease ∈ service.leases,
      lease.session.partition.database = lease.database)
    (heffect : service.Effect after) : after.Balanced := by
  intro database
  have hdatabase := hbalanced database
  cases heffect with
  | kept hlocks hleases =>
      rw [hleases, hlocks]
      exact hdatabase
  | taken lease htaken _ hlocks hleases =>
      rw [hleases, hlocks, openCount_cons]
      by_cases hsame : lease.database = database
      · subst hsame
        obtain ⟨hnextTaken, hnextReleased⟩ := Tallied.counts_of_acquire? htaken
        rw [PerDatabase.get_set_self, hnextTaken, hnextReleased, hdatabase,
          if_pos rfl, Nat.add_assoc]
      · rw [PerDatabase.get_set_of_ne _ _ (Ne.symm hsame), if_neg hsame]
        exact hdatabase
  | given lease hmem hlocks hleases =>
      rw [hdatabases lease hmem] at hlocks
      rw [hleases, hlocks, openCount_erase hmem]
      by_cases hsame : lease.database = database
      · subst hsame
        have hpos := openCount_pos hmem
        rw [PerDatabase.get_set_self, if_pos rfl, Tallied.taken_release,
          Tallied.released_release]
        omega
      · rw [PerDatabase.get_set_of_ne _ _ (Ne.symm hsame), if_neg hsame]
        exact hdatabase

end

theorem Balanced.run {χ κ : Type} [Chip χ] [ExclusiveHook κ]
    {service : Service χ (Tallied κ)} (hbalanced : service.Balanced)
    (horderly : service.Orderly) (steps : List Step) :
    (service.run steps).Balanced := by
  induction steps generalizing service with
  | nil => exact hbalanced
  | cons step rest ih =>
      have heffect := service.step_effect step
      exact ih (hbalanced.of_effect horderly.database_eq heffect)
        (horderly.of_effect heffect)

end Service

/-! ## Tallies go unnoticed -/

namespace Binding

variable {χ κ : Type}

/-- The binding with a tally put in front of each hook. -/
def tallied (binding : Binding χ κ) : Binding χ (Tallied κ) :=
  ⟨binding.adapter, binding.table, binding.config, binding.timestampWidth,
    binding.locks.map Tallied.ofHook⟩

/-- The binding with the tallies taken off. -/
def untallied (binding : Binding χ (Tallied κ)) : Binding χ κ :=
  ⟨binding.adapter, binding.table, binding.config, binding.timestampWidth,
    binding.locks.map Tallied.hook⟩

variable [LockHook κ]

theorem openSession_untallied (binding : Binding χ (Tallied κ))
    (database : Database) :
    binding.untallied.openSession database =
      ((binding.openSession database).1,
        (binding.openSession database).2.untallied) := by
  have hhook : LockHook.acquire? (binding.untallied.locks.get database) =
      (LockHook.acquire? (binding.locks.get database)).map Tallied.hook := by
    rw [Tallied.hook_acquire?, ← PerDatabase.get_map Tallied.hook]
    rfl
  cases hfound : binding.partition? database with
  | none =>
      rw [openSession_of_none hfound]
      exact openSession_of_none hfound
  | some partition =>
      cases htaken : LockHook.acquire? (binding.locks.get database) with
      | none =>
          rw [htaken] at hhook
          rw [openSession_of_held hfound htaken]
          exact openSession_of_held hfound hhook
      | some taken =>
          rw [htaken] at hhook
          rw [openSession_of_some hfound htaken]
          have hopen : binding.untallied.openSession database = _ :=
            openSession_of_some hfound hhook
          rw [hopen]
          simp only [untallied, PerDatabase.map_set]

theorem closeSession_untallied (binding : Binding χ (Tallied κ))
    (session : Session) :
    binding.untallied.closeSession session =
      (binding.closeSession session).untallied := by
  simp only [closeSession, untallied, PerDatabase.map_set,
    PerDatabase.get_map, Tallied.hook_release]

end Binding

namespace Service

variable {χ κ : Type}

def untallied (service : Service χ (Tallied κ)) : Service χ κ :=
  ⟨service.binding.untallied, service.leases⟩

variable [Chip χ] [LockHook κ]

theorem step_untallied (service : Service χ (Tallied κ)) (step : Step) :
    service.untallied.step step = (service.step step).untallied := by
  cases step with
  | attempt client database =>
      have hopen := service.binding.openSession_untallied database
      simp only [Service.step, untallied, hopen]
      cases service.binding.openSession database with
      | mk outcome opened => cases outcome <;> rfl
  | access lease access =>
      by_cases hmem : lease ∈ service.leases
      · have hstep : service.step (.access lease access) = _ := if_pos hmem
        rw [hstep]
        exact if_pos hmem
      · have hstep : service.step (.access lease access) = _ := if_neg hmem
        rw [hstep]
        exact if_neg hmem
  | drop lease =>
      have hclose := service.binding.closeSession_untallied lease.session
      by_cases hmem : lease ∈ service.leases
      · have hstep : service.step (.drop lease) = _ := if_pos hmem
        have huntallied : service.untallied.step (.drop lease) = _ :=
          if_pos hmem
        rw [hstep, huntallied]
        simp only [untallied, hclose]
      · have hstep : service.step (.drop lease) = _ := if_neg hmem
        rw [hstep]
        exact if_neg hmem

theorem run_untallied (service : Service χ (Tallied κ)) (steps : List Step) :
    service.untallied.run steps = (service.run steps).untallied := by
  induction steps generalizing service with
  | nil => rfl
  | cons step rest ih =>
      change (service.untallied.step step).run rest = _
      rw [step_untallied, ih]
      rfl

end Service

/-! ## Whatever the clients do -/

section

open ExclusiveHook Service

variable {χ κ : Type} [Chip χ] [ExclusiveHook κ] {binding : Binding χ κ}

/-- What holds between any two steps of the clients of a binding, as tallied hooks show
it. -/
structure Service.Guarded (now : Service χ (Tallied κ))
    (binding : Binding χ κ) : Prop where
  held_iff : ∀ database,
    held (now.binding.locks.get database) = true ↔
      openCount now.leases database = 1
  openCount_le_one : ∀ database, openCount now.leases database ≤ 1
  taken_eq : ∀ database,
    (now.binding.locks.get database).taken =
      (now.binding.locks.get database).released +
        openCount now.leases database
  free_of_no_leases : now.leases = [] → ∀ database,
    held (now.binding.locks.get database) = false ∧
      (now.binding.locks.get database).taken =
        (now.binding.locks.get database).released
  /-- Without a partition an attempt fails. -/
  missing : ∀ database, binding.partition? database = none →
    (now.binding.openSession database).1 =
      .error (.partitionMissing database)
  /-- Only sessions of the same database are in the way of an attempt. -/
  opens : ∀ database partition,
    binding.partition? database = some partition →
    openCount now.leases database = 0 →
      (now.binding.openSession database).1 = .ok ⟨partition⟩
  waits : ∀ database partition,
    binding.partition? database = some partition →
    openCount now.leases database = 1 →
      (now.binding.openSession database).1 = .halt .lockHeld
  refused : ∀ client database,
    (∀ session, (now.binding.openSession database).1 ≠ .ok session) →
      now.step (.attempt client database) = now
  access : ∀ lease access,
    (now.step (.access lease access)).binding.locks = now.binding.locks
  attempt_apart : ∀ client database other, other ≠ database →
    (now.step (.attempt client database)).binding.locks.get other =
      now.binding.locks.get other
  drop_apart : ∀ lease other, other ≠ lease.database →
    (now.step (.drop lease)).binding.locks.get other =
      now.binding.locks.get other

theorem Service.guarded_of_orderly {now : Service χ (Tallied κ)}
    (horderly : now.Orderly) (hbalanced : now.Balanced)
    (hcontinues : binding.tallied.Continues now.binding) :
    now.Guarded binding := by
  have hpartition : ∀ database, now.binding.partition? database =
      binding.partition? database := hcontinues.partition?_eq
  constructor
  case held_iff => exact horderly.held_iff
  case openCount_le_one => exact horderly.openCount_le_one
  case taken_eq => exact hbalanced
  case free_of_no_leases =>
    intro hnone database
    have hclosed : openCount now.leases database = 0 := by
      rw [hnone]
      rfl
    have htaken := hbalanced database
    rw [hclosed, Nat.add_zero] at htaken
    exact ⟨(horderly.held_eq_false_iff database).mpr hclosed, htaken⟩
  case missing =>
    intro database hnone
    rw [← hpartition] at hnone
    rw [Binding.openSession_of_none hnone]
  case opens =>
    intro database partition hfound
    rw [← hpartition] at hfound
    exact horderly.openSession_of_closed hfound
  case waits =>
    intro database partition hfound
    rw [← hpartition] at hfound
    exact horderly.openSession_of_open hfound
  case refused =>
    intro client database hrefused
    exact step_attempt_of_refused hrefused client
  case access => exact now.locks_step_access
  case attempt_apart =>
    intro client database other hne
    exact now.hook_step_attempt_of_ne client hne
  case drop_apart =>
    intro lease other hne
    exact horderly.hook_step_drop_of_ne hne

/-- Whatever its clients do, and in whatever order, a binding with free exclusive hooks
has one session of each database at most, and the hook of a database is held exactly
while it has one.  Each hook was taken as often as it was given back, and once more
while its session is open.  An attempt fails without a partition, waits for a session
of the same database only, and otherwise opens one; unless it does, it changes
nothing.  Accesses leave both hooks alone, and so do openings and drops with the hook
of the other database.  The tallies that show this change nothing else. -/
theorem one_session_per_database
    (hfree : ∀ database, held (binding.locks.get database) = false)
    (steps : List Step) :
    ((idle binding.tallied).run steps).untallied =
        (idle binding).run steps ∧
      ((idle binding.tallied).run steps).Guarded binding := by
  have htallied : ∀ database,
      held (binding.tallied.locks.get database) = false := by
    intro database
    cases database with
    | kv => exact hfree .kv
    | ts => exact hfree .ts
  have hidle := orderly_idle htallied
  have hbalanced : (idle binding.tallied).Balanced := by
    intro database
    cases database with
    | kv => rfl
    | ts => rfl
  have hstart : binding.tallied.Continues (idle binding.tallied).binding :=
    Binding.continues_refl binding.tallied
  refine ⟨((idle binding.tallied).run_untallied steps).symm, ?_⟩
  exact guarded_of_orderly (hidle.run steps) (hbalanced.run hidle steps)
    (continues_run hstart steps)

end

namespace SmallBoard

/-- The small board with a free spin lock for each database. -/
def shared : Binding SimulatedChip SpinLock :=
  ⟨ready, table, config, .bits32, ⟨SpinLock.free, SpinLock.free⟩⟩

def lease (client : Nat) (database : Database) : Lease :=
  ⟨client, database, session database⟩

/-- Three clients, the last of which has to wait for the first. -/
def clientSteps : List Service.Step :=
  [.attempt 0 .kv, .attempt 1 .ts, .attempt 2 .kv,
    .access (lease 0 .kv) (.erase 0 16), .drop (lease 0 .kv),
    .attempt 2 .kv]

end SmallBoard

/-- On the small board a client gets the session that it waited for, next to one of
the other database. -/
theorem one_session_per_database_smallBoard :
    ∃ now, (Service.idle SmallBoard.shared.tallied).run
        SmallBoard.clientSteps = now ∧
      now.leases = [SmallBoard.lease 2 .kv, SmallBoard.lease 1 .ts] ∧
      now.Guarded SmallBoard.shared := by
  refine ⟨_, rfl, rfl, ?_⟩
  exact (one_session_per_database (by
    intro database
    cases database <;> rfl) SmallBoard.clientSteps).2

end FlashStorage
