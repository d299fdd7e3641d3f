import FlashStorage.Proofs.Adapter.Routing
import FlashStorage.Proofs.Binding.Addressing
import FlashStorage.Proofs.Chip.Locality

/-!
# Databases do not interfere

Both databases work on one chip through one adapter, in any order.  What an access
of a session comes to is decided by the device alone or by the cells of its
partition, and only these cells can change.  As partitions of different databases
share no byte, a database sees what it would see if it were alone: this is proved
for one access and carried over a run by induction, with the whole run and the run
of one database side by side.
-/

namespace FlashStorage

/-! ## Where an access ends up -/

section

variable {χ : Type} {one other : Adapter χ} {access : Access}
  {session : Session}

/-- Adapters of one device, both of them up or neither. -/
structure Adapter.Alike (one other : Adapter χ) : Prop where
  device_eq : other.device = one.device
  initialized_eq : other.initialized = one.initialized

/-- The absolute addresses of a partition of a device. -/
def Partition.zone (partition : Partition) (device : Device) : Set Nat :=
  Set.Ico (device.base.toNat + partition.offset.toNat)
    (device.base.toNat + partition.offset.toNat + partition.length.toNat)

variable [Chip χ]

/-- An access is answered without the chip, in the same way by all adapters that
are alike, or it goes to the chip at the same address. -/
theorem Adapter.perform_cases (one : Adapter χ) (access : Access) :
    (∃ result, ∀ other : Adapter χ, one.Alike other →
      other.perform access = (⟨result, access.buffer⟩, other)) ∨
    ∃ address : UInt64,
      address.toNat = one.device.base.toNat + access.start.toNat ∧
        ∀ other : Adapter χ, one.Alike other →
          other.perform access = other.reach access address := by
  have hfollow : ∀ other : Adapter χ, one.Alike other →
      other.perform access =
        other.follow access (one.device.route one.initialized access) := by
    intro other halike
    rw [other.perform_eq_follow, halike.device_eq, halike.initialized_eq]
  cases hroute : one.device.route one.initialized access with
  | answered result =>
      left
      refine ⟨result, ?_⟩
      intro other halike
      rw [hfollow other halike, hroute]
      rfl
  | forwarded address =>
      right
      obtain ⟨_, _, _, _, haddress⟩ :=
        Device.route_eq_forwarded_iff.mp hroute
      refine ⟨address, haddress, ?_⟩
      intro other halike
      rw [hfollow other halike, hroute]
      rfl

/-- An access of a session that goes to the chip stays in the partition. -/
theorem Session.perform_cases (hfits : session.Fits one.device)
    (access : Access) :
    (∃ result, ∀ other : Adapter χ, one.Alike other →
      session.perform other access = (⟨result, access.buffer⟩, other)) ∨
    ∃ address : UInt64,
      (access.moveTo address).zone ⊆ session.partition.zone one.device ∧
        ∀ other : Adapter χ, one.Alike other →
          session.perform other access = other.reach access address := by
  by_cases hin : session.Confines access
  · have hinside : ∀ other : Adapter χ, one.Alike other →
        session.perform other access = other.perform
          (access.moveTo (session.partition.offset + access.start)) := by
      intro other halike
      rw [← halike.device_eq] at hfits
      exact Session.perform_of_confined hfits hin
    rcases one.perform_cases
        (access.moveTo (session.partition.offset + access.start)) with
      ⟨result, hsame⟩ | ⟨address, haddress, hsame⟩
    · left
      refine ⟨result, ?_⟩
      intro other halike
      rw [hinside other halike, hsame other halike, Access.buffer_moveTo]
    · right
      refine ⟨address, ?_, ?_⟩
      · rw [Access.start_moveTo, Session.toNat_offset_add hfits hin] at haddress
        intro cell hcell
        unfold Access.zone at hcell
        unfold Partition.zone
        unfold Session.Confines at hin
        rw [Set.mem_Ico, Access.start_moveTo, Access.length_moveTo] at hcell
        rw [Set.mem_Ico]
        omega
      · intro other halike
        rw [hinside other halike, hsame other halike]
        unfold Adapter.reach
        rw [Access.moveTo_moveTo, Access.length_moveTo]
  · left
    refine ⟨.error .outOfRange, ?_⟩
    intro other _
    exact Session.perform_of_not_confined hin

end

/-! ## One access of a session on simulated cells -/

section

variable {zone : Set Nat} {one other adapter : Adapter SimulatedChip}
  {session : Session}

theorem Adapter.alike_refl (adapter : Adapter SimulatedChip) :
    adapter.Alike adapter :=
  ⟨rfl, rfl⟩

theorem Session.agreeIn_perform (hunlimited : adapter.chip.budget = none)
    (hfits : session.Fits adapter.device)
    (hapart : ∀ address ∈ zone,
      address ∉ session.partition.zone adapter.device)
    (access : Access) :
    adapter.chip.AgreeIn zone (session.perform adapter access).2.chip := by
  rcases Session.perform_cases hfits access with
    ⟨result, hsame⟩ | ⟨address, hinside, hsame⟩
  · rw [hsame adapter adapter.alike_refl]
    exact SimulatedChip.agreeIn_refl zone adapter.chip
  · rw [hsame adapter adapter.alike_refl]
    apply SimulatedChip.agreeIn_perform hunlimited
    intro cell hcell hreached
    exact hapart cell hcell (hinside hreached)

/-- A chip without a write budget stays without one. -/
theorem Session.budget_perform (hunlimited : adapter.chip.budget = none)
    (hfits : session.Fits adapter.device) (access : Access) :
    (session.perform adapter access).2.chip.budget = none := by
  have hnowhere : ∀ address ∈ (∅ : Set Nat),
      address ∉ session.partition.zone adapter.device := by
    intro address hmem
    exact hmem.elim
  have hagree := Session.agreeIn_perform hunlimited hfits hnowhere access
  exact hagree.budget_eq.trans hunlimited

theorem Session.perform_eq_of_agreeIn (hunlimited : one.chip.budget = none)
    (hfits : session.Fits one.device) (halike : one.Alike other)
    (hagree : one.chip.AgreeIn zone other.chip)
    (hzone : session.partition.zone one.device ⊆ zone) (access : Access) :
    (session.perform other access).1 = (session.perform one access).1 ∧
      (session.perform one access).2.chip.AgreeIn zone
        (session.perform other access).2.chip := by
  rcases Session.perform_cases hfits access with
    ⟨result, hsame⟩ | ⟨address, hinside, hsame⟩
  · rw [hsame one one.alike_refl, hsame other halike]
    exact ⟨rfl, hagree⟩
  · rw [hsame one one.alike_refl, hsame other halike]
    obtain ⟨hreply, hafter⟩ := SimulatedChip.perform_eq_of_agreeIn
      hunlimited hagree (fun _ hcell => hzone (hinside hcell))
    refine ⟨?_, hafter⟩
    simp only [Adapter.reach, hreply]

end

/-! ## Runs of operations -/

/-- An access in a session. -/
structure Operation where
  session : Session
  access : Access

/-- The database that an operation belongs to. -/
def Operation.database (operation : Operation) : Database :=
  operation.session.partition.database

/-- Whether an operation belongs to a database. -/
def Operation.isOf (database : Database) (operation : Operation) : Bool :=
  operation.database == database

/-- Operations that stay in a zone if they are chosen, and out of it if not. -/
structure Operation.Respects (operation : Operation) (device : Device)
    (zone : Set Nat) (chosen : Operation → Bool) : Prop where
  fits : operation.session.Fits device
  inside : chosen operation = true →
    operation.session.partition.zone device ⊆ zone
  outside : chosen operation = false →
    ∀ address ∈ zone, address ∉ operation.session.partition.zone device

namespace Binding

/-- Carry out operations one after the other and note down the replies. -/
def performAll {χ κ : Type} [Chip χ] (binding : Binding χ κ) :
    List Operation →
      List (Operation × Reply (Outcome DeviceError Unit)) × Binding χ κ
  | [] => ([], binding)
  | operation :: rest =>
      let (reply, next) :=
        binding.perform operation.session operation.access
      let (replies, last) := next.performAll rest
      ((operation, reply) :: replies, last)

variable {κ : Type} {device : Device} {zone : Set Nat}
  {chosen : Operation → Bool} {operation : Operation}
  {operations : List Operation} {whole alone : Binding SimulatedChip κ}

/-- Two bindings on one device, their chips without a write budget, that cannot be
told apart inside a zone. -/
structure Matches (device : Device) (zone : Set Nat)
    (whole alone : Binding SimulatedChip κ) : Prop where
  device_eq : whole.adapter.device = device
  alike : whole.adapter.Alike alone.adapter
  unlimited : whole.adapter.chip.budget = none
  agree : whole.adapter.chip.AgreeIn zone alone.adapter.chip

/-- A chosen operation gets the same reply on both sides. -/
theorem Matches.perform_chosen (hmatches : Matches device zone whole alone)
    (hrespects : operation.Respects device zone chosen)
    (hchosen : chosen operation = true) :
    (alone.perform operation.session operation.access).1 =
        (whole.perform operation.session operation.access).1 ∧
      Matches device zone
        (whole.perform operation.session operation.access).2
        (alone.perform operation.session operation.access).2 := by
  obtain ⟨hdevice, halike, hunlimited, hagree⟩ := hmatches
  subst hdevice
  obtain ⟨hreply, hafter⟩ := Session.perform_eq_of_agreeIn hunlimited
    hrespects.fits halike hagree (hrespects.inside hchosen) operation.access
  refine ⟨hreply, ?_, ⟨?_, ?_⟩, ?_, hafter⟩
  · exact Session.device_perform _ _ _
  · exact (Session.device_perform _ _ _).trans
      (halike.device_eq.trans (Session.device_perform _ _ _).symm)
  · exact (Session.initialized_perform _ _ _).trans
      (halike.initialized_eq.trans (Session.initialized_perform _ _ _).symm)
  · exact Session.budget_perform hunlimited hrespects.fits _

/-- An operation that is not chosen goes unnoticed on the other side. -/
theorem Matches.perform_other (hmatches : Matches device zone whole alone)
    (hrespects : operation.Respects device zone chosen)
    (hother : chosen operation = false) :
    Matches device zone
      (whole.perform operation.session operation.access).2 alone := by
  obtain ⟨hdevice, halike, hunlimited, hagree⟩ := hmatches
  subst hdevice
  have hframe := Session.agreeIn_perform hunlimited hrespects.fits
    (hrespects.outside hother) operation.access
  refine ⟨?_, ⟨?_, ?_⟩, ?_, hframe.symm.trans hagree⟩
  · exact Session.device_perform _ _ _
  · exact halike.device_eq.trans (Session.device_perform _ _ _).symm
  · exact halike.initialized_eq.trans (Session.initialized_perform _ _ _).symm
  · exact Session.budget_perform hunlimited hrespects.fits _

/-- The replies to the chosen operations of a run, and the zone that these stay in,
are those of the run without the others. -/
theorem Matches.performAll_filter (hmatches : Matches device zone whole alone)
    (hrespects : ∀ operation ∈ operations,
      operation.Respects device zone chosen) :
    (whole.performAll operations).1.filter (fun entry => chosen entry.1) =
        (alone.performAll (operations.filter chosen)).1 ∧
      Matches device zone (whole.performAll operations).2
        (alone.performAll (operations.filter chosen)).2 := by
  induction operations generalizing whole alone with
  | nil => exact ⟨rfl, hmatches⟩
  | cons operation rest ih =>
      have hfirst := hrespects operation List.mem_cons_self
      have hrest : ∀ later ∈ rest, later.Respects device zone chosen :=
        fun later hlater =>
          hrespects later (List.mem_cons_of_mem operation hlater)
      cases hchosen : chosen operation with
      | true =>
          obtain ⟨hreply, hnext⟩ := hmatches.perform_chosen hfirst hchosen
          obtain ⟨hreplies, hlast⟩ := ih hnext hrest
          simp only [performAll, List.filter_cons, hchosen, if_true]
          rw [hreplies, hreply]
          exact ⟨rfl, hlast⟩
      | false =>
          have hnext := hmatches.perform_other hfirst hchosen
          obtain ⟨hreplies, hlast⟩ := ih hnext hrest
          simp only [performAll, List.filter_cons, hchosen, Bool.false_eq_true,
            if_false]
          exact ⟨hreplies, hlast⟩

end Binding

/-! ## Runs after a successful start -/

namespace Binding

section

variable {χ κ : Type} {binding : Binding χ κ} {config : Config}
  {database : Database} {operation : Operation}

/-- The absolute addresses of the partition of a database. -/
def zone (binding : Binding χ κ) (database : Database) : Set Nat :=
  { address | ∃ partition ∈ binding.table.partitions,
    partition.database = database ∧
      address ∈ partition.zone binding.adapter.device }

/-- The absolute addresses that belong to no database. -/
def unused (binding : Binding χ κ) : Set Nat :=
  { address | ∀ database, address ∉ binding.zone database }

variable [Chip χ]

/-- Every reply of a run is the reply to one of the operations at some time in the
life of the binding. -/
theorem mem_performAll {now : Binding χ κ} {operations : List Operation}
    {entry : Operation × Reply (Outcome DeviceError Unit)}
    (hnow : Continues binding now)
    (hentry : entry ∈ (now.performAll operations).1) :
    entry.1 ∈ operations ∧
      ∃ moment : Binding χ κ, Continues binding moment ∧
        entry.2 =
          (moment.perform entry.1.session entry.1.access).1 := by
  induction operations generalizing now with
  | nil => cases hentry
  | cons operation rest ih =>
      simp only [performAll, List.mem_cons] at hentry
      rcases hentry with rfl | hlater
      · exact ⟨List.mem_cons_self, now, hnow, rfl⟩
      · obtain ⟨hmem, hmoment⟩ := ih (continues_perform hnow _ _) hlater
        exact ⟨List.mem_cons_of_mem operation hmem, hmoment⟩

variable [LockHook κ]

/-- An operation of an opened session stays in the partition of its database, and
out of the one of any other. -/
theorem respects_zone
    (hlaid : Registry.LaidOut config binding.adapter.device
      binding.table.partitions)
    (hopens : binding.Opens operation.database operation.session)
    (database : Database) :
    operation.Respects binding.adapter.device (binding.zone database)
      (Operation.isOf database) := by
  obtain ⟨hmem, _, _⟩ := partition?_eq_some hopens.partition?_eq
  refine ⟨(fits_of_opens hlaid hopens).1, ?_, ?_⟩
  · intro hchosen address haddress
    exact ⟨operation.session.partition, hmem, beq_iff_eq.mp hchosen, haddress⟩
  · rintro hother address ⟨partition, hpartition, hdatabase, hin⟩ haddress
    have hne : operation.session.partition.database ≠ partition.database := by
      rw [hdatabase]
      exact beq_eq_false_iff_ne.mp hother
    have hdisjoint := hlaid.disjoint_of_database_ne hmem hpartition hne
    unfold Partition.zone at hin haddress
    rw [Set.mem_Ico] at hin haddress
    omega

theorem respects_unused
    (hlaid : Registry.LaidOut config binding.adapter.device
      binding.table.partitions)
    (hopens : binding.Opens operation.database operation.session) :
    operation.Respects binding.adapter.device binding.unused
      (fun _ => false) := by
  obtain ⟨hmem, _, _⟩ := partition?_eq_some hopens.partition?_eq
  refine ⟨(fits_of_opens hlaid hopens).1, ?_, ?_⟩
  · intro hchosen
    cases hchosen
  · intro _ address hunused haddress
    exact hunused operation.database
      ⟨operation.session.partition, hmem, rfl, haddress⟩

end

section

variable {κ σ : Type} [RegionSource σ] {config : Config} {source : σ}
  {adapter ready : Adapter SimulatedChip}
  {registry committed : Registry} {table : Table} {locks : PerDatabase κ}
  {binding : Binding SimulatedChip κ}

theorem matches_self (hunlimited : binding.adapter.chip.budget = none)
    (zone : Set Nat) :
    Matches binding.adapter.device zone binding binding :=
  ⟨rfl, binding.adapter.alike_refl, hunlimited,
    SimulatedChip.agreeIn_refl zone binding.adapter.chip⟩

theorem budget_of_bringUp (hunlimited : adapter.chip.budget = none)
    (hup : bringUp config source adapter registry =
      (.ok table, ready, committed)) :
    ready.chip.budget = none := by
  obtain ⟨_, _, hchip⟩ := ready_of_bringUp hup
  rcases hchip with hsame | hinit
  · rw [hsame]
    exact hunlimited
  · rw [hinit]
    exact hunlimited

variable [LockHook κ]

/-- On a device inside the address space no operation of an opened session
halts. -/
theorem performAll_ne_halt {operations : List Operation}
    (hup : binding.adapter.initialized = true)
    (hlaid : Registry.LaidOut config binding.adapter.device
      binding.table.partitions)
    (hspace : binding.adapter.device.base.toNat +
      binding.adapter.device.length.toNat ≤ UInt64.size)
    (hopened : ∀ operation ∈ operations,
      binding.Opens operation.database operation.session) :
    ∀ entry ∈ (binding.performAll operations).1,
      ∀ reason, entry.2.result ≠ .halt reason := by
  intro entry hentry reason
  obtain ⟨hmem, now, hnow, hreply⟩ :=
    mem_performAll (continues_refl binding) hentry
  obtain ⟨hfits, hlength⟩ := fits_of_opens hlaid (hopened entry.1 hmem)
  have hstill : now.adapter.initialized = true :=
    hnow.initialized_eq.trans hup
  have hinside : now.adapter.device.base.toNat +
      entry.1.session.partition.offset.toNat +
        entry.1.session.partition.length.toNat ≤ UInt64.size := by
    rw [hnow.device_eq]
    unfold Session.Fits at hfits
    omega
  rw [← hnow.device_eq] at hfits
  rw [hreply]
  exact (Session.never_halts_iff hstill hfits hlength).mpr hinside _ reason

/-- On a chip without a write budget the operations of both databases, in any
order, get the replies and leave the partitions that the operations of each
database alone would.  None of them halts, and no byte outside the partitions
changes. -/
theorem databases_isolated
    (hunlimited : adapter.chip.budget = none)
    (hspace : adapter.device.base.toNat + adapter.device.length.toNat ≤ UInt64.size)
    (hup : bringUp config source adapter registry =
      (.ok table, ready, committed))
    (hbind : bind ready table config locks = .ok binding)
    (operations : List Operation)
    (hopened : ∀ operation ∈ operations,
      binding.Opens operation.database operation.session) :
    (∀ entry ∈ (binding.performAll operations).1,
      ∀ reason, entry.2.result ≠ .halt reason) ∧
    (∀ database,
      (binding.performAll operations).1.filter
          (fun entry => entry.1.isOf database) =
        (binding.performAll
          (operations.filter (Operation.isOf database))).1 ∧
      (binding.performAll
          (operations.filter (Operation.isOf database))).2.adapter.chip.AgreeIn
        (binding.zone database) (binding.performAll operations).2.adapter.chip) ∧
    binding.adapter.chip.AgreeIn binding.unused
      (binding.performAll operations).2.adapter.chip := by
  obtain ⟨hlaid, hready, _⟩ := laidOut_of_bind hup hbind
  obtain ⟨hdevice, hinitialized, _⟩ := ready_of_bringUp hup
  have hbudget : binding.adapter.chip.budget = none := by
    rw [hready]
    exact budget_of_bringUp hunlimited hup
  rw [← hdevice, ← hready] at hspace
  rw [← hready] at hinitialized
  refine ⟨performAll_ne_halt hinitialized hlaid hspace hopened, ?_, ?_⟩
  · intro database
    obtain ⟨hreplies, hlast⟩ :=
      (matches_self hbudget (binding.zone database)).performAll_filter
        (fun operation hmem =>
          respects_zone hlaid (hopened operation hmem) database)
    exact ⟨hreplies, hlast.agree.symm⟩
  · obtain ⟨_, hlast⟩ :=
      (matches_self hbudget binding.unused).performAll_filter
        (fun operation hmem => respects_unused hlaid (hopened operation hmem))
    rw [List.filter_false] at hlast
    exact hlast.agree.symm

end

end Binding

namespace SmallBoard

/-- A key-value byte is written, the time-series partition erased, and the byte
read back. -/
def operations : List Operation :=
  [⟨session .kv, .write 0 [0x5A]⟩, ⟨session .ts, .erase 0 16⟩,
    ⟨session .kv, .read 0 [0]⟩]

end SmallBoard

theorem databases_isolated_smallBoard :
    (SmallBoard.binding.performAll SmallBoard.operations).1.map
        (fun entry => entry.2) =
      [⟨.ok (), []⟩, ⟨.ok (), []⟩, ⟨.ok (), [0x5A]⟩] ∧
    (SmallBoard.binding.performAll SmallBoard.operations).1.filter
        (fun entry => entry.1.isOf .kv) =
      (SmallBoard.binding.performAll
        (SmallBoard.operations.filter (Operation.isOf .kv))).1 ∧
    SmallBoard.binding.adapter.chip.AgreeIn SmallBoard.binding.unused
      (SmallBoard.binding.performAll
        SmallBoard.operations).2.adapter.chip := by
  have hopened : ∀ operation ∈ SmallBoard.operations,
      SmallBoard.binding.Opens operation.database operation.session := by
    intro operation hmem
    simp only [SmallBoard.operations, List.mem_cons, List.not_mem_nil,
      or_false] at hmem
    rcases hmem with rfl | rfl | rfl
    · exact SmallBoard.opens .kv
    · exact SmallBoard.opens .ts
    · exact SmallBoard.opens .kv
  obtain ⟨_, halone, hunused⟩ := Binding.databases_isolated
    (show SmallBoard.adapter.chip.budget = none from rfl) (by decide)
    SmallBoard.bringUp_eq SmallBoard.bind_eq SmallBoard.operations hopened
  exact ⟨by decide, (halone .kv).1, hunused⟩

end FlashStorage
