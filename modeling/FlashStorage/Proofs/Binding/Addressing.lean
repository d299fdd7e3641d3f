import FlashStorage.Proofs.Binding.Opening

/-!
# Addresses of accesses

A session moves an access into its partition and the adapter moves it on to an
absolute address.  Up to the device all is tested: a partition that was laid out
ends inside its device, so the first sum is always a word.  The second one is not
tested anywhere, because the registry compares a region with a device by their
difference.  A device may therefore reach behind the last address, and exactly the
accesses that start there halt.
-/

namespace FlashStorage

/-- An access that stays inside the partition of a session. -/
def Session.Confines (session : Session) (access : Access) : Prop :=
  access.start.toNat + access.length ≤ session.partition.length.toNat

/-- A session whose partition ends inside a device. -/
def Session.Fits (session : Session) (device : Device) : Prop :=
  session.partition.offset.toNat + session.partition.length.toNat ≤
    device.length.toNat

/-! ## The first sum -/

section

variable {χ : Type} {adapter : Adapter χ} {device : Device} {access : Access}
  {session : Session} {reason : Halt}

/-- In a partition that ends inside a device the device offset of an access is
exact. -/
theorem Session.toNat_offset_add (hfits : session.Fits device)
    (hin : session.Confines access) :
    (session.partition.offset + access.start).toNat =
      session.partition.offset.toNat + access.start.toNat := by
  have hlength := device.length.toNat_lt_size
  unfold Session.Fits at hfits
  unfold Session.Confines at hin
  exact Word.toNat_add_of_lt (by omega)

/-! ## One access of a session -/

variable [Chip χ]

theorem Session.perform_of_not_confined (hout : ¬ session.Confines access) :
    session.perform adapter access =
      (⟨.error .outOfRange, access.buffer⟩, adapter) :=
  if_pos (Nat.lt_of_not_le hout)

/-- Wherever its device offset is a word, an access inside the partition goes on to
the adapter. -/
theorem Session.perform_of_toNat_eq {offset : UInt64}
    (hin : session.Confines access)
    (hoffset : offset.toNat =
      session.partition.offset.toNat + access.start.toNat) :
    session.perform adapter access =
      adapter.perform (access.moveTo offset) := by
  have hsum : Word.add? session.partition.offset access.start = some offset :=
    Word.add?_eq_some_iff.mpr hoffset
  unfold Session.perform
  rw [if_neg (Nat.not_lt_of_le hin), hsum]

theorem Session.perform_of_confined (hfits : session.Fits adapter.device)
    (hin : session.Confines access) :
    session.perform adapter access =
      adapter.perform
        (access.moveTo (session.partition.offset + access.start)) :=
  Session.perform_of_toNat_eq hin (Session.toNat_offset_add hfits hin)

/-- The access that the adapter is given instead of one inside the partition. -/
theorem Session.exists_perform_eq (hfits : session.Fits adapter.device)
    (hin : session.Confines access) :
    ∃ offset : UInt64,
      offset.toNat =
          session.partition.offset.toNat + access.start.toNat ∧
        offset.toNat + access.length ≤ adapter.device.length.toNat ∧
        session.perform adapter access =
          adapter.perform (access.moveTo offset) := by
  have hoffset := Session.toNat_offset_add hfits hin
  refine ⟨_, hoffset, ?_, Session.perform_of_confined hfits hin⟩
  unfold Session.Fits at hfits
  unfold Session.Confines at hin
  omega

theorem Session.perform_eq_halt_iff (hup : adapter.initialized = true)
    (hfits : session.Fits adapter.device) :
    (session.perform adapter access).1.result = .halt reason ↔
      reason = .addOverflow ∧ session.Confines access ∧ 0 < access.length ∧
        adapter.device.isAligned
          (access.moveTo (session.partition.offset + access.start)) = true ∧
        UInt64.size ≤ adapter.device.base.toNat +
          session.partition.offset.toNat + access.start.toNat := by
  by_cases hin : session.Confines access
  · have hoffset := Session.toNat_offset_add hfits hin
    have hinside : session.partition.offset.toNat + access.start.toNat +
        access.length ≤ adapter.device.length.toNat := by
      unfold Session.Fits at hfits
      unfold Session.Confines at hin
      omega
    rw [Session.perform_of_confined hfits hin, Adapter.perform_eq_halt_iff,
      Adapter.refusal?_eq_none_iff, Access.start_moveTo, Access.length_moveTo,
      hoffset, ← Nat.add_assoc]
    constructor
    · rintro ⟨hreason, ⟨_, haligned, _⟩, hlength, hbeyond⟩
      exact ⟨hreason, hin, hlength, haligned, hbeyond⟩
    · rintro ⟨hreason, _, hlength, haligned, hbeyond⟩
      exact ⟨hreason, ⟨hup, haligned, hinside⟩, hlength, hbeyond⟩
  · rw [Session.perform_of_not_confined hin]
    simp [hin]

/-- Only a partition that ends inside the address space has no access that halts:
of any other one the last byte cannot be read. -/
theorem Session.never_halts_iff (hup : adapter.initialized = true)
    (hfits : session.Fits adapter.device)
    (hlength : 0 < session.partition.length.toNat) :
    (∀ access reason,
        (session.perform adapter access).1.result ≠ .halt reason) ↔
      adapter.device.base.toNat + session.partition.offset.toNat +
        session.partition.length.toNat ≤ UInt64.size := by
  constructor
  · intro hnever
    by_contra hbeyond
    have hlast : (session.partition.length - 1).toNat =
        session.partition.length.toNat - 1 :=
      UInt64.toNat_sub_of_le _ _ (UInt64.le_iff_toNat_le.mpr hlength)
    apply hnever (.read (session.partition.length - 1) [0]) .addOverflow
    rw [Session.perform_eq_halt_iff hup hfits]
    refine ⟨rfl, ?_, Nat.one_pos, rfl, ?_⟩
    · change (session.partition.length - 1).toNat + 1 ≤ _
      omega
    · change _ ≤ _ + (session.partition.length - 1).toNat
      omega
  · intro hinside access reason hhalt
    obtain ⟨_, hin, hsome, _, hbeyond⟩ :=
      (Session.perform_eq_halt_iff hup hfits).mp hhalt
    unfold Session.Confines at hin
    omega

end

/-! ## A board at the end of the address space -/

namespace TopBoard

/-- Sixteen bytes up to the last address and sixteen behind it. -/
def device : Device :=
  { SmallBoard.device with base := 18446744073709551600, length := 32 }

def config : Config := .ofValues 8 32 32 0

def region : Region :=
  { SmallBoard.region with offset := device.base, length := device.length }

def source : RegionList := ⟨[region], by decide⟩

def adapter : Adapter SimulatedChip := .mount device (.mappedAt device.base 32)

def ready : Adapter SimulatedChip :=
  ⟨device, { adapter.chip with initCalls := 1 }, true⟩

def partition : Partition :=
  ⟨Config.defaultKvName, device.name, 0, 32, .kv⟩

def binding : Binding SimulatedChip (Tallied SpinLock) :=
  ⟨ready, ⟨[partition], by decide⟩, config, .bits32, SmallBoard.locks⟩

theorem bringUp_eq :
    bringUp config source adapter Registry.empty =
      (.ok binding.table, ready, ⟨binding.table, true⟩) := by
  rfl

theorem bind_eq :
    Binding.bind ready binding.table config SmallBoard.locks =
      .ok binding := by
  rfl

theorem opens : binding.Opens .kv ⟨partition⟩ :=
  ⟨[], rfl⟩

end TopBoard

/-! ## Accesses after a successful start -/

section

variable {χ κ σ : Type} [Chip χ] [LockHook κ] [RegionSource σ] {config : Config}
  {source : σ} {adapter ready : Adapter χ} {registry committed : Registry}
  {table : Table} {locks : PerDatabase κ} {binding : Binding χ κ}
  {database : Database} {session : Session}

theorem fits_of_opens
    (hlaid : Registry.LaidOut config binding.adapter.device
      binding.table.partitions)
    (hopens : binding.Opens database session) :
    session.Fits binding.adapter.device ∧
      0 < session.partition.length.toNat := by
  obtain ⟨hmem, _, _⟩ := Binding.partition?_eq_some hopens.partition?_eq
  exact ⟨hlaid.end_le _ hmem, hlaid.length_pos _ hmem⟩

/-- After a successful start an access of a session halts, at any time in the life
of the binding, exactly if it gets through every test and starts behind the last
address.  No access does so if and only if the partition ends inside the address
space. -/
theorem halts_iff_starts_behind_last_address
    (hup : bringUp config source adapter registry =
      (.ok table, ready, committed))
    (hbind : Binding.bind ready table config locks = .ok binding)
    (hopens : binding.Opens database session) :
    (∀ access, session.Confines access →
      session.partition.offset.toNat + access.start.toNat < UInt64.size) ∧
    (∀ requests access reason,
      ((binding.after requests).perform session access).1.result =
          .halt reason ↔
        reason = .addOverflow ∧ session.Confines access ∧ 0 < access.length ∧
          adapter.device.isAligned
            (access.moveTo (session.partition.offset + access.start)) = true ∧
          UInt64.size ≤ adapter.device.base.toNat +
            session.partition.offset.toNat + access.start.toNat) ∧
    ∀ requests,
      (∀ access reason,
        ((binding.after requests).perform session access).1.result ≠
          .halt reason) ↔
        adapter.device.base.toNat + session.partition.offset.toNat +
          session.partition.length.toNat ≤ UInt64.size := by
  obtain ⟨hlaid, hready, _⟩ := laidOut_of_bind hup hbind
  obtain ⟨hdevice, hinitialized, _⟩ := ready_of_bringUp hup
  obtain ⟨hfits, hlength⟩ := fits_of_opens hlaid hopens
  rw [hready, hdevice] at hfits
  have hnow : ∀ requests,
      (binding.after requests).adapter.device = adapter.device ∧
        (binding.after requests).adapter.initialized = true := by
    intro requests
    have hcontinues :=
      Binding.continues_after (Binding.continues_refl binding) requests
    rw [hcontinues.device_eq, hcontinues.initialized_eq, hready]
    exact ⟨hdevice, hinitialized⟩
  refine ⟨?_, ?_, ?_⟩
  · intro access hin
    rw [← Session.toNat_offset_add hfits hin]
    exact UInt64.toNat_lt_size _
  · intro requests access reason
    obtain ⟨hsame, hstill⟩ := hnow requests
    rw [← hsame] at hfits ⊢
    exact Session.perform_eq_halt_iff hstill hfits
  · intro requests
    obtain ⟨hsame, hstill⟩ := hnow requests
    rw [← hsame] at hfits ⊢
    exact Session.never_halts_iff hstill hfits hlength

end

/-- At the end of the address space the last byte below it can be read at any time
and the one behind it never. -/
theorem halts_iff_starts_behind_last_address_topBoard :
    bringUp TopBoard.config TopBoard.source TopBoard.adapter Registry.empty =
        (.ok TopBoard.binding.table, TopBoard.ready,
          ⟨TopBoard.binding.table, true⟩) ∧
      (∀ requests reason,
        ((TopBoard.binding.after requests).perform ⟨TopBoard.partition⟩
          (.read 15 [0])).1.result ≠ .halt reason) ∧
      ∀ requests,
        ((TopBoard.binding.after requests).perform ⟨TopBoard.partition⟩
          (.read 16 [0])).1.result = .halt .addOverflow := by
  obtain ⟨_, hexact, _⟩ := halts_iff_starts_behind_last_address
    TopBoard.bringUp_eq TopBoard.bind_eq TopBoard.opens
  refine ⟨TopBoard.bringUp_eq, ?_, ?_⟩
  · intro requests reason hhalt
    obtain ⟨_, _, _, _, hbeyond⟩ := (hexact _ _ _).mp hhalt
    exact absurd hbeyond (by decide)
  · intro requests
    apply (hexact _ _ _).mpr
    unfold Session.Confines
    decide

/-- The board comes up, is bound and opens a session, and then a read of one byte
inside the partition halts. -/
theorem topBoard_read_halts :
    bringUp TopBoard.config TopBoard.source TopBoard.adapter Registry.empty =
        (.ok TopBoard.binding.table, TopBoard.ready,
          ⟨TopBoard.binding.table, true⟩) ∧
      Binding.bind TopBoard.ready TopBoard.binding.table TopBoard.config
          SmallBoard.locks = .ok TopBoard.binding ∧
      (TopBoard.binding.openSession .kv).1 = .ok ⟨TopBoard.partition⟩ ∧
      ((TopBoard.binding.openSession .kv).2.perform ⟨TopBoard.partition⟩
          (.read 16 [0])).1.result = .halt .addOverflow := by
  exact ⟨rfl, rfl, rfl, rfl⟩

end FlashStorage
