import FlashStorage.Proofs.Adapter.NorFlash
import FlashStorage.Proofs.Binding.Isolation

/-!
# Erasing, writing and reading a partition

Partitions start on erase blocks and consist of whole ones, so a session can always
erase all of its partition.  What it writes then is aligned to the write unit from
the start of the partition, but the adapter counts from the start of the device.
Nothing makes the erase block a multiple of the write unit.  A partition takes
writes and gives them back exactly if its offset in the device is such a multiple,
and takes none of them if it is not.
-/

namespace FlashStorage

/-- A session whose partition consists of whole erase blocks inside a device. -/
structure Session.OnBlocks (session : Session) (device : Device) : Prop where
  fits : session.Fits device
  block_pos : 0 < device.block.toNat
  offset_dvd : device.block.toNat ∣ session.partition.offset.toNat
  length_dvd : device.block.toNat ∣ session.partition.length.toNat

/-- Erase the whole partition, write to it and read from the same place. -/
def Session.roundTrip (session : Session) (start : UInt64)
    (data buffer : List UInt8) : List Operation :=
  [⟨session, .erase 0 session.partition.length⟩,
    ⟨session, .write start data⟩, ⟨session, .read start buffer⟩]

namespace Session

variable {adapter : Adapter SimulatedChip} {session : Session}
  {start : UInt64} {data buffer : List UInt8}

/-! ## One access of a session over cells -/

theorem backed_perform (hbacked : adapter.Backed) (session : Session)
    (access : Access) : (session.perform adapter access).2.Backed := by
  unfold Session.perform
  split
  · exact hbacked
  · cases Word.add? session.partition.offset access.start with
    | none => exact hbacked
    | some offset => exact hbacked.perform _

theorem erase_partition (hbacked : adapter.Backed)
    (hblocks : session.OnBlocks adapter.device) :
    (session.perform adapter (.erase 0 session.partition.length)).1 =
        ⟨.ok (), []⟩ ∧
      ∀ position < session.partition.length.toNat,
        (session.perform adapter
            (.erase 0 session.partition.length)).2.byte
          (session.partition.offset.toNat + position) = erasedByte := by
  obtain ⟨hfits, hpos, hdvd, hlength⟩ := hblocks
  have hin : session.Confines (.erase 0 session.partition.length) := by
    simp [Confines, Access.start, Access.length]
  obtain ⟨offset, hoffset, hend, hmoved⟩ := exists_perform_eq hfits hin
  have hsame : offset.toNat = session.partition.offset.toNat := hoffset
  have hadmits : adapter.device.Admits
      (.erase offset session.partition.length) :=
    ⟨⟨hpos, hsame ▸ hdvd, hlength⟩, hend⟩
  rw [hmoved]
  refine ⟨?_, ?_⟩
  · simp only [Access.moveTo]
    rw [Adapter.perform_of_admits hbacked hadmits]
    rfl
  · intro position hposition
    have hinside : session.partition.offset.toNat + position <
        adapter.device.length.toNat := by
      unfold Fits at hfits
      omega
    have hbyte := Adapter.byte_perform hbacked hadmits hinside
    rw [Access.imprint_erase_of_mem (by omega) (by omega)] at hbyte
    exact hbyte

/-- A write of whole units, counted from the start of the device, is taken, and
stands on erased bytes as it is. -/
theorem write_erased (hbacked : adapter.Backed)
    (hfits : session.Fits adapter.device)
    (hin : session.Confines (.write start data))
    (hunit : adapter.device.granularity.alignment ∣
      session.partition.offset.toNat + start.toNat)
    (hlength : adapter.device.granularity.alignment ∣ data.length)
    (herased : ∀ position < session.partition.length.toNat,
      adapter.byte (session.partition.offset.toNat + position) =
        erasedByte) :
    (session.perform adapter (.write start data)).1 = ⟨.ok (), []⟩ ∧
      ∀ position, (hposition : position < data.length) →
        (session.perform adapter (.write start data)).2.byte
            (session.partition.offset.toNat + start.toNat + position) =
          data[position] := by
  obtain ⟨offset, hoffset, hend, hmoved⟩ := exists_perform_eq hfits hin
  have hsame : offset.toNat =
      session.partition.offset.toNat + start.toNat := hoffset
  have hadmits : adapter.device.Admits (.write offset data) :=
    ⟨⟨hsame ▸ hunit, hlength⟩, hend⟩
  rw [hmoved]
  refine ⟨?_, ?_⟩
  · simp only [Access.moveTo]
    rw [Adapter.perform_of_admits hbacked hadmits]
    rfl
  · intro position hposition
    have hrange : start.toNat + data.length ≤
        session.partition.length.toNat := hin
    have hinside : offset.toNat + position <
        adapter.device.length.toNat := by
      have hlast : offset.toNat + data.length ≤
          adapter.device.length.toNat := hend
      omega
    have hbyte := Adapter.byte_perform hbacked hadmits hinside
    have hbefore := herased (start.toNat + position) (by omega)
    rw [← Nat.add_assoc, ← hsame] at hbefore
    rw [Access.imprint_write_of_mem hposition, hbefore] at hbyte
    rw [← hsame]
    exact hbyte.trans UInt8.neg_one_and

theorem write_misaligned (hup : adapter.initialized = true)
    (hfits : session.Fits adapter.device)
    (hin : session.Confines (.write start data))
    (hunit : ¬ adapter.device.granularity.alignment ∣
      session.partition.offset.toNat + start.toNat) :
    session.perform adapter (.write start data) =
      (⟨.error .misaligned, []⟩, adapter) := by
  obtain ⟨offset, hoffset, _, hmoved⟩ := exists_perform_eq hfits hin
  have hsame : offset.toNat =
      session.partition.offset.toNat + start.toNat := hoffset
  have hunaligned : adapter.device.isAligned (.write offset data) =
      false := by
    rw [Bool.eq_false_iff, Ne, Device.isAligned_iff]
    intro hunits
    exact hunit (hsame ▸ hunits.1)
  rw [hmoved, Adapter.perform_eq_follow]
  simp [Access.moveTo, Device.route, hup, hunaligned, Adapter.follow,
    Access.buffer]

theorem read_shows (hbacked : adapter.Backed)
    (hfits : session.Fits adapter.device)
    (hin : session.Confines (.read start buffer)) :
    (session.perform adapter (.read start buffer)).1 =
      ⟨.ok (), (List.range buffer.length).map (fun position =>
        adapter.byte
          (session.partition.offset.toNat + start.toNat + position))⟩ := by
  obtain ⟨offset, hoffset, hend, hmoved⟩ := exists_perform_eq hfits hin
  have hsame : offset.toNat =
      session.partition.offset.toNat + start.toNat := hoffset
  have hadmits : adapter.device.Admits (.read offset buffer) :=
    ⟨trivial, hend⟩
  have hbuffer := Adapter.buffer_perform_read hbacked hadmits
  rw [hsame] at hbuffer
  rw [hmoved, ← hbuffer]
  simp only [Access.moveTo]
  rw [Adapter.perform_of_admits hbacked hadmits]

end Session

/-! ## All three -/

namespace Binding

variable {κ : Type} {binding now : Binding SimulatedChip κ}
  {session : Session} {start : UInt64} {data buffer : List UInt8}

theorem replies_roundTrip (hbacked : now.adapter.Backed)
    (hblocks : session.OnBlocks now.adapter.device)
    (hstart : now.adapter.device.granularity.alignment ∣ start.toNat)
    (hlength : now.adapter.device.granularity.alignment ∣ data.length)
    (hin : start.toNat + data.length ≤ session.partition.length.toNat)
    (hbuffer : buffer.length = data.length) :
    (now.performAll (session.roundTrip start data buffer)).1.map Prod.snd =
      if now.adapter.device.granularity.alignment ∣
          session.partition.offset.toNat then
        [⟨.ok (), []⟩, ⟨.ok (), []⟩, ⟨.ok (), data⟩]
      else
        [⟨.ok (), []⟩, ⟨.error .misaligned, []⟩,
          ⟨.ok (), List.replicate data.length erasedByte⟩] := by
  obtain ⟨herase, herased⟩ := Session.erase_partition hbacked hblocks
  have hbackedErased := Session.backed_perform hbacked session
    (.erase 0 session.partition.length)
  have hdevice := session.device_perform now.adapter
    (.erase 0 session.partition.length)
  have hfits := hblocks.fits
  simp only [Session.roundTrip, performAll, perform, List.map_cons,
    List.map_nil, herase]
  generalize (session.perform now.adapter
    (.erase 0 session.partition.length)).2 = erased at *
  rw [← hdevice] at hfits hstart hlength ⊢
  have hread : session.Confines (.read start buffer) := by
    change start.toNat + buffer.length ≤ _
    omega
  split
  case isTrue haligned =>
    obtain ⟨hwrite, hwritten⟩ := Session.write_erased hbackedErased hfits
      hin (Nat.dvd_add haligned hstart) hlength herased
    have hbackedWritten :=
      Session.backed_perform hbackedErased session (.write start data)
    rw [hwrite, Session.read_shows hbackedWritten
      (by rw [session.device_perform]; exact hfits) hread]
    have hdata : (List.range buffer.length).map (fun position =>
        (session.perform erased (.write start data)).2.byte
          (session.partition.offset.toNat + start.toNat + position)) =
        data := by
      apply List.ext_getElem
      · simp [hbuffer]
      · intro position _ hposition
        simpa using hwritten position hposition
    rw [hdata]
  case isFalse hnot =>
    have hunit : ¬ erased.device.granularity.alignment ∣
        session.partition.offset.toNat + start.toNat := by
      intro hsum
      exact hnot ((Nat.dvd_add_left hstart).mp hsum)
    rw [Session.write_misaligned hbackedErased.initialized hfits hin hunit,
      Session.read_shows hbackedErased hfits hread]
    have hcleared : (List.range buffer.length).map (fun position =>
        erased.byte
          (session.partition.offset.toNat + start.toNat + position)) =
        List.replicate data.length erasedByte := by
      rw [List.eq_replicate_iff]
      refine ⟨by simp [hbuffer], ?_⟩
      intro byte hbyte
      obtain ⟨position, hposition, rfl⟩ := List.mem_map.mp hbyte
      rw [List.mem_range] at hposition
      rw [Nat.add_assoc]
      exact herased (start.toNat + position) (by omega)
    rw [hcleared]

end Binding

/-! ## After a successful start -/

namespace Binding

section

variable {κ : Type} [LockHook κ] {binding : Binding SimulatedChip κ}

theorem backed_handle (hbacked : binding.adapter.Backed)
    (request : Request) : (binding.handle request).adapter.Backed := by
  cases request with
  | openSession database =>
      change (binding.openSession database).2.adapter.Backed
      unfold openSession
      split
      · exact hbacked
      · split <;> exact hbacked
  | access session access => exact Session.backed_perform hbacked _ _
  | closeSession session => exact hbacked

theorem backed_after (hbacked : binding.adapter.Backed)
    (requests : List Request) : (binding.after requests).adapter.Backed := by
  induction requests generalizing binding with
  | nil => exact hbacked
  | cons request rest ih => exact ih (backed_handle hbacked request)

end

end Binding

section

variable {κ σ : Type} [RegionSource σ] {config : Config} {source : σ}
  {adapter ready : Adapter SimulatedChip} {registry committed : Registry}
  {table : Table} {locks : PerDatabase κ} {binding : Binding SimulatedChip κ}
  {device : Device} {partition : Partition} {granularity : Granularity}

theorem backed_of_bringUp (hunlimited : adapter.chip.budget = none)
    (hspace : adapter.device.base.toNat + adapter.device.length.toNat ≤
      UInt64.size)
    (hcovers : adapter.device.zone ⊆ adapter.chip.zone)
    (hup : bringUp config source adapter registry =
      (.ok table, ready, committed)) :
    ready.Backed := by
  obtain ⟨hdevice, hinitialized, hchip⟩ := ready_of_bringUp hup
  have hzone : ready.chip.zone = adapter.chip.zone := by
    rcases hchip with hsame | hinit
    · rw [hsame]
    · rw [hinit]
      rfl
  refine ⟨hinitialized, Binding.budget_of_bringUp hunlimited hup, ?_, ?_⟩
  · rw [hdevice]
    exact hspace
  · rw [hdevice, hzone]
    exact hcovers

theorem Registry.LaidOut.onBlocks
    (hlaid : Registry.LaidOut config device table.partitions)
    (hmem : partition ∈ table.partitions) :
    Session.OnBlocks ⟨partition⟩ device where
  fits := hlaid.end_le partition hmem
  block_pos := hlaid.block_pos (List.ne_nil_of_mem hmem)
  offset_dvd := hlaid.offset_dvd partition hmem
  length_dvd := hlaid.length_dvd partition hmem

variable [LockHook κ]

/-- After a successful start an enabled database can, at any time, erase its whole
partition.  If the offset of the partition in the device is a multiple of the write
unit, what is then written to it in whole units is read back; if not, every write is
refused, and what is read is erased.  Erase blocks that consist of whole units are
enough for the first, but no test of the start asks for them. -/
theorem round_trip_iff_offset_aligned
    (hunlimited : adapter.chip.budget = none)
    (hspace : adapter.device.base.toNat + adapter.device.length.toNat ≤
      UInt64.size)
    (hcovers : adapter.device.zone ⊆ adapter.chip.zone)
    (hup : bringUp config source adapter registry =
      (.ok table, ready, committed))
    (hbind : Binding.bind ready table config locks = .ok binding)
    (hgranularity : config.granularity = .ok granularity)
    (requests : List Binding.Request) (database : Database) (taken : κ)
    (hsize : 0 < (config.partitionSize database).toNat)
    (hfree : LockHook.acquire?
      ((binding.after requests).locks.get database) = some taken) :
    ∃ session opened,
      (binding.after requests).openSession database =
          (.ok session, opened) ∧
        session.HasStorage config adapter.device database ∧
        (granularity.alignment ∣ adapter.device.block.toNat →
          granularity.alignment ∣ session.partition.offset.toNat) ∧
        ∀ start data buffer,
          granularity.alignment ∣ start.toNat →
          granularity.alignment ∣ data.length →
          start.toNat + data.length ≤ session.partition.length.toNat →
          buffer.length = data.length →
          (opened.performAll
              (session.roundTrip start data buffer)).1.map Prod.snd =
            if granularity.alignment ∣
                session.partition.offset.toNat then
              [⟨.ok (), []⟩, ⟨.ok (), []⟩, ⟨.ok (), data⟩]
            else
              [⟨.ok (), []⟩, ⟨.error .misaligned, []⟩,
                ⟨.ok (), List.replicate data.length erasedByte⟩] := by
  obtain ⟨hlaid, hready, _⟩ := laidOut_of_bind hup hbind
  obtain ⟨hdevice, _, _⟩ := ready_of_bringUp hup
  obtain ⟨hsuits, _, _⟩ := bringUp_eq_ok_iff.mp hup
  obtain ⟨hunit, _⟩ := Config.suits_eq_ok_iff.mp hsuits
  have hsame : granularity = adapter.device.granularity := by
    rw [hgranularity, Except.ok.injEq] at hunit
    exact hunit
  subst hsame
  have hcontinues :=
    Binding.continues_after (Binding.continues_refl binding) requests
  have hnow : (binding.after requests).adapter.device = adapter.device := by
    rw [hcontinues.device_eq, hready, hdevice]
  have hbacked : (binding.after requests).adapter.Backed := by
    apply Binding.backed_after
    rw [hready]
    exact backed_of_bringUp hunlimited hspace hcovers hup
  obtain ⟨partition, hmem, hopen, hstorage⟩ :=
    exists_openSession hlaid requests hsize hfree
  have hblocks := hlaid.onBlocks hmem
  rw [hready, hdevice] at hstorage hblocks
  refine ⟨_, _, hopen, hstorage, ?_, ?_⟩
  · intro hwhole
    exact Nat.dvd_trans hwhole hblocks.offset_dvd
  · intro start data buffer hstart hlength hin hbuffer
    rw [← hnow] at hblocks hstart hlength ⊢
    exact Binding.replies_roundTrip hbacked hblocks hstart hlength hin hbuffer

end

/-! ## A board with blocks smaller than its write unit -/

namespace CoarseBoard

/-- Erase blocks of four bytes, programmed in units of eight. -/
def device : Device :=
  { SmallBoard.device with block := 4, granularity := .bits64 }

def config : Config := .ofValues 64 32 12 16

def adapter : Adapter SimulatedChip := .mount device (.mappedAt 4096 64)

def ready : Adapter SimulatedChip :=
  ⟨device, { adapter.chip with initCalls := 1 }, true⟩

def session : Database → Session
  | .kv => ⟨⟨Config.defaultKvName, device.name, 0, 12, .kv⟩⟩
  | .ts => ⟨⟨Config.defaultTsName, device.name, 12, 16, .ts⟩⟩

def binding : Binding SimulatedChip (Tallied SpinLock) :=
  ⟨ready, ⟨[(session .kv).partition, (session .ts).partition], by decide⟩,
    config, .bits32, SmallBoard.locks⟩

def data : List UInt8 := [1, 2, 3, 4, 5, 6, 7, 8]

theorem bringUp_eq :
    bringUp config SmallBoard.source adapter Registry.empty =
      (.ok binding.table, ready, ⟨binding.table, true⟩) := by
  rfl

theorem bind_eq :
    Binding.bind ready binding.table config SmallBoard.locks =
      .ok binding := by
  rfl

theorem covers : adapter.device.zone ⊆ adapter.chip.zone :=
  SimulatedChip.subset_zone_mappedAt 4096 64

end CoarseBoard

/-- On this board the key-value partition starts on a write unit and gives back what
is written to it; the time-series one starts inside a unit and takes nothing. -/
theorem round_trip_iff_offset_aligned_coarseBoard :
    ((CoarseBoard.binding.openSession .kv).2.performAll
        ((CoarseBoard.session .kv).roundTrip 0 CoarseBoard.data
          (List.replicate 8 0))).1.map Prod.snd =
      [⟨.ok (), []⟩, ⟨.ok (), []⟩, ⟨.ok (), CoarseBoard.data⟩] ∧
    ((CoarseBoard.binding.openSession .ts).2.performAll
        ((CoarseBoard.session .ts).roundTrip 0 CoarseBoard.data
          (List.replicate 8 0))).1.map Prod.snd =
      [⟨.ok (), []⟩, ⟨.error .misaligned, []⟩,
        ⟨.ok (), List.replicate 8 erasedByte⟩] := by
  have hopens := round_trip_iff_offset_aligned
    (show CoarseBoard.adapter.chip.budget = none from rfl) (by decide)
    CoarseBoard.covers CoarseBoard.bringUp_eq CoarseBoard.bind_eq
    (show CoarseBoard.config.granularity = .ok .bits64 from rfl) []
  obtain ⟨kv, _, hkv, _, _, hkvReplies⟩ :=
    hopens .kv ⟨⟨true⟩, 1, 0⟩ (by decide) rfl
  obtain ⟨ts, _, hts, _, _, htsReplies⟩ :=
    hopens .ts ⟨⟨true⟩, 1, 0⟩ (by decide) rfl
  have hkvSession : CoarseBoard.session .kv = kv :=
    Outcome.ok.inj (congrArg Prod.fst hkv)
  have htsSession : CoarseBoard.session .ts = ts :=
    Outcome.ok.inj (congrArg Prod.fst hts)
  subst hkvSession htsSession
  have hkvOpened := congrArg Prod.snd hkv
  have htsOpened := congrArg Prod.snd hts
  subst hkvOpened htsOpened
  refine ⟨?_, ?_⟩
  · exact hkvReplies 0 CoarseBoard.data (List.replicate 8 0)
      (by decide) (by decide) (by decide) rfl
  · exact htsReplies 0 CoarseBoard.data (List.replicate 8 0)
      (by decide) (by decide) (by decide) rfl

/-- The board comes up, is bound and opens a session; the time-series partition is
erased, and then a write of one whole unit at its start is refused. -/
theorem coarseBoard_write_refused :
    bringUp CoarseBoard.config SmallBoard.source CoarseBoard.adapter
          Registry.empty =
        (.ok CoarseBoard.binding.table, CoarseBoard.ready,
          ⟨CoarseBoard.binding.table, true⟩) ∧
      Binding.bind CoarseBoard.ready CoarseBoard.binding.table
          CoarseBoard.config SmallBoard.locks = .ok CoarseBoard.binding ∧
      CoarseBoard.adapter.chip.budget = none ∧
      CoarseBoard.adapter.device.base.toNat +
          CoarseBoard.adapter.device.length.toNat ≤ UInt64.size ∧
      CoarseBoard.adapter.device.zone ⊆ CoarseBoard.adapter.chip.zone ∧
      CoarseBoard.config.granularity = .ok .bits64 ∧
      Granularity.bits64.alignment = CoarseBoard.data.length ∧
      (CoarseBoard.binding.openSession .ts).1 =
        .ok (CoarseBoard.session .ts) ∧
      ((CoarseBoard.binding.openSession .ts).2.performAll
          ((CoarseBoard.session .ts).roundTrip 0 CoarseBoard.data
            (List.replicate 8 0))).1.map Prod.snd =
        [⟨.ok (), []⟩, ⟨.error .misaligned, []⟩,
          ⟨.ok (), List.replicate 8 erasedByte⟩] := by
  exact ⟨rfl, rfl, rfl, by decide, CoarseBoard.covers, rfl, rfl, rfl, rfl⟩

end FlashStorage
