import FlashStorage.Proofs.Adapter.NorFlash
import FlashStorage.Proofs.Chip.Recording
import Mathlib.Data.List.Forall2

/-!
# What reaches the chip

An adapter asks its chip once for every access that finds the chip up, consists of
whole units, lies in the device and is not empty.  It asks in the order of the
accesses, for the whole of each and at its absolute address, and repeats, splits or
adds nothing, whatever the chip answers.  Only the exact count is a success.  An
access that is not passed on is answered by the first test that it fails.
-/

namespace FlashStorage

namespace Device

/-- An access for which the chip is asked, given whether it is up. -/
def Passes (device : Device) (up : Bool) (access : Access) : Prop :=
  up = true ∧ device.InUnits access ∧
    access.start.toNat + access.length ≤ device.length.toNat ∧
      0 < access.length

instance (device : Device) (up : Bool) : DecidablePred (device.Passes up) :=
  fun _ => inferInstanceAs (Decidable (_ ∧ _ ∧ _ ∧ _))

/-- The answer to an access for which the chip is not asked: the first test that it
fails decides, and an empty access that fails none is done. -/
inductive Dismisses (device : Device) (up : Bool) (access : Access) :
    Outcome DeviceError Unit → Prop where
  | down (hdown : up = false) :
      Dismisses device up access (.error .notPresent)
  | misaligned (hup : up = true) (hunits : ¬ device.InUnits access) :
      Dismisses device up access (.error .misaligned)
  | outside (hup : up = true) (hunits : device.InUnits access)
      (hout : device.length.toNat < access.start.toNat + access.length) :
      Dismisses device up access (.error .outOfRange)
  | empty (hup : up = true) (hunits : device.InUnits access)
      (hin : access.start.toNat + access.length ≤ device.length.toNat)
      (hempty : access.length = 0) :
      Dismisses device up access (.ok ())

/-- The result of an access that the chip was asked for at an address and has
answered. -/
structure Serves (device : Device) (access : Access) (address : UInt64)
    (answer : ChipResult) (result : Outcome DeviceError Unit) : Prop where
  address_eq : address.toNat = device.base.toNat + access.start.toNat
  done_iff : result = .ok () ↔ answer = .ok access.length
  miscounted : ∀ count, answer = .ok count → count ≠ access.length →
    result = .error (.incomplete count)
  faulted : ∀ fault, answer = .error fault →
    result = .error (.incomplete 0)

variable {device : Device} {up : Bool} {access : Access} {address : UInt64}
  {answer : ChipResult} {result : Outcome DeviceError Unit}

/-! ## One access -/

/-- On a device inside the address space the address of an access that passes is
exact. -/
theorem route_of_passes
    (hspace : device.base.toNat + device.length.toNat ≤ UInt64.size)
    (hpasses : device.Passes up access) :
    device.route up access = .forwarded (device.base + access.start) ∧
      (device.base + access.start).toNat =
        device.base.toNat + access.start.toNat := by
  obtain ⟨hup, hunits, hin, hsome⟩ := hpasses
  have haddress : (device.base + access.start).toNat =
      device.base.toNat + access.start.toNat :=
    Word.toNat_add_of_lt (by omega)
  exact ⟨route_eq_forwarded_iff.mpr
    ⟨hup, isAligned_iff.mpr hunits, hin, hsome, haddress⟩, haddress⟩

theorem route_of_not_passes (hnot : ¬ device.Passes up access) :
    ∃ result, device.route up access = .answered result ∧
      device.Dismisses up access result := by
  cases up with
  | false => exact ⟨_, rfl, .down rfl⟩
  | true =>
      by_cases hunits : device.InUnits access
      · have haligned := isAligned_iff.mpr hunits
        by_cases hin :
            access.start.toNat + access.length ≤ device.length.toNat
        · have hcontains := (device.contains_iff _ _).mpr hin
          have hempty : access.length = 0 := by
            by_contra hsome
            exact hnot ⟨rfl, hunits, hin, Nat.pos_of_ne_zero hsome⟩
          refine ⟨.ok (), ?_, .empty rfl hunits hin hempty⟩
          simp only [route, haligned, hcontains, Bool.not_true,
            Bool.false_eq_true, if_false]
          rw [if_pos hempty]
        · have hbeyond :
              device.contains access.start access.length = false := by
            rw [Bool.eq_false_iff, Ne, contains_iff]
            exact hin
          refine ⟨_, ?_, .outside rfl hunits (Nat.lt_of_not_le hin)⟩
          simp [route, haligned, hbeyond]
      · have hunaligned : device.isAligned access = false := by
          rw [Bool.eq_false_iff, Ne, isAligned_iff]
          exact hunits
        refine ⟨_, ?_, .misaligned rfl hunits⟩
        simp [route, hunaligned]

theorem serves_settle (answer : ChipResult)
    (haddress : address.toNat = device.base.toNat + access.start.toNat) :
    device.Serves access address answer
      (Adapter.settle access.length answer) where
  address_eq := haddress
  done_iff := by
    cases answer with
    | error fault => simp [Adapter.settle]
    | ok count =>
        by_cases hcount : count = access.length
        · simp [Adapter.settle, hcount]
        · simp [Adapter.settle, hcount]
  miscounted := by
    intro count hanswer hcount
    rw [hanswer, Adapter.settle, if_neg hcount]
  faulted := by
    intro fault hanswer
    rw [hanswer, Adapter.settle]

end Device

namespace Adapter

variable {χ : Type} [Chip χ] {access : Access}

theorem perform_of_not_passes {adapter : Adapter χ}
    (hnot : ¬ adapter.device.Passes adapter.initialized access) :
    ∃ result, adapter.perform access = (⟨result, access.buffer⟩, adapter) ∧
      adapter.device.Dismisses adapter.initialized access result := by
  obtain ⟨result, hroute, hdismisses⟩ := Device.route_of_not_passes hnot
  refine ⟨result, ?_, hdismisses⟩
  rw [perform_eq_follow, hroute]
  rfl

theorem perform_of_passes {adapter : Adapter χ}
    (hspace : adapter.device.base.toNat + adapter.device.length.toNat ≤
      UInt64.size)
    (hpasses : adapter.device.Passes adapter.initialized access) :
    adapter.perform access =
      adapter.reach access (adapter.device.base + access.start) := by
  rw [perform_eq_follow, (Device.route_of_passes hspace hpasses).1]
  rfl

theorem calls_of_passes {adapter : Adapter (Recorded χ)}
    (hspace : adapter.device.base.toNat + adapter.device.length.toNat ≤
      UInt64.size)
    (hpasses : adapter.device.Passes adapter.initialized access) :
    ∃ address answer,
      (adapter.perform access).2.chip.calls =
          adapter.chip.calls ++ [.access (access.moveTo address) answer] ∧
        adapter.device.Serves access address answer
          (adapter.perform access).1.result := by
  have haddress := (Device.route_of_passes hspace hpasses).2
  rw [perform_of_passes hspace hpasses]
  simp only [reach, Recorded.perform_eq, Recorded.perform]
  exact ⟨_, _, rfl, Device.serves_settle _ haddress⟩

theorem perform_ne_halt {adapter : Adapter χ}
    (hspace : adapter.device.base.toNat + adapter.device.length.toNat ≤
      UInt64.size) (access : Access) (reason : Halt) :
    (adapter.perform access).1.result ≠ .halt reason := by
  intro hhalt
  obtain ⟨_, hpassed, hsome, hbeyond⟩ := perform_eq_halt_iff.mp hhalt
  obtain ⟨_, _, hin⟩ := refusal?_eq_none_iff.mp hpassed
  omega

/-! ## Runs -/

/-- How a call to the chip goes back to an entry of a log. -/
def Caused (device : Device)
    (entry : Access × Reply (Outcome DeviceError Unit)) (call : ChipCall) :
    Prop :=
  ∃ address answer, call = .access (entry.1.moveTo address) answer ∧
    device.Serves entry.1 address answer entry.2.result

theorem map_fst_performAll (adapter : Adapter χ) (accesses : List Access) :
    (adapter.performAll accesses).1.map Prod.fst = accesses := by
  induction accesses generalizing adapter with
  | nil => rfl
  | cons access rest ih =>
      simp only [performAll, List.map_cons]
      rw [ih]

theorem performAll_ne_halt {adapter : Adapter χ}
    (hspace : adapter.device.base.toNat + adapter.device.length.toNat ≤
      UInt64.size) (accesses : List Access) :
    ∀ entry ∈ (adapter.performAll accesses).1, ∀ reason,
      entry.2.result ≠ .halt reason := by
  induction accesses generalizing adapter with
  | nil => simp [performAll]
  | cons access rest ih =>
      simp only [performAll, List.forall_mem_cons]
      rw [← adapter.device_perform access] at hspace
      refine ⟨?_, ih hspace⟩
      rw [adapter.device_perform access] at hspace
      exact perform_ne_halt hspace access

theorem Records.performAll {watched : Adapter (Recorded χ)}
    {plain : Adapter χ} (hrecords : watched.Records plain)
    (accesses : List Access) :
    (watched.performAll accesses).1 = (plain.performAll accesses).1 ∧
      (watched.performAll accesses).2.Records
        (plain.performAll accesses).2 := by
  induction accesses generalizing watched plain with
  | nil => exact ⟨rfl, hrecords⟩
  | cons access rest ih =>
      obtain ⟨hreply, hnext⟩ := hrecords.perform access
      obtain ⟨hlog, hlast⟩ := ih hnext
      refine ⟨?_, hlast⟩
      simp only [Adapter.performAll]
      rw [hreply, hlog]

variable {device : Device} {up : Bool}

/-- The calls that a run adds are caused, one by one and in order, by the entries that
pass; all other entries are dismissed.  The device, and that the chip is up, outlast
every access, so that one test is right for the entries of the whole run. -/
theorem calls_performAll (now : Adapter (Recorded χ))
    (hspace : device.base.toNat + device.length.toNat ≤ UInt64.size)
    (hdevice : now.device = device) (hup : now.initialized = up)
    (accesses : List Access) :
    ∃ calls,
      (now.performAll accesses).2.chip.calls = now.chip.calls ++ calls ∧
        List.Forall₂ (Caused device)
          ((now.performAll accesses).1.filter
            (fun entry => device.Passes up entry.1)) calls ∧
        ∀ entry ∈ (now.performAll accesses).1,
          ¬ device.Passes up entry.1 →
            entry.2.buffer = entry.1.buffer ∧
              device.Dismisses up entry.1 entry.2.result := by
  induction accesses generalizing now with
  | nil =>
      refine ⟨[], ?_, .nil, ?_⟩
      · simp [performAll]
      · simp [performAll]
  | cons access rest ih =>
      have hnextDevice := (now.device_perform access).trans hdevice
      have hnextUp := (now.initialized_perform access).trans hup
      obtain ⟨calls, hcalls, hcaused, hdismissed⟩ :=
        ih _ hnextDevice hnextUp
      subst hdevice hup
      simp only [performAll, List.forall_mem_cons]
      by_cases hpasses : now.device.Passes now.initialized access
      · obtain ⟨address, answer, hcall, hserves⟩ :=
          calls_of_passes hspace hpasses
        refine ⟨.access (access.moveTo address) answer :: calls, ?_, ?_, ?_,
          hdismissed⟩
        · rw [hcalls, hcall, List.append_assoc]
          rfl
        · rw [List.filter_cons_of_pos (by simpa using hpasses)]
          exact .cons ⟨address, answer, rfl, hserves⟩ hcaused
        · exact fun hnot => absurd hpasses hnot
      · obtain ⟨result, hperform, hdismisses⟩ := perform_of_not_passes hpasses
        refine ⟨calls, ?_, ?_, ?_, hdismissed⟩
        · rw [hcalls, hperform]
        · rw [List.filter_cons_of_neg (by simpa using hpasses)]
          exact hcaused
        · intro _
          rw [hperform]
          exact ⟨rfl, hdismisses⟩

/-- Over any chip, and after any run, the chip was asked exactly for the accesses that
pass, in their order, once for the whole of each and at its absolute address; it
answers them, and only its exact count is a success.  Every other access is answered
by the first test that it fails.  No access halts.  The chip is watched by a recorder,
which changes no reply and nothing behind it. -/
theorem calls_are_passing_accesses {adapter last : Adapter χ}
    {accesses : List Access}
    {log : List (Access × Reply (Outcome DeviceError Unit))}
    (hspace : adapter.device.base.toNat + adapter.device.length.toNat ≤
      UInt64.size)
    (hrun : adapter.performAll accesses = (log, last)) :
    ((adapter.recorded.performAll accesses).1 = log ∧
      (adapter.recorded.performAll accesses).2.chip.chip = last.chip) ∧
    log.map Prod.fst = accesses ∧
    List.Forall₂ (Caused adapter.device)
      (log.filter (fun entry =>
        adapter.device.Passes adapter.initialized entry.1))
      (adapter.recorded.performAll accesses).2.chip.calls ∧
    (∀ entry ∈ log, ¬ adapter.device.Passes adapter.initialized entry.1 →
      entry.2.buffer = entry.1.buffer ∧
        adapter.device.Dismisses adapter.initialized entry.1
          entry.2.result) ∧
    ∀ entry ∈ log, ∀ reason, entry.2.result ≠ .halt reason := by
  obtain rfl : _ = log := congrArg Prod.fst hrun
  obtain rfl : _ = last := congrArg Prod.snd hrun
  obtain ⟨hlog, hlast⟩ := adapter.records_recorded.performAll accesses
  obtain ⟨calls, hcalls, hcaused, hdismissed⟩ :=
    adapter.recorded.calls_performAll hspace rfl rfl accesses
  rw [hlog] at hcaused hdismissed
  have hfresh : (adapter.recorded.performAll accesses).2.chip.calls = calls :=
    hcalls
  rw [hfresh]
  exact ⟨⟨hlog, hlast.chip_eq⟩, map_fst_performAll _ _, hcaused, hdismissed,
    performAll_ne_halt hspace accesses⟩

end Adapter

namespace SmallBoard

/-- The board with a chip that counts five bytes at first and then fails once. -/
def unreliable : Adapter (Recorded SimulatedChip) :=
  ⟨device, (Recorded.ofChip ready.chip).enqueue
    [.count 5, .fault .generic], true⟩

end SmallBoard

/-- Of five accesses three pass, and the chip is asked three times: nothing is repeated
after a wrong count or a fault. -/
theorem calls_are_passing_accesses_smallBoard :
    (SmallBoard.unreliable.performAll SmallBoard.accesses).1.map
        (fun entry => entry.2.result) =
      [.error (.incomplete 5), .error (.incomplete 0), .error .misaligned,
        .error .outOfRange, .ok ()] ∧
    (SmallBoard.unreliable.recorded.performAll
        SmallBoard.accesses).2.chip.calls.length = 3 ∧
    ∀ call ∈ (SmallBoard.unreliable.recorded.performAll
        SmallBoard.accesses).2.chip.calls.head?,
      ∃ answer, call = .access (.write 4096 [0x0F]) answer := by
  obtain ⟨_, _, hcaused, _, _⟩ := Adapter.calls_are_passing_accesses
    (show SmallBoard.unreliable.device.base.toNat +
      SmallBoard.unreliable.device.length.toNat ≤ UInt64.size by decide)
    (show SmallBoard.unreliable.performAll SmallBoard.accesses = (_, _) from
      rfl)
  refine ⟨rfl, hcaused.length_eq.symm.trans rfl, ?_⟩
  generalize (SmallBoard.unreliable.recorded.performAll
    SmallBoard.accesses).2.chip.calls = calls at hcaused
  cases hcaused with
  | @cons entry call entries calls hfirst hrest =>
      intro first hfound
      obtain ⟨address, answer, rfl, hserves⟩ := hfirst
      cases hfound
      have haddress : address = 4096 :=
        UInt64.toNat_inj.mp hserves.address_eq
      exact ⟨answer, by rw [haddress]; rfl⟩

end FlashStorage
