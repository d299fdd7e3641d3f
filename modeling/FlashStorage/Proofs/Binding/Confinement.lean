import FlashStorage.Proofs.Binding.Isolation
import FlashStorage.Proofs.Chip.Recording
import FlashStorage.Proofs.Registry.Commits

/-!
# Sessions stay in their partitions

A binding may be made with the table of any registry, also of one that was loaded for
another device of the same name, and its chip may answer as it likes.  A session is
confined nevertheless: what leaves its partition is refused before the adapter sees
it, and what does not asks for nothing but its own range.  The first sum of an
address cannot overflow, because no registry ever commits a partition that ends
behind the last word.
-/

namespace FlashStorage

theorem Registry.end_lt_of_actAll {actions : List Registry.Action}
    {partition : Partition}
    (hmem : partition ∈ (empty.actAll actions).2.table.partitions) :
    partition.offset.toNat + partition.length.toNat < UInt64.size := by
  rcases laidOut_of_actAll actions with hempty | ⟨config, device, hlaid⟩
  · rw [hempty] at hmem
    cases hmem
  · have hend := hlaid.end_le partition hmem
    have hlength := device.length.toNat_lt_size
    omega

section

variable {χ : Type} [Chip χ] {session : Session} {access : Access}

/-- Inside the partition an access asks a chip at most once, for what it was given,
and for addresses of the partition only. -/
theorem Session.calls_of_confined {adapter : Adapter (Recorded χ)}
    (hword : session.partition.offset.toNat +
      session.partition.length.toNat < UInt64.size)
    (hin : session.Confines access) :
    ∃ calls,
      (session.perform adapter access).2.chip.calls =
          adapter.chip.calls ++ calls ∧
        calls.length ≤ 1 ∧
        ∀ call ∈ calls, ∃ address result,
          call = .access (access.moveTo address) result ∧
            (access.moveTo address).zone ⊆
              session.partition.zone adapter.device := by
  have hrange : access.start.toNat + access.length ≤
      session.partition.length.toNat := hin
  have hoffset : (session.partition.offset + access.start).toNat =
      session.partition.offset.toNat + access.start.toNat :=
    Word.toNat_add_of_lt (by omega)
  rw [Session.perform_of_toNat_eq hin hoffset]
  rcases adapter.calls_perform
      (access.moveTo (session.partition.offset + access.start)) with
    hsilent | ⟨address, result, hroute, hcalls⟩
  · exact ⟨[], by simpa using hsilent, Nat.zero_le 1, by simp⟩
  · rw [Access.moveTo_moveTo] at hcalls
    refine ⟨[.access (access.moveTo address) result], hcalls, le_rfl, ?_⟩
    intro call hcall
    refine ⟨address, result, List.mem_singleton.mp hcall, ?_⟩
    obtain ⟨_, _, _, _, haddress⟩ :=
      Device.route_eq_forwarded_iff.mp hroute
    rw [Access.start_moveTo, hoffset] at haddress
    intro cell hcell
    unfold Access.zone at hcell
    rw [Set.mem_Ico, Access.start_moveTo, Access.length_moveTo] at hcell
    unfold Partition.zone
    rw [Set.mem_Ico]
    omega

end

namespace Binding

variable {χ κ : Type} [Chip χ] [LockHook κ] {adapter : Adapter χ}
  {config : Config} {locks : PerDatabase κ} {binding : Binding χ κ}
  {database : Database} {session : Session}

/-- At any time in the life of a binding to a table of any registry, on any chip, an
access of a session that leaves the partition is refused and asks the chip for
nothing; any other one asks at most once, for itself, at addresses of the
partition.  The chip is watched by a recorder, which changes no reply and nothing
behind it. -/
theorem session_confined (actions : List Registry.Action)
    (hbind : bind adapter (Registry.empty.actAll actions).2.table config
      locks = .ok binding)
    (hopens : binding.Opens database session)
    (requests : List Request) (access : Access) :
    (((binding.recorded.after requests).perform session access).1 =
        ((binding.after requests).perform session access).1 ∧
      ((binding.recorded.after requests).perform session
          access).2.adapter.chip.chip =
        ((binding.after requests).perform session access).2.adapter.chip) ∧
    (session.partition.length.toNat <
        access.start.toNat + access.length →
      (binding.recorded.after requests).perform session access =
        (⟨.error .outOfRange, access.buffer⟩,
          binding.recorded.after requests)) ∧
    (access.start.toNat + access.length ≤
        session.partition.length.toNat →
      session.partition.offset.toNat + access.start.toNat < UInt64.size ∧
      ∃ calls,
        ((binding.recorded.after requests).perform session
            access).2.adapter.chip.calls =
          (binding.recorded.after requests).adapter.chip.calls ++ calls ∧
        calls.length ≤ 1 ∧
        ∀ call ∈ calls, ∃ address result,
          call = .access (access.moveTo address) result ∧
            (access.moveTo address).zone ⊆
              session.partition.zone adapter.device) := by
  obtain ⟨_, _, width, _, hmade⟩ := bind_eq_ok_iff.mp hbind
  have hdevice : (binding.recorded.after requests).adapter.device =
      adapter.device := by
    have hcontinues :=
      continues_after (continues_refl binding.recorded) requests
    rw [hcontinues.device_eq, hmade]
    rfl
  obtain ⟨hmem, _, _⟩ := partition?_eq_some hopens.partition?_eq
  rw [hmade] at hmem
  have hword := Registry.end_lt_of_actAll hmem
  refine ⟨?_, ?_, ?_⟩
  · have hrecords := binding.records_recorded.after requests
    obtain ⟨hreply, hlast⟩ := hrecords.perform session access
    exact ⟨hreply, hlast.adapter.chip_eq⟩
  · intro hleaves
    unfold perform
    rw [Session.perform_of_not_confined (Nat.not_le_of_lt hleaves)]
  · intro hin
    refine ⟨by omega, ?_⟩
    rw [← hdevice]
    exact Session.calls_of_confined hword hin

end Binding

/-- On the small board an erase that is misaligned and leaves the key-value
partition is refused for leaving it.  A write inside asks the chip at most once, at
the addresses of the partition. -/
theorem session_confined_smallBoard :
    (SmallBoard.binding.recorded.perform (SmallBoard.session .kv)
        (.erase 30 8)).1 = ⟨.error .outOfRange, []⟩ ∧
      ∃ calls,
        (SmallBoard.binding.recorded.perform (SmallBoard.session .kv)
            (.write 4 [1, 2])).2.adapter.chip.calls = calls ∧
          calls.length ≤ 1 ∧
          ∀ call ∈ calls, ∃ address result,
            call = .access (.write address [1, 2]) result ∧
              (Access.write address [1, 2]).zone ⊆
                (SmallBoard.session .kv).partition.zone
                  SmallBoard.device := by
  have hconfined := Binding.session_confined SmallBoard.actions
    (show Binding.bind SmallBoard.ready
      (Registry.empty.actAll SmallBoard.actions).2.table SmallBoard.config
      SmallBoard.locks = .ok SmallBoard.binding from rfl)
    (SmallBoard.opens .kv) []
  obtain ⟨_, hrefused, _⟩ := hconfined (.erase 30 8)
  obtain ⟨_, _, hinside⟩ := hconfined (.write 4 [1, 2])
  refine ⟨congrArg Prod.fst (hrefused (by decide)), ?_⟩
  obtain ⟨_, calls, hcalls, hcount, hzone⟩ := hinside (by decide)
  exact ⟨calls, hcalls, hcount, hzone⟩

end FlashStorage
