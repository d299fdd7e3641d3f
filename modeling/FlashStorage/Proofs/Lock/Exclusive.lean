import FlashStorage.Lock.Basic

/-!
# Exclusive hooks

What a binding relies on in its lock hooks: one that is held is never granted, one
that is free always is, and giving a hook back makes it free.  Hooks that behave so may
be of any make.  A hook behind a tally behaves as it does without.
-/

namespace FlashStorage

/-- A hook that is granted exactly while it is free. -/
class ExclusiveHook (κ : Type) extends LockHook κ where
  held : κ → Bool
  acquire?_eq_none_iff : ∀ hook, acquire? hook = none ↔ held hook = true
  held_of_acquire? : ∀ hook taken,
    acquire? hook = some taken → held taken = true
  held_release : ∀ hook, held (release hook) = false

namespace ExclusiveHook

variable {κ : Type} [ExclusiveHook κ] {hook taken : κ}

theorem held_eq_false_of_acquire?
    (htaken : LockHook.acquire? hook = some taken) : held hook = false := by
  cases hheld : held hook with
  | false => rfl
  | true =>
      rw [(acquire?_eq_none_iff hook).mpr hheld] at htaken
      cases htaken

theorem exists_acquire?_eq_some (hfree : held hook = false) :
    ∃ taken, LockHook.acquire? hook = some taken := by
  cases hacquire : LockHook.acquire? hook with
  | some taken => exact ⟨taken, rfl⟩
  | none =>
      rw [(acquire?_eq_none_iff hook).mp hacquire] at hfree
      cases hfree

end ExclusiveHook

instance : ExclusiveHook SpinLock where
  held := SpinLock.held
  acquire?_eq_none_iff := by
    rintro ⟨held⟩
    cases held <;> simp [LockHook.acquire?, SpinLock.acquire?,
      SpinLock.tryLock]
  held_of_acquire? := by
    rintro ⟨held⟩ taken htaken
    cases held
    · cases htaken
      rfl
    · cases htaken
  held_release := by
    intro hook
    rfl

namespace Tallied

variable {κ : Type} [LockHook κ]

@[simp] theorem hook_acquire? (tallied : Tallied κ) :
    (LockHook.acquire? tallied).map hook =
      LockHook.acquire? tallied.hook := by
  change ((LockHook.acquire? tallied.hook).map _).map hook = _
  cases LockHook.acquire? tallied.hook with
  | none => rfl
  | some taken => rfl

@[simp] theorem hook_release (tallied : Tallied κ) :
    (LockHook.release tallied).hook = LockHook.release tallied.hook := rfl

@[simp] theorem taken_release (tallied : Tallied κ) :
    (LockHook.release tallied).taken = tallied.taken := rfl

@[simp] theorem released_release (tallied : Tallied κ) :
    (LockHook.release tallied).released = tallied.released + 1 := rfl

theorem counts_of_acquire? {tallied next : Tallied κ}
    (htaken : LockHook.acquire? tallied = some next) :
    next.taken = tallied.taken + 1 ∧ next.released = tallied.released := by
  obtain ⟨hook, _, rfl⟩ := Option.map_eq_some_iff.mp htaken
  exact ⟨rfl, rfl⟩

end Tallied

instance {κ : Type} [ExclusiveHook κ] : ExclusiveHook (Tallied κ) where
  held tallied := ExclusiveHook.held tallied.hook
  acquire?_eq_none_iff := by
    intro tallied
    rw [← ExclusiveHook.acquire?_eq_none_iff, ← Tallied.hook_acquire?,
      Option.map_eq_none_iff]
  held_of_acquire? := by
    intro tallied taken htaken
    have hhook := tallied.hook_acquire?
    rw [htaken, Option.map_some] at hhook
    exact ExclusiveHook.held_of_acquire? _ _ hhook.symm
  held_release := by
    intro tallied
    exact ExclusiveHook.held_release tallied.hook

end FlashStorage
