import FlashStorage.Outcome

/-!
# Arithmetic on 64-bit words

Offsets, lengths and addresses are 64-bit words.  Three rules of arithmetic are
in use: a sum that stays at the largest word, and a sum or a difference that
halts when its exact value is no word.  Each is pinned down here by its value in
the natural numbers, so that later arguments never meet wrapped values.
-/

namespace FlashStorage.Word

variable {ε : Type}

/-- The largest word. -/
def largest : UInt64 := 18446744073709551615

@[simp] theorem toNat_largest : largest.toNat = UInt64.size - 1 := rfl

theorem toNat_add_of_lt {a b : UInt64}
    (hword : a.toNat + b.toNat < UInt64.size) :
    (a + b).toNat = a.toNat + b.toNat :=
  (UInt64.toNat_add a b).trans (Nat.mod_eq_of_lt hword)

/-- The sum, or the largest word if the sum is larger. -/
def saturatingAdd (a b : UInt64) : UInt64 :=
  if a.toNat + b.toNat < UInt64.size then a + b else largest

theorem toNat_saturatingAdd (a b : UInt64) :
    (saturatingAdd a b).toNat = min (a.toNat + b.toNat) (UInt64.size - 1) := by
  unfold saturatingAdd
  split
  · rename_i hword
    rw [toNat_add_of_lt hword]
    omega
  · rw [toNat_largest]
    omega

/-- The sum, if it is a word. -/
def add? (a b : UInt64) : Option UInt64 :=
  if a.toNat + b.toNat < UInt64.size then some (a + b) else none

theorem add?_eq_some_iff {a b sum : UInt64} :
    add? a b = some sum ↔ sum.toNat = a.toNat + b.toNat := by
  unfold add?
  split
  · rename_i hword
    rw [Option.some.injEq, ← UInt64.toNat_inj, toNat_add_of_lt hword]
    exact eq_comm
  · have := sum.toNat_lt_size
    simp
    omega

theorem add?_eq_none_iff {a b : UInt64} :
    add? a b = none ↔ UInt64.size ≤ a.toNat + b.toNat := by
  unfold add?
  split <;> simp <;> omega

/-- The sum, which halts where it is no word. -/
def add (a b : UInt64) : Outcome ε UInt64 :=
  match add? a b with
  | some sum => .ok sum
  | none => .halt .addOverflow

theorem add_eq_ok_iff {a b sum : UInt64} :
    (add a b : Outcome ε UInt64) = .ok sum ↔
      sum.toNat = a.toNat + b.toNat := by
  rw [← add?_eq_some_iff, add]
  cases add? a b <;> simp

theorem add_eq_halt_iff {a b : UInt64} {reason : Halt} :
    (add a b : Outcome ε UInt64) = .halt reason ↔
      reason = .addOverflow ∧ UInt64.size ≤ a.toNat + b.toNat := by
  rw [← add?_eq_none_iff, add]
  cases add? a b <;> simp [eq_comm]

/-- The difference, which halts where it is no word. -/
def sub (a b : UInt64) : Outcome ε UInt64 :=
  if b.toNat ≤ a.toNat then .ok (a - b) else .halt .subOverflow

theorem sub_eq_ok_iff {a b difference : UInt64} :
    (sub a b : Outcome ε UInt64) = .ok difference ↔
      difference.toNat + b.toNat = a.toNat := by
  unfold sub
  split
  · rename_i hle
    have hvalue :=
      UInt64.toNat_sub_of_le a b (UInt64.le_iff_toNat_le.mpr hle)
    rw [Outcome.ok.injEq, ← UInt64.toNat_inj, hvalue]
    omega
  · simp
    omega

end FlashStorage.Word
