/-!
# Variable-length numbers

A 64-bit number is written in groups of seven bits, lowest first; every byte but
the last has its high bit set.  Reading takes at most ten bytes.  It accepts
groups that add nothing, so a number has longer written forms as well, but the
tenth byte has room for one bit only.
-/

namespace FlashStorage.Varint

/-- The most bytes a 64-bit number takes. -/
def maxBytes : Nat := 10

/-- The shortest written form. -/
def encode (value : Nat) : List UInt8 :=
  if value < 128 then [UInt8.ofNat value]
  else UInt8.ofNat (128 + value % 128) :: encode (value / 128)
termination_by value

/-- Read a number that may take `room` more bytes, the last of which holds a
single bit. -/
def decodeWithin : Nat → List UInt8 → Option (Nat × List UInt8)
  | 0, _ => none
  | _ + 1, [] => none
  | room + 1, byte :: rest =>
      if byte.toNat < 128 then
        if room = 0 ∧ 1 < byte.toNat then none else some (byte.toNat, rest)
      else
        match decodeWithin room rest with
        | some (high, after) => some (byte.toNat - 128 + 128 * high, after)
        | none => none

/-- The number at the front of some bytes, and the bytes behind it. -/
def decode (bytes : List UInt8) : Option (UInt64 × List UInt8) :=
  match decodeWithin maxBytes bytes with
  | some (value, rest) => some (UInt64.ofNat value, rest)
  | none => none

/-- What is read with `room` bytes to spare fits in as many groups, the last of
which has one bit. -/
theorem lt_of_decodeWithin {room : Nat} {bytes rest : List UInt8} {value : Nat}
    (hdecode : decodeWithin room bytes = some (value, rest)) :
    value < 2 * Nat.pow 128 (room - 1) := by
  induction room generalizing bytes rest value with
  | zero => simp [decodeWithin] at hdecode
  | succ room ih =>
      cases bytes with
      | nil => simp [decodeWithin] at hdecode
      | cons byte tail =>
          have hbyte := byte.toNat_lt
          rw [Nat.add_sub_cancel]
          unfold decodeWithin at hdecode
          split at hdecode
          · split at hdecode
            · contradiction
            · rename_i hsmall hroom
              simp only [Option.some.injEq, Prod.mk.injEq] at hdecode
              rcases Nat.eq_zero_or_pos room with rfl | hpos
              · simp at hroom
                simp
                omega
              · have hpow : Nat.pow 128 1 ≤ Nat.pow 128 room :=
                  Nat.pow_le_pow_right (by decide) hpos
                change 128 ≤ Nat.pow 128 room at hpow
                omega
          · split at hdecode
            · rename_i high after hrest
              simp only [Option.some.injEq, Prod.mk.injEq] at hdecode
              have hhigh := ih hrest
              cases room with
              | zero => simp [decodeWithin] at hrest
              | succ room =>
                  have hpow : Nat.pow 128 (room + 1) =
                      Nat.pow 128 room * 128 := rfl
                  rw [Nat.add_sub_cancel] at hhigh
                  omega
            · contradiction

end FlashStorage.Varint
