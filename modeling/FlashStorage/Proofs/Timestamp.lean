import FlashStorage.Timestamp

/-!
# Timestamps are read back

Every width stores the timestamps in its signed range, each in a form of its own, and
every string of as many bytes is the form of one of them.  Writing puts the form in
front of what the buffer holds there and leaves the rest; reading looks at the form
alone.  So each of the two undoes the other, for negative timestamps too.
-/

namespace FlashStorage

namespace TimestampWidth

variable {width : TimestampWidth} {timestamp : Int64}

/-- The timestamps that a width has room for. -/
def InRange : TimestampWidth → Int64 → Prop
  | .bits32, timestamp =>
      -2147483648 ≤ timestamp.toInt ∧ timestamp.toInt ≤ 2147483647
  | .bits64, _ => True

@[simp] theorem modulus_bits32 : modulus .bits32 = 4294967296 := rfl

@[simp] theorem modulus_bits64 : modulus .bits64 = 18446744073709551616 := rfl

theorem modulus_pos (width : TimestampWidth) : 0 < width.modulus := by
  cases width <;> simp

theorem inRange_iff :
    width.InRange timestamp ↔
      -(width.modulus / 2 : Int) ≤ timestamp.toInt ∧
        timestamp.toInt < (width.modulus / 2 : Int) := by
  have hlow := timestamp.le_toInt
  have hhigh := timestamp.toInt_lt
  cases width with
  | bits32 =>
      rw [InRange, modulus_bits32]
      omega
  | bits64 =>
      rw [InRange, modulus_bits64, true_iff]
      omega

theorem admits_iff : width.admits timestamp = true ↔ width.InRange timestamp := by
  rw [admits, decide_eq_true_eq, inRange_iff]

theorem InRange.bmod_eq (hrange : width.InRange timestamp) :
    timestamp.toInt.bmod width.modulus = timestamp.toInt := by
  rw [inRange_iff] at hrange
  apply Int.bmod_eq_of_le
  · exact hrange.1
  · omega

theorem bmod_bounds (width : TimestampWidth) (value : Int) :
    -(width.modulus / 2 : Int) ≤ value.bmod width.modulus ∧
      value.bmod width.modulus < (width.modulus / 2 : Int) := by
  have hlow := Int.le_bmod (x := value) width.modulus_pos
  have hhigh := Int.bmod_lt (x := value) width.modulus_pos
  cases width with
  | bits32 =>
      rw [modulus_bits32] at hlow hhigh ⊢
      omega
  | bits64 =>
      rw [modulus_bits64] at hlow hhigh ⊢
      omega

end TimestampWidth

namespace Timestamp

variable {width : TimestampWidth} {timestamp : Int64} {stored buffer : List UInt8}
  {cause : TimestampError} {count : Nat}

/-! ## The stored form -/

@[simp] theorem length_toBytes (width : TimestampWidth) (timestamp : Int64) :
    (toBytes width timestamp).length = width.bytes :=
  LittleEndian.length_encode _ _

/-- The stored form spells the timestamp in two's complement. -/
theorem decode_toBytes (width : TimestampWidth) (timestamp : Int64) :
    (LittleEndian.decode (toBytes width timestamp) : Int) =
      timestamp.toInt % width.modulus := by
  have hpos : (0 : Int) < width.modulus := by exact_mod_cast width.modulus_pos
  have hnonneg := Int.emod_nonneg timestamp.toInt (Int.ne_of_gt hpos)
  have hlt := Int.emod_lt_of_pos timestamp.toInt hpos
  have hsmall : (timestamp.toInt % width.modulus).toNat < width.modulus := by
    omega
  rw [toBytes, LittleEndian.decode_encode]
  change (((timestamp.toInt % width.modulus).toNat % width.modulus : Nat) : Int) = _
  rw [Nat.mod_eq_of_lt hsmall, Int.toNat_of_nonneg hnonneg]

theorem toInt_ofBytes (width : TimestampWidth) (stored : List UInt8) :
    (ofBytes width stored).toInt =
      (LittleEndian.decode stored : Int).bmod width.modulus := by
  have hbounds := width.bmod_bounds (LittleEndian.decode stored)
  have hhalf : width.modulus / 2 ≤ 2 ^ 63 := by cases width <;> simp
  apply Int64.toInt_ofInt_of_le
  · omega
  · omega

theorem inRange_ofBytes (width : TimestampWidth) (stored : List UInt8) :
    width.InRange (ofBytes width stored) := by
  rw [TimestampWidth.inRange_iff, toInt_ofBytes]
  exact width.bmod_bounds _

theorem ofBytes_toBytes (hrange : width.InRange timestamp) :
    ofBytes width (toBytes width timestamp) = timestamp := by
  apply Int64.toInt_inj.mp
  calc (ofBytes width (toBytes width timestamp)).toInt
      = (timestamp.toInt % width.modulus).bmod width.modulus := by
          rw [toInt_ofBytes, decode_toBytes]
    _ = timestamp.toInt.bmod width.modulus := Int.emod_bmod _ _
    _ = timestamp.toInt := hrange.bmod_eq

theorem toBytes_ofBytes (hlength : stored.length = width.bytes) :
    toBytes width (ofBytes width stored) = stored := by
  have hlt : LittleEndian.decode stored < width.modulus := by
    rw [TimestampWidth.modulus, ← hlength]
    exact LittleEndian.decode_lt stored
  have hvalue : (ofBytes width stored).toInt % width.modulus =
      LittleEndian.decode stored := by
    rw [toInt_ofBytes, Int.bmod_emod]
    apply Int.emod_eq_of_lt
    · exact Int.natCast_nonneg _
    · exact_mod_cast hlt
  rw [toBytes, hvalue, Int.toNat_natCast, ← hlength]
  exact LittleEndian.encode_decode stored

/-! ## Writing and reading -/

/-- How writing a timestamp to a buffer can end. -/
inductive Written (width : TimestampWidth) (timestamp : Int64)
    (buffer : List UInt8) : Reply (Except TimestampError Nat) → Prop where
  | stored (hroom : width.bytes ≤ buffer.length)
      (hrange : width.InRange timestamp) :
      Written width timestamp buffer
        ⟨.ok width.bytes, toBytes width timestamp ++ buffer.drop width.bytes⟩
  | bufferTooSmall (hshort : buffer.length < width.bytes) :
      Written width timestamp buffer ⟨.error .bufferTooSmall, buffer⟩
  | overflow (hroom : width.bytes ≤ buffer.length)
      (hrange : ¬ width.InRange timestamp) :
      Written width timestamp buffer ⟨.error .overflow, buffer⟩

theorem encode_written (width : TimestampWidth) (timestamp : Int64)
    (buffer : List UInt8) :
    Written width timestamp buffer (encode width timestamp buffer) := by
  unfold encode
  split
  next hshort => exact .bufferTooSmall hshort
  next hroom =>
    rw [Nat.not_lt] at hroom
    split
    next hadmits =>
      exact .stored hroom (TimestampWidth.admits_iff.mp hadmits)
    next hadmits =>
      rw [TimestampWidth.admits_iff] at hadmits
      exact .overflow hroom hadmits

namespace Written

variable {reply : Reply (Except TimestampError Nat)}

theorem result_eq_ok_iff (hend : Written width timestamp buffer reply) :
    reply.result = .ok width.bytes ↔
      width.bytes ≤ buffer.length ∧ width.InRange timestamp := by
  cases hend with
  | stored hroom hrange => simp [hroom, hrange]
  | bufferTooSmall hshort => simp [Nat.not_le.mpr hshort]
  | overflow hroom hrange => simp [hrange]

theorem result_eq_bufferTooSmall_iff
    (hend : Written width timestamp buffer reply) :
    reply.result = .error .bufferTooSmall ↔ buffer.length < width.bytes := by
  cases hend with
  | stored hroom hrange => simp [hroom]
  | bufferTooSmall hshort => simp [hshort]
  | overflow hroom hrange => simp [hroom]

theorem result_eq_overflow_iff (hend : Written width timestamp buffer reply) :
    reply.result = .error .overflow ↔
      width.bytes ≤ buffer.length ∧ ¬ width.InRange timestamp := by
  cases hend with
  | stored hroom hrange => simp [hrange]
  | bufferTooSmall hshort => simp [Nat.not_le.mpr hshort]
  | overflow hroom hrange => simp [hroom, hrange]

theorem buffer_eq_of_error (hend : Written width timestamp buffer reply)
    (herror : reply.result = .error cause) : reply.buffer = buffer := by
  cases hend with
  | stored hroom hrange => cases herror
  | bufferTooSmall hshort => rfl
  | overflow hroom hrange => rfl

theorem eq_of_ok (hend : Written width timestamp buffer reply)
    (hok : reply.result = .ok count) :
    count = width.bytes ∧ width.bytes ≤ buffer.length ∧
      width.InRange timestamp ∧
      reply.buffer = toBytes width timestamp ++ buffer.drop width.bytes := by
  cases hend with
  | stored hroom hrange =>
      cases hok
      exact ⟨rfl, hroom, hrange, rfl⟩
  | bufferTooSmall hshort => cases hok
  | overflow hroom hrange => cases hok

end Written

theorem encode_of_inRange (hroom : width.bytes ≤ buffer.length)
    (hrange : width.InRange timestamp) :
    encode width timestamp buffer =
      ⟨.ok width.bytes, toBytes width timestamp ++ buffer.drop width.bytes⟩ := by
  have hadmits := TimestampWidth.admits_iff.mpr hrange
  rw [encode, if_neg (Nat.not_lt.mpr hroom), if_pos hadmits]

theorem decode_of_short (hshort : buffer.length < width.bytes) :
    decode width buffer = .error .bufferTooSmall :=
  if_pos hshort

theorem decode_append (hlength : stored.length = width.bytes)
    (following : List UInt8) :
    decode width (stored ++ following) = .ok (ofBytes width stored) := by
  have hroom : ¬ (stored ++ following).length < width.bytes := by
    rw [List.length_append]
    omega
  rw [decode, if_neg hroom, List.take_left' hlength]

theorem decode_toBytes_append (hrange : width.InRange timestamp)
    (following : List UInt8) :
    decode width (toBytes width timestamp ++ following) = .ok timestamp := by
  rw [decode_append (length_toBytes width timestamp), ofBytes_toBytes hrange]

theorem exists_decode_eq_ok (hroom : width.bytes ≤ buffer.length) :
    ∃ value, decode width buffer = .ok value ∧ width.InRange value ∧
      toBytes width value = buffer.take width.bytes := by
  have hlength : (buffer.take width.bytes).length = width.bytes :=
    List.length_take_of_le hroom
  have hread := decode_append hlength (buffer.drop width.bytes)
  rw [List.take_append_drop] at hread
  exact ⟨_, hread, inRange_ofBytes width _, toBytes_ofBytes hlength⟩

/-- Writing succeeds exactly for a timestamp in range and a buffer with room for it,
and a buffer without room is reported before a timestamp out of range.  A refusal
leaves the buffer alone; otherwise only the bytes of the width change.  They spell the
timestamp in two's complement, lowest byte first, and it is read back from them,
whatever follows.  Every buffer with that many bytes reads as a timestamp in range, and
writing this one restores exactly those bytes; shorter buffers are refused. -/
theorem codec_exact (width : TimestampWidth) (timestamp : Int64)
    (buffer : List UInt8) :
    let reply := encode width timestamp buffer
    (reply.result = .ok width.bytes ↔
        width.bytes ≤ buffer.length ∧ width.InRange timestamp) ∧
      (reply.result = .error .bufferTooSmall ↔
        buffer.length < width.bytes) ∧
      (reply.result = .error .overflow ↔
        width.bytes ≤ buffer.length ∧ ¬ width.InRange timestamp) ∧
      (∀ cause, reply.result = .error cause → reply.buffer = buffer) ∧
      (∀ count, reply.result = .ok count →
        count = width.bytes ∧
          reply.buffer.length = buffer.length ∧
          reply.buffer.drop width.bytes = buffer.drop width.bytes ∧
          (LittleEndian.decode (reply.buffer.take width.bytes) : Int) =
            timestamp.toInt % width.modulus ∧
          decode width reply.buffer = .ok timestamp ∧
          ∀ following,
            decode width (reply.buffer.take width.bytes ++ following) =
              .ok timestamp) ∧
      (buffer.length < width.bytes →
        decode width buffer = .error .bufferTooSmall) ∧
      (width.bytes ≤ buffer.length →
        ∃ value, decode width buffer = .ok value ∧ width.InRange value ∧
          ∀ target : List UInt8, width.bytes ≤ target.length →
            encode width value target =
              ⟨.ok width.bytes,
                buffer.take width.bytes ++ target.drop width.bytes⟩) := by
  intro reply
  have hend : Written width timestamp buffer reply :=
    encode_written width timestamp buffer
  refine ⟨hend.result_eq_ok_iff, hend.result_eq_bufferTooSmall_iff,
    hend.result_eq_overflow_iff, fun _ => hend.buffer_eq_of_error, ?_,
    decode_of_short, ?_⟩
  · intro count hok
    obtain ⟨hcount, hroom, hrange, hbuffer⟩ := hend.eq_of_ok hok
    have hform := length_toBytes width timestamp
    have hfront : reply.buffer.take width.bytes = toBytes width timestamp := by
      rw [hbuffer, List.take_left' hform]
    have hread := decode_toBytes_append hrange
    refine ⟨hcount, ?_, ?_, ?_, ?_, ?_⟩
    · rw [hbuffer, List.length_append, hform, List.length_drop]
      omega
    · rw [hbuffer, List.drop_left' hform]
    · rw [hfront, decode_toBytes]
    · rw [hbuffer]
      exact hread _
    · rw [hfront]
      exact hread
  · intro hroom
    obtain ⟨value, hread, hrange, hform⟩ := exists_decode_eq_ok hroom
    refine ⟨value, hread, hrange, ?_⟩
    intro target htarget
    rw [encode_of_inRange htarget hrange, hform]

/-- Four bytes hold -2, and it is read back from them and the byte behind.  They have no
room for the number behind the largest one in range. -/
theorem codec_exact_minusTwo :
    (encode .bits32 (-2) [1, 2, 3, 4, 5]).buffer = [254, 255, 255, 255, 5] ∧
      decode .bits32 [254, 255, 255, 255, 5] = .ok (-2) ∧
      (encode .bits32 2147483648 [1, 2, 3, 4]).result = .error .overflow := by
  have hwrite : encode .bits32 (-2) [1, 2, 3, 4, 5] =
      ⟨.ok 4, [254, 255, 255, 255, 5]⟩ := rfl
  obtain ⟨_, _, _, _, hread, _⟩ := codec_exact .bits32 (-2) [1, 2, 3, 4, 5]
  obtain ⟨_, _, hlarge, _⟩ := codec_exact .bits32 2147483648 [1, 2, 3, 4]
  rw [hwrite] at hread
  obtain ⟨_, _, _, _, hvalue, _⟩ := hread 4 rfl
  refine ⟨by rw [hwrite], hvalue, hlarge.mpr ⟨by decide, ?_⟩⟩
  intro hrange
  exact absurd hrange.2 (by decide)

end Timestamp

end FlashStorage
