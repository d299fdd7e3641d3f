/-!
# Little-endian bytes

A number in a fixed count of bytes, lowest byte first.  Writing keeps the number
modulo the count's range, and reading a written form gives that remainder back.
-/

namespace FlashStorage.LittleEndian

/-- The lowest `count` bytes of a number. -/
def encode : Nat → Nat → List UInt8
  | 0, _ => []
  | count + 1, value => UInt8.ofNat value :: encode count (value / 256)

def decode : List UInt8 → Nat
  | [] => 0
  | byte :: rest => byte.toNat + 256 * decode rest

@[simp] theorem length_encode (count value : Nat) :
    (encode count value).length = count := by
  induction count generalizing value with
  | zero => rfl
  | succ count ih => simp [encode, ih]

theorem decode_lt (bytes : List UInt8) :
    decode bytes < Nat.pow 256 bytes.length := by
  induction bytes with
  | nil => simp [decode]
  | cons byte rest ih =>
      have hbyte := byte.toNat_lt
      have hpow : Nat.pow 256 (byte :: rest).length =
          Nat.pow 256 rest.length * 256 := rfl
      rw [decode, hpow]
      omega

theorem decode_encode (count value : Nat) :
    decode (encode count value) = value % Nat.pow 256 count := by
  induction count generalizing value with
  | zero => simp [encode, decode, Nat.mod_one]
  | succ count ih =>
      have hlow : (UInt8.ofNat value).toNat = value % 256 := rfl
      rw [encode, decode, ih, hlow, Nat.pow_eq, Nat.pow_eq, Nat.pow_succ',
        Nat.mod_mul]

theorem encode_decode (bytes : List UInt8) :
    encode bytes.length (decode bytes) = bytes := by
  induction bytes with
  | nil => rfl
  | cons byte rest ih =>
      have hbyte := byte.toNat_lt
      have hlow : (byte.toNat + 256 * decode rest) % 2 ^ 8 = byte.toNat := by
        omega
      have hhigh : (byte.toNat + 256 * decode rest) / 256 = decode rest := by
        omega
      simp only [decode, List.length_cons, encode, hhigh, ih, List.cons.injEq,
        and_true]
      apply UInt8.toNat_inj.mp
      rw [UInt8.toNat_ofNat', hlow]

end FlashStorage.LittleEndian
