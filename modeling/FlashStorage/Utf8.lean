/-!
# UTF-8

Texts as lists of bytes.  Decoding accepts exactly what encoding produces.
-/

namespace FlashStorage.Utf8

def encode (text : String) : List UInt8 := text.toByteArray.data.toList

/-- The text that bytes encode, if they are valid. -/
def decode? (bytes : List UInt8) : Option String :=
  String.fromUTF8? ⟨bytes.toArray⟩

@[simp] theorem length_encode (text : String) :
    (encode text).length = text.utf8ByteSize := by
  rfl

theorem decode?_eq_some_iff {bytes : List UInt8} {text : String} :
    decode? bytes = some text ↔ bytes = encode text := by
  unfold decode? String.fromUTF8?
  split
  · rename_i hvalid
    simp only [Option.some.injEq, encode]
    constructor
    · rintro rfl
      rfl
    · rintro rfl
      rfl
  · rename_i hinvalid
    simp only [reduceCtorEq, false_iff]
    rintro rfl
    exact hinvalid text.isValidUTF8

/-- The bytes of a text begin with the bytes of another one only where its characters
do: no character's bytes begin with those of another character. -/
theorem encode_isPrefix_iff {start text : String} :
    encode start <+: encode text ↔ start.toList <+: text.toList := by
  constructor
  · rintro ⟨tail, htail⟩
    apply List.isPrefix_of_utf8Encode_append_eq_utf8Encode ⟨tail.toArray⟩
    rw [String.utf8Encode_toList, String.utf8Encode_toList]
    apply ByteArray.ext
    apply Array.toList_inj.mp
    simpa [encode] using htail
  · rintro ⟨rest, hrest⟩
    refine ⟨rest.utf8Encode.data.toList, ?_⟩
    have hbytes : text.toByteArray = start.toByteArray ++ rest.utf8Encode := by
      rw [← String.utf8Encode_toList, ← hrest, List.utf8Encode_append,
        String.utf8Encode_toList]
    simp [encode, hbytes]

@[simp] theorem decode?_encode (text : String) :
    decode? (encode text) = some text :=
  decode?_eq_some_iff.mpr rfl

end FlashStorage.Utf8
