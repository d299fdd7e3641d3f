/-!
# Names

Regions, devices and partitions carry short names: at most sixteen bytes of
UTF-8.  A name taken from elsewhere is either cut to its longest fitting
beginning or refused as a whole.
-/

namespace FlashStorage

/-- The most bytes a name may take in UTF-8. -/
def Name.capacity : Nat := 16

/-- A text of at most sixteen bytes. -/
structure Name where
  text : String
  fits : text.utf8ByteSize ≤ Name.capacity
deriving DecidableEq, Repr

namespace Name

@[ext] theorem ext {a b : Name} (htext : a.text = b.text) : a = b := by
  cases a
  cases b
  simp_all

/-- The bytes that characters take in UTF-8. -/
def byteSize : List Char → Nat
  | [] => 0
  | character :: rest => character.utf8Size + byteSize rest

/-- The bytes that a text takes, character by character. -/
theorem utf8ByteSize_ofList (characters : List Char) :
    (String.ofList characters).utf8ByteSize = byteSize characters := by
  induction characters with
  | nil => rfl
  | cons character rest ih =>
      rw [String.ofList_cons, String.utf8ByteSize_append, ih, byteSize]
      simp

/-- The characters up to the first that does not fit in what is left of the
room.  That one and all behind it are dropped, also those that would fit. -/
def fitting (room : Nat) : List Char → List Char
  | [] => []
  | character :: rest =>
      if character.utf8Size ≤ room then
        character :: fitting (room - character.utf8Size) rest
      else []

theorem byteSize_fitting_le (room : Nat) (characters : List Char) :
    byteSize (fitting room characters) ≤ room := by
  induction characters generalizing room with
  | nil => exact Nat.zero_le room
  | cons character rest ih =>
      unfold fitting
      split
      · have hrest := ih (room - character.utf8Size)
        rw [byteSize]
        omega
      · exact Nat.zero_le room

/-- The longest beginning of a text that is a name. -/
def truncate (text : String) : Name where
  text := String.ofList (fitting capacity text.toList)
  fits := by
    rw [utf8ByteSize_ofList]
    exact byteSize_fitting_le _ _

/-- A text that is short enough, as a name. -/
def ofString? (text : String) : Option Name :=
  if fits : text.utf8ByteSize ≤ capacity then some ⟨text, fits⟩ else none

theorem ofString?_eq_some_iff {text : String} {name : Name} :
    ofString? text = some name ↔ name.text = text := by
  unfold ofString?
  split
  · constructor
    · intro h
      cases h
      rfl
    · intro h
      subst h
      rfl
  · rename_i hlong
    constructor
    · intro h
      cases h
    · intro h
      exact absurd (h ▸ name.fits) hlong

theorem ofString?_eq_none_iff {text : String} :
    ofString? text = none ↔ capacity < text.utf8ByteSize := by
  unfold ofString?
  split <;> simp <;> omega

end Name

end FlashStorage
