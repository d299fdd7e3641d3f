import FlashStorage.Config.Record

/-!
# What is accepted as a record

A number has longer forms than the one it is written in, so a configuration can be read
from other bytes than its record.  Which bytes these are is said here without the
reader: three bytes as they are, every number as groups of seven bits in at most ten
bytes, and every name in UTF-8 behind a form of its length.  The reader takes exactly
these forms and looks at nothing behind them.  A form that is cut off is therefore
refused before its version counts, and the record is the shortest form of all.
-/

namespace FlashStorage

/-! ## Readers of forms -/

section

variable {α : Type} {read : List UInt8 → Option (α × List UInt8)}
  {IsForm : α → List UInt8 → Prop} {value : α} {form : List UInt8} {kept : Nat}

/-- A reader takes the forms of values from the front of some bytes, and nothing
else. -/
def Reads (read : List UInt8 → Option (α × List UInt8))
    (IsForm : α → List UInt8 → Prop) : Prop :=
  ∀ bytes value rest, read bytes = some (value, rest) ↔
    ∃ form, IsForm value form ∧ bytes = form ++ rest

theorem Reads.eq_some (hreads : Reads read IsForm) (hform : IsForm value form)
    (rest : List UInt8) : read (form ++ rest) = some (value, rest) :=
  (hreads _ _ _).mpr ⟨form, hform, rfl⟩

/-- A form that is cut off is not taken: what is read from its front would be read
from the whole form as well, and leave the bytes that were cut off. -/
theorem Reads.eq_none_of_cut (hreads : Reads read IsForm)
    (hform : IsForm value form) (hcut : kept < form.length) :
    read (form.take kept) = none := by
  cases hread : read (form.take kept) with
  | none => rfl
  | some result =>
      obtain ⟨front, hfront, hsplit⟩ := (hreads _ result.1 result.2).mp hread
      have hwhole : form ++ [] = front ++ (result.2 ++ form.drop kept) := by
        rw [List.append_nil, ← List.append_assoc, ← hsplit,
          List.take_append_drop]
      have hleft := hreads.eq_some hfront (result.2 ++ form.drop kept)
      rw [← hwhole, hreads.eq_some hform] at hleft
      have hnothing : result.2 ++ form.drop kept = [] :=
        (congrArg Prod.snd (Option.some.inj hleft)).symm
      obtain ⟨_, hdropped⟩ := List.append_eq_nil_iff.mp hnothing
      exact absurd (List.drop_eq_nil_iff.mp hdropped) (Nat.not_le_of_lt hcut)

end

/-! ## Forms of a number -/

namespace Varint

/-- Groups of seven bits, the lowest first, that stand for a number.  Every byte but the
last has its high bit set, and the last groups may add nothing. -/
inductive Groups : Nat → List UInt8 → Prop where
  | last (byte : UInt8) (hlast : byte.toNat < 128) :
      Groups byte.toNat [byte]
  | more {high : Nat} {groups : List UInt8} (byte : UInt8)
      (hmore : 128 ≤ byte.toNat) (hhigh : Groups high groups) :
      Groups (byte.toNat - 128 + 128 * high) (byte :: groups)

/-- The forms in which a 64-bit number is read. -/
structure IsForm (value : Nat) (form : List UInt8) : Prop where
  groups : Groups value form
  length_le : form.length ≤ maxBytes
  lt_size : value < UInt64.size

variable {value room : Nat} {form bytes rest : List UInt8}

theorem Groups.length_pos (hgroups : Groups value form) : 0 < form.length := by
  cases hgroups with
  | last byte _ => exact Nat.one_pos
  | more byte _ _ => exact Nat.succ_pos _

theorem groups_encode (value : Nat) : Groups value (encode value) := by
  induction value using encode.induct with
  | case1 value hsmall =>
      have hbyte : (UInt8.ofNat value).toNat = value :=
        Nat.mod_eq_of_lt (by omega)
      have hlast := Groups.last (UInt8.ofNat value) (by omega)
      rw [encode, if_pos hsmall]
      rwa [hbyte] at hlast
  | case2 value hlarge ih =>
      have hbyte : (UInt8.ofNat (128 + value % 128)).toNat =
          128 + value % 128 :=
        Nat.mod_eq_of_lt (by omega)
      have hmore := Groups.more (UInt8.ofNat (128 + value % 128))
        (by omega) ih
      have hvalue : 128 + value % 128 - 128 + 128 * (value / 128) = value := by
        omega
      rw [hbyte, hvalue] at hmore
      rw [encode, if_neg hlarge]
      exact hmore

/-- No form of a number is shorter than the one it is written in. -/
theorem Groups.length_encode_le (hgroups : Groups value form) :
    (encode value).length ≤ form.length := by
  induction hgroups with
  | last byte hlast =>
      rw [encode, if_pos hlast]
      exact Nat.le_refl 1
  | @more high groups byte hmore hhigh ih =>
      have hbyte := byte.toNat_lt
      rw [encode]
      split
      · exact Nat.succ_le_succ (Nat.zero_le _)
      · have hrest : (byte.toNat - 128 + 128 * high) / 128 = high := by omega
        rw [hrest, List.length_cons, List.length_cons]
        exact Nat.succ_le_succ ih

theorem exists_groups_of_decodeWithin
    (hdecode : decodeWithin room bytes = some (value, rest)) :
    ∃ form, Groups value form ∧ form.length ≤ room ∧
      bytes = form ++ rest := by
  induction room generalizing bytes value with
  | zero => simp [decodeWithin] at hdecode
  | succ room ih =>
      cases bytes with
      | nil => simp [decodeWithin] at hdecode
      | cons byte tail =>
          unfold decodeWithin at hdecode
          split at hdecode
          · rename_i hlast
            split at hdecode
            · cases hdecode
            · cases hdecode
              exact ⟨[byte], .last byte hlast, Nat.succ_le_succ room.zero_le,
                rfl⟩
          · rename_i hmore
            split at hdecode
            · rename_i high after hrest
              cases hdecode
              obtain ⟨form, hgroups, hlength, rfl⟩ := ih hrest
              exact ⟨byte :: form, .more byte (Nat.le_of_not_lt hmore) hgroups,
                Nat.succ_le_succ hlength, rfl⟩
            · cases hdecode

/-- Room for so many bytes, the last of which holds one bit, is room for the groups of
a number that is small enough. -/
theorem Groups.decodeWithin_append (hgroups : Groups value form)
    (hlength : form.length ≤ room)
    (hlimit : value < 2 * Nat.pow 128 (room - 1)) (rest : List UInt8) :
    decodeWithin room (form ++ rest) = some (value, rest) := by
  induction hgroups generalizing room with
  | last byte hlast =>
      cases room with
      | zero => simp at hlength
      | succ room =>
          have hroom : ¬ (room = 0 ∧ 1 < byte.toNat) := by
            rintro ⟨rfl, hbyte⟩
            change byte.toNat < 2 at hlimit
            omega
          rw [List.singleton_append, decodeWithin, if_pos hlast, if_neg hroom]
  | @more high groups byte hmore hhigh ih =>
      have hsome := hhigh.length_pos
      rw [List.length_cons] at hlength
      obtain ⟨room, rfl⟩ : ∃ more, room = more + 2 :=
        ⟨room - 2, by omega⟩
      have hpow : Nat.pow 128 (room + 1) = Nat.pow 128 room * 128 := rfl
      have hlimitHigh : high < 2 * Nat.pow 128 room := by
        change byte.toNat - 128 + 128 * high < 2 * Nat.pow 128 (room + 1)
          at hlimit
        omega
      rw [List.cons_append, decodeWithin, if_neg (Nat.not_lt_of_le hmore),
        ih (Nat.le_of_succ_le_succ hlength) hlimitHigh]

/-- The numbers that are read are exactly those in some form. -/
theorem reads_decode :
    Reads decode (fun value form => IsForm value.toNat form) := by
  intro bytes value rest
  constructor
  · intro hdecode
    unfold decode at hdecode
    split at hdecode
    · rename_i found after hwithin
      cases hdecode
      have hlimit : found < UInt64.size := lt_of_decodeWithin hwithin
      have hfound : (UInt64.ofNat found).toNat = found :=
        Nat.mod_eq_of_lt hlimit
      obtain ⟨form, hgroups, hlength, rfl⟩ :=
        exists_groups_of_decodeWithin hwithin
      refine ⟨form, ?_, rfl⟩
      change IsForm (UInt64.ofNat found).toNat form
      rw [hfound]
      exact ⟨hgroups, hlength, hlimit⟩
    · cases hdecode
  · rintro ⟨form, ⟨hgroups, hlength, hlimit⟩, rfl⟩
    rw [decode, hgroups.decodeWithin_append hlength hlimit]
    simp only [UInt64.ofNat_toNat]

end Varint

namespace Config

namespace Record

variable {config : Config} {name : Name} {form bytes rest : List UInt8}

/-! ## Forms of a record -/

/-- A name in UTF-8 behind a form of its length. -/
def IsNameForm (name : Name) (form : List UInt8) : Prop :=
  ∃ length, Varint.IsForm name.text.utf8ByteSize length ∧
    form = length ++ Utf8.encode name.text

/-- The forms in which a configuration is read. -/
def IsForm (config : Config) (form : List UInt8) : Prop :=
  ∃ kvSize tsSize kvName tsName,
    Varint.IsForm config.kvSize.toNat kvSize ∧
      Varint.IsForm config.tsSize.toNat tsSize ∧
      IsNameForm config.kvName kvName ∧ IsNameForm config.tsName tsName ∧
      form = [config.version, config.granularityBits, config.timestampBits] ++
        kvSize ++ tsSize ++ kvName ++ tsName

theorem reads_decodeName : Reads decodeName IsNameForm := by
  intro bytes name rest
  unfold decodeName
  simp only [Option.bind_eq_bind, Option.bind_eq_some_iff, Prod.exists]
  constructor
  · rintro ⟨length, behind, hlength, hname⟩
    obtain ⟨form, hform, rfl⟩ := (Varint.reads_decode _ _ _).mp hlength
    split at hname
    · cases hname
    · rename_i hroom
      simp only [Option.bind_eq_some_iff, Utf8.decode?_eq_some_iff,
        Name.ofString?_eq_some_iff] at hname
      obtain ⟨text, htext, found, rfl, hresult⟩ := hname
      cases hresult
      have hsize : name.text.utf8ByteSize = length.toNat := by
        rw [← Utf8.length_encode, ← htext, List.length_take]
        omega
      refine ⟨form ++ Utf8.encode name.text, ⟨form, ?_, rfl⟩, ?_⟩
      · rw [hsize]
        exact hform
      · rw [← htext, List.append_assoc, List.take_append_drop]
  · rintro ⟨_, ⟨length, hlength, rfl⟩, rfl⟩
    have hsize : (UInt64.ofNat name.text.utf8ByteSize).toNat =
        name.text.utf8ByteSize :=
      Nat.mod_eq_of_lt hlength.lt_size
    have hroom : ¬ (Utf8.encode name.text ++ rest).length <
        name.text.utf8ByteSize := by
      rw [List.length_append, Utf8.length_encode]
      omega
    have htake : (Utf8.encode name.text ++ rest).take
        name.text.utf8ByteSize = Utf8.encode name.text :=
      List.take_left' (Utf8.length_encode name.text)
    have hdrop : (Utf8.encode name.text ++ rest).drop
        name.text.utf8ByteSize = rest :=
      List.drop_left' (Utf8.length_encode name.text)
    have hname : Name.ofString? name.text = some name :=
      Name.ofString?_eq_some_iff.mpr rfl
    refine ⟨UInt64.ofNat name.text.utf8ByteSize,
      Utf8.encode name.text ++ rest, ?_, ?_⟩
    · rw [List.append_assoc]
      rw [← hsize] at hlength
      exact Varint.reads_decode.eq_some hlength _
    · simp only [hsize, hroom, if_false, htake, hdrop, Utf8.decode?_encode,
        Option.bind_some, hname]

theorem decodeByte_eq_some_iff {byte : UInt8} :
    decodeByte bytes = some (byte, rest) ↔ bytes = byte :: rest := by
  cases bytes with
  | nil => simp [decodeByte]
  | cons first tail => simp [decodeByte]

/-- The configurations that are read are exactly those in some form. -/
theorem reads_decode : Reads decode IsForm := by
  intro bytes config rest
  unfold decode
  simp only [Option.bind_eq_bind, Option.bind_eq_some_iff, Prod.exists,
    decodeByte_eq_some_iff]
  constructor
  · rintro ⟨version, _, rfl, granularityBits, _, rfl, timestampBits, _, rfl,
      kvSize, _, hkvSize, tsSize, _, htsSize, kvName, _, hkvName, tsName, _,
      htsName, hresult⟩
    cases hresult
    obtain ⟨kvSizeForm, hkvSizeForm, rfl⟩ :=
      (Varint.reads_decode _ _ _).mp hkvSize
    obtain ⟨tsSizeForm, htsSizeForm, rfl⟩ :=
      (Varint.reads_decode _ _ _).mp htsSize
    obtain ⟨kvNameForm, hkvNameForm, rfl⟩ :=
      (reads_decodeName _ _ _).mp hkvName
    obtain ⟨tsNameForm, htsNameForm, rfl⟩ :=
      (reads_decodeName _ _ _).mp htsName
    refine ⟨_, ⟨kvSizeForm, tsSizeForm, kvNameForm, tsNameForm, hkvSizeForm,
      htsSizeForm, hkvNameForm, htsNameForm, rfl⟩, ?_⟩
    simp only [List.append_assoc, List.cons_append, List.nil_append]
  · rintro ⟨_, ⟨kvSize, tsSize, kvName, tsName, hkvSize, htsSize, hkvName,
      htsName, rfl⟩, rfl⟩
    simp only [List.append_assoc, List.cons_append, List.nil_append]
    exact ⟨_, _, rfl, _, _, rfl, _, _, rfl,
      _, _, Varint.reads_decode.eq_some hkvSize _,
      _, _, Varint.reads_decode.eq_some htsSize _,
      _, _, reads_decodeName.eq_some hkvName _,
      _, _, reads_decodeName.eq_some htsName _, rfl⟩

end Record

end Config

end FlashStorage
