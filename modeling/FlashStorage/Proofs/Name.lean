import FlashStorage.Config.Basic
import FlashStorage.Device
import FlashStorage.Region
import FlashStorage.Utf8

/-!
# Names are longest beginnings

Regions and devices take any text for a name and keep as much of its beginning as fits.
Characters are taken whole and in order, so of the beginnings of a text exactly those
that fit are beginnings of its name.  A text that fits is kept as it is.  These are also
the texts that a configuration takes for the names of its partitions; it cuts nothing
and refuses all others.
-/

namespace FlashStorage

namespace Name

variable {room : Nat} {start characters : List Char} {text : String}

/-! ## Characters that fit -/

theorem byteSize_toList (text : String) :
    byteSize text.toList = text.utf8ByteSize := by
  rw [← utf8ByteSize_ofList, String.ofList_toList]

theorem fitting_isPrefix (room : Nat) (characters : List Char) :
    fitting room characters <+: characters := by
  induction characters generalizing room with
  | nil => exact List.nil_prefix
  | cons character rest ih =>
      unfold fitting
      split
      next hfits => exact List.cons_prefix_cons.mpr ⟨rfl, ih _⟩
      next hlong => exact List.nil_prefix

/-- Of the beginnings of a text those that fit in the room are kept. -/
theorem isPrefix_fitting_iff (hstart : start <+: characters) :
    start <+: fitting room characters ↔ byteSize start ≤ room := by
  induction characters generalizing start room with
  | nil =>
      obtain rfl := List.prefix_nil.mp hstart
      exact iff_of_true List.nil_prefix (Nat.zero_le room)
  | cons character rest ih =>
      cases start with
      | nil => exact iff_of_true List.nil_prefix (Nat.zero_le room)
      | cons first start =>
          obtain ⟨rfl, hrest⟩ := List.cons_prefix_cons.mp hstart
          unfold fitting
          rw [byteSize]
          split
          next hfits =>
            rw [List.cons_prefix_cons, ih hrest]
            simp only [true_and]
            omega
          next hlong =>
            rw [List.prefix_nil]
            refine iff_of_false (List.cons_ne_nil _ _) ?_
            omega

/-! ## Texts that are cut -/

theorem toList_truncate (text : String) :
    (truncate text).text.toList = fitting capacity text.toList :=
  String.toList_ofList

theorem exists_append_iff {start text : String} :
    (∃ rest, text = start ++ rest) ↔ start.toList <+: text.toList := by
  constructor
  · rintro ⟨rest, rfl⟩
    exact ⟨rest.toList, String.toList_append.symm⟩
  · rintro ⟨rest, hrest⟩
    refine ⟨String.ofList rest, String.toList_inj.mp ?_⟩
    rw [String.toList_append, String.toList_ofList, hrest]

theorem truncate_begins (text : String) :
    ∃ dropped, text = (truncate text).text ++ dropped := by
  rw [exists_append_iff, toList_truncate]
  exact fitting_isPrefix _ _

/-- Of the beginnings of a text exactly those that fit are beginnings of its name. -/
theorem begins_truncate_iff {start : String}
    (hstart : ∃ rest, text = start ++ rest) :
    (∃ more, (truncate text).text = start ++ more) ↔
      start.utf8ByteSize ≤ capacity := by
  rw [exists_append_iff] at hstart
  rw [exists_append_iff, toList_truncate, isPrefix_fitting_iff hstart,
    byteSize_toList]

/-- A beginning that fits is the whole name, if it does not fit together with the next
character, with which any longer name would go on. -/
theorem text_truncate_of_push {start rest : String} {next : Char}
    (htext : text = start.push next ++ rest)
    (hfits : start.utf8ByteSize ≤ capacity)
    (hlong : capacity < (start.push next).utf8ByteSize) :
    (truncate text).text = start := by
  have hstart : ∃ rest, text = start ++ rest := by
    refine ⟨String.singleton next ++ rest, ?_⟩
    rw [htext, ← String.append_assoc, String.append_singleton]
  have hkept := exists_append_iff.mp ((begins_truncate_iff hstart).mpr hfits)
  have hname := exists_append_iff.mp (truncate_begins text)
  have hpush := exists_append_iff.mp ⟨rest, htext⟩
  have hshort : (truncate text).text.toList.length ≤ start.toList.length := by
    apply Nat.not_lt.mp
    intro hlonger
    have hnext : (start.push next).toList <+: (truncate text).text.toList := by
      apply List.prefix_of_prefix_length_le hpush hname
      rw [String.toList_push, List.length_append, List.length_singleton]
      exact hlonger
    have hfit := (begins_truncate_iff ⟨rest, htext⟩).mp
      (exists_append_iff.mpr hnext)
    omega
  exact String.toList_inj.mp (hkept.eq_of_length_le hshort).symm

theorem text_truncate_eq_iff :
    (truncate text).text = text ↔ text.utf8ByteSize ≤ capacity := by
  constructor
  · intro hkept
    rw [← hkept]
    exact (truncate text).fits
  · intro hfits
    have hname := exists_append_iff.mp (truncate_begins text)
    have htext := exists_append_iff.mp
      ((begins_truncate_iff ⟨"", String.append_empty.symm⟩).mpr hfits)
    exact String.toList_inj.mp
      (hname.eq_of_length_le htext.length_le)

@[simp] theorem truncate_text (name : Name) : truncate name.text = name :=
  ext (text_truncate_eq_iff.mpr name.fits)

theorem ofString?_eq_truncate (text : String) :
    ofString? text =
      if (truncate text).text = text then some (truncate text) else none := by
  split
  next hkept => exact ofString?_eq_some_iff.mpr hkept
  next hcut =>
    rw [text_truncate_eq_iff] at hcut
    exact ofString?_eq_none_iff.mpr (Nat.not_le.mp hcut)

end Name

/-- A configuration takes two texts for its names exactly if both are names already. -/
theorem Config.withPartitionNames_eq (config : Config) (kv ts : String) :
    config.withPartitionNames kv ts =
      if (Name.truncate kv).text = kv ∧ (Name.truncate ts).text = ts then
        .ok { config with
          kvName := Name.truncate kv
          tsName := Name.truncate ts }
      else .error .nameTooLong := by
  unfold withPartitionNames
  rw [Name.ofString?_eq_truncate, Name.ofString?_eq_truncate]
  by_cases hboth : (Name.truncate kv).text = kv ∧ (Name.truncate ts).text = ts
  · rw [if_pos hboth.1, if_pos hboth.2, if_pos hboth]
  · rw [if_neg hboth]
    by_cases hkv : (Name.truncate kv).text = kv
    · rw [if_pos hkv, if_neg (fun hts => hboth ⟨hkv, hts⟩)]
    · rw [if_neg hkv]

namespace Name

/-- A region and a device described by one text have the same name.  It is a beginning of
the text that takes at most sixteen bytes, and the longest: every beginning that fits is
a beginning of it, also if only bytes are compared, and behind the first character that
does not fit nothing is kept.  Described by its own name, neither is renamed.  The text
itself is kept exactly if a configuration takes it for the name of a partition, next to
any text that is kept as well; every other text is too long for it. -/
theorem described_name_longest (text : String) (tag : UInt8)
    (offset length base size : UInt64) (block : UInt32)
    (granularity : Granularity) :
    let name := (Region.describe text tag offset length).name
    (Device.describe text base size block granularity).name = name ∧
      name.text.utf8ByteSize ≤ 16 ∧
      (∃ dropped, text = name.text ++ dropped) ∧
      (∀ start rest, text = start ++ rest →
        (start.utf8ByteSize ≤ 16 ↔ ∃ more, name.text = start ++ more)) ∧
      (∀ bytes start, bytes <+: Utf8.encode text →
        Utf8.decode? bytes = some start →
        (bytes.length ≤ 16 ↔ bytes <+: Utf8.encode name.text)) ∧
      (∀ start next rest, text = start.push next ++ rest →
        start.utf8ByteSize ≤ 16 → 16 < (start.push next).utf8ByteSize →
        name.text = start) ∧
      (Region.describe name.text tag offset length).name = name ∧
      (Device.describe name.text base size block granularity).name = name ∧
      ∀ (config : Config) (other : String),
        (config.withPartitionNames text other =
          if name.text = text ∧ (truncate other).text = other then
            .ok { config with kvName := name, tsName := truncate other }
          else .error .nameTooLong) ∧
        (config.withPartitionNames other text =
          if (truncate other).text = other ∧ name.text = text then
            .ok { config with kvName := truncate other, tsName := name }
          else .error .nameTooLong) := by
  intro name
  refine ⟨rfl, name.fits, truncate_begins text, ?_, ?_, ?_, truncate_text name,
    truncate_text name, ?_⟩
  · intro start rest htext
    exact (begins_truncate_iff ⟨rest, htext⟩).symm
  · intro bytes start hbytes hstart
    obtain rfl := Utf8.decode?_eq_some_iff.mp hstart
    rw [Utf8.encode_isPrefix_iff, ← exists_append_iff] at hbytes
    rw [Utf8.length_encode, Utf8.encode_isPrefix_iff, ← exists_append_iff]
    exact (begins_truncate_iff hbytes).symm
  · intro start next rest htext hfits hlong
    exact text_truncate_of_push htext hfits hlong
  · intro config other
    exact ⟨config.withPartitionNames_eq text other,
      config.withPartitionNames_eq other text⟩

/-- Behind fifteen bytes there is no room for a character of two, and the letter behind it
is dropped as well, although it would fit. -/
theorem described_name_longest_twoBytes :
    let text := "fifteen_lettersäx"
    (Region.describe text Region.storageTag 0 16).name.text =
        "fifteen_letters" ∧
      ∀ (config : Config) (other : String),
        config.withPartitionNames text other = .error .nameTooLong := by
  intro text
  obtain ⟨_, _, _, _, _, hcut, _, _, htaken⟩ :=
    described_name_longest text Region.storageTag 0 16 0 16 16 .bits8
  have hname := hcut "fifteen_letters" 'ä' "x" (by decide) (by decide)
    (by decide)
  refine ⟨hname, ?_⟩
  intro config other
  rw [(htaken config other).1, if_neg]
  rw [hname]
  rintro ⟨hkept, _⟩
  exact absurd hkept (by decide)

end Name

end FlashStorage
