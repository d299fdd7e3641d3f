import FlashStorage.Document.Builder
import FlashStorage.Proofs.Document.Numerals
import FlashStorage.Proofs.Document.Texts

/-!
# Written documents are read back

A document that consists of a header with one line for each key below it is read as a
table with these keys, in this order.  A document that consists of one line with an
array is read as this array.  What the lines and the elements have to be is said once:
a bare key, and characters that stand for a value without values inside.  The table is
read line by line, so its proof is an induction over the lines that carries the entries
read so far.
-/

namespace FlashStorage.Document

variable {c : Char} {text rest written : List Char} {key name : String}
  {value : Value} {entries : Entries}

/-! ## Characters that stand for a value -/

/-- The first characters of whole numbers and of texts between quotation marks. -/
def startsScalar (c : Char) : Bool := isDecimalDigit c || c == '-' || c == '"'

/-- Characters that are read as a value wherever a line end, a comma or a bracket
follows them. -/
structure Denotes (written : List Char) (value : Value) : Prop where
  starts : ∃ first more, written = first :: more ∧ startsScalar first = true
  reads : ∀ c rest, isCloser c = true →
    Expression.scalar (written ++ c :: rest) = some (value, c :: rest)

theorem scalar_eq_dateOrNumber (hstarts : startsScalar c = true)
    (hmark : c ≠ '"') :
    Expression.scalar (c :: rest) = Expression.dateOrNumber (c :: rest) := by
  have htrue : c ≠ 't' := ne_of_test hstarts (by decide)
  have hfalse : c ≠ 'f' := ne_of_test hstarts (by decide)
  have happos : c ≠ '\x27' := ne_of_test hstarts (by decide)
  simp [Expression.scalar, htrue, hfalse, hmark, happos]

theorem denotes_natural {n : Nat} (hword : Number.IsWord n) :
    Denotes (Printer.natural n) (.integer n) := by
  obtain ⟨first, more, hwritten, hfirst⟩ := Number.exists_toDigits_eq_cons n
  have hstarts : startsScalar first = true := by simp [startsScalar, hfirst]
  refine ⟨⟨first, more, hwritten, hstarts⟩, ?_⟩
  intro c rest hcloser
  have hskip : Date.skipAny (Nat.toDigits 10 n ++ c :: rest) = none :=
    Date.skipAny_digits (fun _ hmem => isDecimalDigit_of_mem_toDigits hmem)
      hcloser
  have hnumber : Number.number (Nat.toDigits 10 n ++ c :: rest) =
      some (.integer n, c :: rest) :=
    Number.number_toDigits hcloser hword
  unfold Printer.natural
  rw [hwritten, List.cons_append] at hskip hnumber ⊢
  rw [scalar_eq_dateOrNumber hstarts (ne_of_test hfirst (by decide))]
  unfold Expression.dateOrNumber
  rw [hskip, hnumber]

theorem denotes_integer {value : Int} (hword : Number.IsWord value) :
    Denotes (Printer.integer value) (.integer value) := by
  unfold Printer.integer
  by_cases hnegative : value < 0
  · have hvalue : value = -(value.natAbs : Int) := by omega
    rw [if_pos hnegative]
    refine ⟨⟨'-', _, rfl, by decide⟩, ?_⟩
    intro c rest hcloser
    rw [hvalue] at hword
    rw [List.cons_append, scalar_eq_dateOrNumber (by decide) (by decide)]
    unfold Expression.dateOrNumber
    rw [Date.skipAny_minus]
    simp only
    rw [Printer.natural, Number.number_minus_toDigits hcloser hword, ← hvalue]
  · have hvalue : value = (value.natAbs : Int) := by omega
    rw [if_neg hnegative]
    rw [hvalue] at hword
    have hdenotes := denotes_natural hword
    rwa [← hvalue] at hdenotes

theorem denotes_quoted (style : Printer.Style) (content : String) :
    Denotes (Printer.quoted style content) (.text content) := by
  refine ⟨⟨'"', _, rfl, by decide⟩, ?_⟩
  intro c rest hcloser
  have hmark : c ≠ '"' := by
    rintro rfl
    revert hcloser
    decide
  calc
    Expression.scalar (Printer.quoted style content ++ c :: rest)
      = (Quoted.quoted (Printer.quoted style content ++ c :: rest)).map
          (fun answer => (.text (String.ofList answer.1), answer.2)) := rfl
    _ = some (.text content, c :: rest) := by
        rw [Quoted.quoted_quoted style content hmark]
        simp only [Option.map_some, String.ofList_toList]

theorem nested_of_denotes (hdenotes : Denotes written value)
    (hcloser : isCloser c = true) (depth : Nat) :
    Expression.nested depth (written ++ c :: rest) = some (value, c :: rest) := by
  have hreads := hdenotes.reads c rest hcloser
  obtain ⟨first, more, rfl, hstarts⟩ := hdenotes.starts
  have hbracket : first ≠ '[' := ne_of_test hstarts (by decide)
  have hbrace : first ≠ '{' := ne_of_test hstarts (by decide)
  rw [List.cons_append] at hreads ⊢
  cases depth with
  | zero => exact hreads
  | succ depth => simp [Expression.nested, hbracket, hbrace, hreads]

/-! ## Bare keys -/

/-- A key that can be written without quotes. -/
def IsBareKey (key : String) : Prop :=
  key.toList ≠ [] ∧ key.toList.all isBare = true

theorem skipBlanks_cons_of_not_blank (hblank : isBlank c = false) :
    skipBlanks (c :: rest) = c :: rest :=
  List.dropWhile_cons_of_neg (by rw [hblank]; decide)

theorem isBlank_eq_false (hspace : c ≠ ' ') (htab : c ≠ '\t') :
    isBlank c = false := by
  simp [isBlank, hspace, htab]

theorem isBlank_of_isBare (hbare : isBare c = true) : isBlank c = false :=
  isBlank_eq_false (ne_of_test hbare (by decide))
    (ne_of_test hbare (by decide))

theorem isBlank_of_startsScalar (hstarts : startsScalar c = true) :
    isBlank c = false :=
  isBlank_eq_false (ne_of_test hstarts (by decide))
    (ne_of_test hstarts (by decide))

theorem IsBareKey.isBare_of_mem (hkey : IsBareKey key) :
    ∀ c ∈ key.toList, isBare c = true :=
  List.all_eq_true.mp hkey.2

theorem IsBareKey.exists_eq_cons (hkey : IsBareKey key) :
    ∃ first more, key.toList = first :: more ∧ isBare first = true := by
  have hbare := hkey.isBare_of_mem
  cases hcharacters : key.toList with
  | nil => exact absurd hcharacters hkey.1
  | cons first more =>
      rw [hcharacters] at hbare
      exact ⟨first, more, rfl, hbare first List.mem_cons_self⟩

theorem IsBareKey.part_eq (hkey : IsBareKey key) (hstop : isBare c = false) :
    Key.part (key.toList ++ c :: rest) = some (key, c :: rest) := by
  have htake : (key.toList ++ c :: rest).takeWhile isBare = key.toList := by
    rw [List.takeWhile_append_of_pos hkey.isBare_of_mem,
      List.takeWhile_cons_of_neg (by rw [hstop]; decide), List.append_nil]
  have hdrop : (key.toList ++ c :: rest).dropWhile isBare = c :: rest := by
    rw [List.dropWhile_append_of_pos hkey.isBare_of_mem,
      List.dropWhile_cons_of_neg (by rw [hstop]; decide)]
  obtain ⟨first, more, hcharacters, hfirst⟩ := hkey.exists_eq_cons
  have hmark : first ≠ '"' := ne_of_test hfirst (by decide)
  have happos : first ≠ '\x27' := ne_of_test hfirst (by decide)
  rw [hcharacters, List.cons_append] at htake hdrop ⊢
  rw [Key.part]
  · simp only [htake, hdrop, List.isEmpty_cons, Bool.false_eq_true, if_false]
    rw [← hcharacters, String.ofList_toList]
  · rintro _ hsame
    exact hmark (List.cons.inj hsame).1
  · rintro _ hsame
    exact happos (List.cons.inj hsame).1

/-- A bare key ends where a character follows that no key has, behind blanks or not. -/
theorem IsBareKey.read_eq {after : Char} {behind : List Char}
    (hkey : IsBareKey key) (hstop : isBare c = false)
    (hskip : skipBlanks (c :: rest) = after :: behind) (hdot : after ≠ '.') :
    Key.read (key.toList ++ c :: rest) = some (⟨[], key⟩, after :: behind) := by
  have hstart : skipBlanks (key.toList ++ c :: rest) =
      key.toList ++ c :: rest := by
    obtain ⟨first, more, hcharacters, hfirst⟩ := hkey.exists_eq_cons
    rw [hcharacters, List.cons_append]
    exact skipBlanks_cons_of_not_blank (isBlank_of_isBare hfirst)
  change Key.ofParts (78 + 1) _ = _
  rw [Key.ofParts, hstart, hkey.part_eq hstop]
  simp [hskip, hdot]

/-! ## Lines -/

theorem endLine_newline (rest : List Char) : endLine ('\n' :: rest) = some rest :=
  rfl

theorem definition_eq {read : Reader Value} (hkey : IsBareKey key)
    (hstart : skipBlanks text = text) (hread : read text = some (value, rest)) :
    Expression.definition read (key.toList ++ ' ' :: '=' :: ' ' :: text) =
      some ((⟨[], key⟩, value), rest) := by
  have hname : Key.read (key.toList ++ ' ' :: '=' :: ' ' :: text) =
      some (⟨[], key⟩, '=' :: ' ' :: text) :=
    hkey.read_eq (by decide) rfl (by decide)
  have hblank : skipBlanks (' ' :: text) = text :=
    Eq.trans rfl hstart
  simp [Expression.definition, hname, hblank, hread]

theorem readLine_definition {builder next : Builder} (hkey : IsBareKey key)
    (hstart : skipBlanks (written ++ '\n' :: rest) = written ++ '\n' :: rest)
    (hread : Expression.read (written ++ '\n' :: rest) =
      some (value, '\n' :: rest))
    (hdefine : builder.define ⟨[], key⟩ value = some next) :
    builder.readLine (Printer.definition key written ++ rest) =
      some (next, rest) := by
  have hdefinition := definition_eq hkey hstart hread
  have hsplit : Printer.definition key written ++ rest =
      key.toList ++ ' ' :: '=' :: ' ' :: (written ++ '\n' :: rest) := by
    simp [Printer.definition]
  rw [hsplit]
  obtain ⟨first, more, hcharacters, hfirst⟩ := hkey.exists_eq_cons
  have hbracket : first ≠ '[' := ne_of_test hfirst (by decide)
  have hcomment : first ≠ '#' := ne_of_test hfirst (by decide)
  have hnewline : first ≠ '\n' := ne_of_test hfirst (by decide)
  have hreturn : first ≠ '\r' := ne_of_test hfirst (by decide)
  rw [hcharacters, List.cons_append] at hdefinition ⊢
  simp [Builder.readLine, hbracket, hcomment, hnewline, hreturn, hdefinition,
    hdefine, endLine_newline]

theorem exists_definition_eq_cons (hkey : IsBareKey key) (written : List Char) :
    ∃ first more, Printer.definition key written = first :: more ∧
      isBare first = true := by
  obtain ⟨first, more, hcharacters, hfirst⟩ := hkey.exists_eq_cons
  refine ⟨first, more ++ ([' ', '=', ' '] ++ (written ++ ['\n'])), ?_, hfirst⟩
  rw [Printer.definition, hcharacters, List.cons_append]

theorem readLine_header {builder next : Builder} (hname : IsBareKey name)
    (hopen : builder.openTable ⟨[], name⟩ = some next) :
    builder.readLine (Printer.header name ++ rest) = some (next, rest) := by
  have hread : Key.read (name.toList ++ ']' :: '\n' :: rest) =
      some (⟨[], name⟩, ']' :: '\n' :: rest) :=
    hname.read_eq (by decide) rfl (by decide)
  have hsplit : Printer.header name ++ rest =
      '[' :: (name.toList ++ ']' :: '\n' :: rest) := by
    simp [Printer.header]
  rw [hsplit]
  obtain ⟨first, more, hcharacters, hfirst⟩ := hname.exists_eq_cons
  have hbracket : first ≠ '[' := ne_of_test hfirst (by decide)
  rw [hcharacters, List.cons_append] at hread ⊢
  simp [Builder.readLine, hbracket, hread, hopen, endLine_newline]

theorem readLines_of_readLine {builder next : Builder}
    (hsome : text ≠ []) (hstart : skipBlanks text = text)
    (hline : builder.readLine text = some (next, rest)) (fuel : Nat) :
    Builder.readLines (fuel + 1) builder text =
      Builder.readLines fuel next rest := by
  cases text with
  | nil => exact absurd rfl hsome
  | cons first more => simp [Builder.readLines, hstart, hline]

/-! ## Arrays -/

theorem skipGap_cons (hblank : isBlank c = false)
    (hline : c ≠ '\n' ∧ c ≠ '\r' ∧ c ≠ '#') :
    skipGap false (c :: rest) = some (c :: rest) := by
  obtain ⟨hnewline, hreturn, hcomment⟩ := hline
  simp [skipGap, hreturn, hcomment, hblank]

theorem Denotes.skipGap_eq (hdenotes : Denotes written value) :
    skipGap false (written ++ rest) = some (written ++ rest) := by
  obtain ⟨first, more, rfl, hstarts⟩ := hdenotes.starts
  apply skipGap_cons (isBlank_of_startsScalar hstarts)
  refine ⟨?_, ?_, ?_⟩
  · exact ne_of_test hstarts (by decide)
  · exact ne_of_test hstarts (by decide)
  · exact ne_of_test hstarts (by decide)

theorem Denotes.skipBlanks_eq (hdenotes : Denotes written value) :
    skipBlanks (written ++ rest) = written ++ rest := by
  obtain ⟨first, more, rfl, hstarts⟩ := hdenotes.starts
  exact skipBlanks_cons_of_not_blank (isBlank_of_startsScalar hstarts)

/-- Elements are read from behind any gap in front of them. -/
theorem elements_of_skipGap {element : Reader Value} {shorter : List Char}
    (hgap : skipGap false text = skipGap false shorter) (fuel : Nat) :
    Expression.elements element fuel text =
      Expression.elements element fuel shorter := by
  cases fuel with
  | zero => rfl
  | succ fuel => simp only [Expression.elements, hgap]

section

variable {element : Reader Value} {fuel : Nat}

theorem elements_last (hdenotes : Denotes written value)
    (hread : element (written ++ ']' :: rest) = some (value, ']' :: rest)) :
    Expression.elements element (fuel + 1) (written ++ ']' :: rest) =
      some ([value], rest) := by
  have hgap : skipGap false (written ++ ']' :: rest) =
      some (written ++ ']' :: rest) :=
    hdenotes.skipGap_eq
  obtain ⟨first, more, rfl, hstarts⟩ := hdenotes.starts
  have hbracket : first ≠ ']' := ne_of_test hstarts (by decide)
  rw [List.cons_append] at hgap hread ⊢
  have hclose : skipGap false (']' :: rest) = some (']' :: rest) := rfl
  simp [Expression.elements, hgap, hbracket, hread, hclose]

theorem elements_comma (hdenotes : Denotes written value)
    (hread : element (written ++ ',' :: rest) = some (value, ',' :: rest)) :
    Expression.elements element (fuel + 1) (written ++ ',' :: rest) =
      (Expression.elements element fuel rest).map
        (fun (values, rest) => (value :: values, rest)) := by
  have hgap : skipGap false (written ++ ',' :: rest) =
      some (written ++ ',' :: rest) :=
    hdenotes.skipGap_eq
  obtain ⟨first, more, rfl, hstarts⟩ := hdenotes.starts
  have hbracket : first ≠ ']' := ne_of_test hstarts (by decide)
  rw [List.cons_append] at hgap hread ⊢
  have hcomma : skipGap false (',' :: rest) = some (',' :: rest) := rfl
  cases hmore : Expression.elements element fuel rest with
  | none => simp [Expression.elements, hgap, hbracket, hread, hcomma, hmore]
  | some answer =>
      simp [Expression.elements, hgap, hbracket, hread, hcomma, hmore]

end

section

variable {ι : Type} {characters : ι → List Char} {meaning : ι → Value}

theorem elements_intercalate {items : List ι}
    (hitems : ∀ item ∈ items, Denotes (characters item) (meaning item))
    (depth : Nat) {fuel : Nat}
    (hfuel : ([',', ' '].intercalate (items.map characters)).length < fuel) :
    Expression.elements (Expression.nested depth) fuel
        ([',', ' '].intercalate (items.map characters) ++ ']' :: rest) =
      some (items.map meaning, rest) := by
  induction items generalizing fuel with
  | nil =>
      obtain ⟨fuel, rfl⟩ := Nat.exists_eq_succ_of_ne_zero (n := fuel) (by omega)
      rfl
  | cons item more ih =>
      obtain ⟨fuel, rfl⟩ := Nat.exists_eq_succ_of_ne_zero (n := fuel) (by omega)
      have hitem := hitems item List.mem_cons_self
      have hmore : ∀ item ∈ more, Denotes (characters item) (meaning item) :=
        fun item hmem => hitems item (List.mem_cons_of_mem _ hmem)
      cases more with
      | nil =>
          have hread : Expression.nested depth (characters item ++ ']' :: rest) =
              some (meaning item, ']' :: rest) :=
            nested_of_denotes hitem (by decide) depth
          rw [List.map_cons, List.map_nil, List.intercalate_singleton]
          exact elements_last hitem hread
      | cons next others =>
          rw [List.map_cons, List.map_cons, List.intercalate_cons_cons,
            ← List.map_cons] at hfuel ⊢
          generalize hbehind : [',', ' '].intercalate
            ((next :: others).map characters) = behind at hfuel ih ⊢
          have hread : Expression.nested depth
              (characters item ++ ',' :: ' ' :: (behind ++ ']' :: rest)) =
              some (meaning item, ',' :: ' ' :: (behind ++ ']' :: rest)) :=
            nested_of_denotes hitem (by decide) depth
          have hgap : skipGap false (' ' :: (behind ++ ']' :: rest)) =
              skipGap false (behind ++ ']' :: rest) := rfl
          have hshorter : behind.length < fuel := by
            simp only [List.length_append, List.length_cons] at hfuel
            omega
          calc
            Expression.elements (Expression.nested depth) (fuel + 1)
                (characters item ++ [',', ' '] ++ behind ++ ']' :: rest)
              = Expression.elements (Expression.nested depth) (fuel + 1)
                  (characters item ++ ',' :: ' ' :: (behind ++ ']' :: rest)) := by
                rw [List.append_assoc, List.append_assoc]
                rfl
            _ = (Expression.elements (Expression.nested depth) fuel
                  (' ' :: (behind ++ ']' :: rest))).map
                  (fun (values, rest) => (meaning item :: values, rest)) :=
                elements_comma hitem hread
            _ = some ((item :: next :: others).map meaning, rest) := by
                rw [elements_of_skipGap hgap, ih hmore hshorter]
                rfl

theorem nested_array {items : List ι}
    (hitems : ∀ item ∈ items, Denotes (characters item) (meaning item))
    (depth : Nat) :
    Expression.nested (depth + 1)
        (Printer.array (items.map characters) ++ rest) =
      some (.array (items.map meaning), rest) := by
  obtain ⟨inside, hinside⟩ : ∃ inside,
      [',', ' '].intercalate (items.map characters) = inside := ⟨_, rfl⟩
  have hfuel : inside.length < (inside ++ ']' :: rest).length + 1 := by
    rw [List.length_append]
    omega
  have helements : Expression.elements (Expression.nested depth)
      ((inside ++ ']' :: rest).length + 1) (inside ++ ']' :: rest) =
      some (items.map meaning, rest) := by
    rw [← hinside] at hfuel ⊢
    exact elements_intercalate hitems depth hfuel
  have hsplit : Printer.array (items.map characters) ++ rest =
      '[' :: (inside ++ ']' :: rest) := by
    rw [Printer.array, hinside, List.cons_append, List.append_assoc]
    rfl
  rw [hsplit, Expression.nested, helements]
  rfl

end

/-! ## Definitions below a header -/

theorem Entries.alter_of_not_mem {change : Option Value → Option Value}
    (hfresh : key ∉ entries.map Prod.fst) :
    entries.alter key change =
      (change none).map (fun value => entries ++ [(key, value)]) := by
  induction entries with
  | nil => rfl
  | cons entry more ih =>
      obtain ⟨other, held⟩ := entry
      rw [List.map_cons, List.mem_cons, not_or] at hfresh
      obtain ⟨hother, hmore⟩ := hfresh
      rw [Entries.alter, if_neg (Ne.symm hother), ih hmore, Option.map_map]
      rfl

theorem Entries.define_of_not_mem (hfresh : key ∉ entries.map Prod.fst) :
    entries.define key value = some (entries ++ [(key, value)]) :=
  Entries.alter_of_not_mem hfresh

/-- What is built once the header of a table with these entries has been read. -/
def Builder.below (name : String) (entries : Entries) : Builder :=
  ⟨[(name, .table .explicit entries)], [name]⟩

theorem Builder.openTable_empty (name : String) :
    Builder.empty.openTable ⟨[], name⟩ = some (below name []) :=
  rfl

theorem Builder.define_below (hfresh : key ∉ entries.map Prod.fst) :
    (below name entries).define ⟨[], key⟩ value =
      some (below name (entries ++ [(key, value)])) := by
  have hdefine : entries.define key value = some (entries ++ [(key, value)]) :=
    Entries.define_of_not_mem hfresh
  simp [Builder.define, below, Entries.within, Entries.alter,
    Entries.defineDotted, hdefine]

theorem Builder.define_empty (name : String) (value : Value) :
    Builder.empty.define ⟨[], name⟩ value = some ⟨[(name, value)], []⟩ :=
  rfl

theorem Builder.readLines_nil (builder : Builder) (fuel : Nat) :
    builder.readLines (fuel + 1) [] = some builder :=
  rfl

/-! ## Whole documents -/

theorem read_ofList (hmark : c ≠ '\ufeff') :
    read (String.ofList (c :: text)) =
      (Builder.empty.readLines (text.length + 2) (c :: text)).map
        Builder.root := by
  unfold read
  rw [String.toList_ofList]
  simp [hmark]

section

variable {ι : Type} {key : ι → String} {characters : ι → List Char}
  {meaning : ι → Value}

/-- Lines with keys of their own are added to the entries above them. -/
theorem readLines_definitions {lines : List ι}
    (hlines : ∀ line ∈ lines,
      IsBareKey (key line) ∧ Denotes (characters line) (meaning line))
    (hnodup : (entries.map Prod.fst ++ lines.map key).Nodup) {fuel : Nat}
    (hfuel : (lines.flatMap (fun line =>
      Printer.definition (key line) (characters line))).length < fuel) :
    (Builder.below name entries).readLines fuel
        (lines.flatMap (fun line =>
          Printer.definition (key line) (characters line))) =
      some (Builder.below name
        (entries ++ lines.map (fun line => (key line, meaning line)))) := by
  induction lines generalizing entries fuel with
  | nil =>
      obtain ⟨fuel, rfl⟩ := Nat.exists_eq_succ_of_ne_zero (n := fuel) (by omega)
      rw [List.map_nil, List.append_nil]
      exact Builder.readLines_nil _ fuel
  | cons line more ih =>
      obtain ⟨fuel, rfl⟩ := Nat.exists_eq_succ_of_ne_zero (n := fuel) (by omega)
      obtain ⟨hkey, hdenotes⟩ := hlines line List.mem_cons_self
      have hmore : ∀ line ∈ more,
          IsBareKey (key line) ∧ Denotes (characters line) (meaning line) :=
        fun line hmem => hlines line (List.mem_cons_of_mem _ hmem)
      rw [List.map_cons] at hnodup
      have hfresh : key line ∉ entries.map Prod.fst := by
        intro hmem
        obtain ⟨_, _, hapart⟩ := List.nodup_append.mp hnodup
        exact hapart _ hmem _ List.mem_cons_self rfl
      have hlater : ((entries ++ [(key line, meaning line)]).map Prod.fst ++
          more.map key).Nodup := by
        rwa [List.map_append, List.append_assoc]
      rw [List.flatMap_cons] at hfuel ⊢
      generalize hbehind : more.flatMap (fun line =>
        Printer.definition (key line) (characters line)) = behind at hfuel ih ⊢
      have hread : Expression.read (characters line ++ '\n' :: behind) =
          some (meaning line, '\n' :: behind) :=
        nested_of_denotes hdenotes (by decide) Expression.maxDepth
      have hline : (Builder.below name entries).readLine
          (Printer.definition (key line) (characters line) ++ behind) =
          some (Builder.below name (entries ++ [(key line, meaning line)]),
            behind) :=
        readLine_definition hkey hdenotes.skipBlanks_eq hread
          (Builder.define_below hfresh)
      obtain ⟨first, others, hwritten, hfirst⟩ :=
        exists_definition_eq_cons hkey (characters line)
      rw [hwritten, List.cons_append] at hfuel hline ⊢
      have hshorter : behind.length < fuel := by
        simp only [List.length_append, List.length_cons] at hfuel
        omega
      calc
        (Builder.below name entries).readLines (fuel + 1)
            (first :: (others ++ behind))
          = (Builder.below name (entries ++ [(key line, meaning line)])).readLines
              fuel behind :=
            readLines_of_readLine (List.cons_ne_nil _ _)
              (skipBlanks_cons_of_not_blank (isBlank_of_isBare hfirst)) hline fuel
        _ = some (Builder.below name (entries ++ [(key line, meaning line)] ++
              more.map (fun line => (key line, meaning line)))) :=
            ih hmore hlater hshorter
        _ = some (Builder.below name (entries ++
              (line :: more).map (fun line => (key line, meaning line)))) := by
            rw [List.append_assoc]
            rfl

/-- A header with lines below it is read as a table with the keys of the lines, if
these are different. -/
theorem read_table {lines : List ι} (hname : IsBareKey name)
    (hlines : ∀ line ∈ lines,
      IsBareKey (key line) ∧ Denotes (characters line) (meaning line))
    (hnodup : (lines.map key).Nodup) :
    read (String.ofList (Printer.header name ++
        lines.flatMap (fun line =>
          Printer.definition (key line) (characters line)))) =
      some [(name, .table .explicit
        (lines.map (fun line => (key line, meaning line))))] := by
  obtain ⟨below, hbelow⟩ : ∃ below, lines.flatMap (fun line =>
      Printer.definition (key line) (characters line)) = below := ⟨_, rfl⟩
  have hheader : Builder.empty.readLine (Printer.header name ++ below) =
      some (Builder.below name [], below) :=
    readLine_header hname (Builder.openTable_empty name)
  have hfuel : below.length < (name.toList ++ [']', '\n'] ++ below).length + 1 := by
    rw [List.length_append]
    omega
  have hrun : (Builder.below name []).readLines
      ((name.toList ++ [']', '\n'] ++ below).length + 1) below =
      some (Builder.below name
        (lines.map (fun line => (key line, meaning line)))) := by
    rw [← hbelow] at hfuel ⊢
    have hkeys : (([] : Entries).map Prod.fst ++ lines.map key).Nodup := hnodup
    exact readLines_definitions hlines hkeys hfuel
  rw [Printer.header, List.cons_append] at hheader
  rw [hbelow, Printer.header, List.cons_append, read_ofList (by decide),
    readLines_of_readLine (List.cons_ne_nil _ _)
      (skipBlanks_cons_of_not_blank rfl) hheader, hrun]
  rfl

/-- A line with an array is read as the values that its elements stand for. -/
theorem read_array {items : List ι} (hname : IsBareKey name)
    (hitems : ∀ item ∈ items, Denotes (characters item) (meaning item)) :
    read (String.ofList
        (Printer.definition name (Printer.array (items.map characters)))) =
      some [(name, .array (items.map meaning))] := by
  have hline : Builder.empty.readLine
      (Printer.definition name (Printer.array (items.map characters)) ++ []) =
      some (⟨[(name, .array (items.map meaning))], []⟩, []) := by
    apply readLine_definition hname
    · rfl
    · exact nested_array hitems 78
    · exact Builder.define_empty name _
  obtain ⟨first, more, hwritten, hfirst⟩ :=
    exists_definition_eq_cons hname (Printer.array (items.map characters))
  rw [List.append_nil, hwritten] at hline
  rw [hwritten, read_ofList (ne_of_test hfirst (by decide)),
    readLines_of_readLine (List.cons_ne_nil _ _)
      (skipBlanks_cons_of_not_blank (isBlank_of_isBare hfirst)) hline,
    Builder.readLines_nil]
  rfl

end

end FlashStorage.Document
