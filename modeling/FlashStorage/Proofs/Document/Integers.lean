import FlashStorage.Document.Builder
import FlashStorage.Proofs.Document.Numerals

/-!
# The integers of a document

An integer is taken only if it is a 64-bit number with a sign, whatever base it is
written in.  Everything behind that puts values together and changes none, so every
integer in a document is of this kind, however deep it stands in arrays and tables.
The property is followed from the reader of numbers through the values, the tables and
the lines to the whole document.
-/

namespace FlashStorage.Document

open Number (IsWord)

/-- Every integer in a value is a 64-bit number with a sign. -/
inductive Value.OfWords : Value → Prop where
  | integer {value : Int} (hword : IsWord value) : OfWords (.integer value)
  | text (value : String) : OfWords (.text value)
  | literal (written : String) : OfWords (.literal written)
  | array {elements : List Value}
      (helements : ∀ value ∈ elements, OfWords value) :
      OfWords (.array elements)
  | table (kind : TableKind) {entries : List (String × Value)}
      (hentries : ∀ entry ∈ entries, OfWords entry.2) :
      OfWords (.table kind entries)
  | tables {latest : List (String × Value)}
      {earlier : List (List (String × Value))}
      (hlatest : ∀ entry ∈ latest, OfWords entry.2)
      (hearlier : ∀ entries ∈ earlier, ∀ entry ∈ entries, OfWords entry.2) :
      OfWords (.tables latest earlier)

/-- Every integer in a table is a 64-bit number with a sign. -/
def Entries.OfWords (entries : Entries) : Prop :=
  ∀ entry ∈ entries, entry.2.OfWords

/-- What a reader finds has a property, wherever it reads. -/
def Yields {α : Type} (read : Reader α) (Holds : α → Prop) : Prop :=
  ∀ text found rest, read text = some (found, rest) → Holds found

variable {entries entries' : Entries} {value : Value} {text rest : List Char}

/-! ## Values without values inside -/

namespace Number

theorem ofWords_of_integer? {n : Int} (hinteger : integer? n = some value) :
    value.OfWords := by
  unfold integer? at hinteger
  split at hinteger
  · rename_i hword
    cases hinteger
    exact .integer hword
  · cases hinteger

theorem yields_inBase (base : Nat) (isDigit : Char → Bool) :
    Yields (inBase base isDigit) Value.OfWords := by
  intro text value rest hread
  simp only [inBase, Option.bind_eq_bind, Option.bind_eq_some_iff, Prod.exists,
    Option.some.injEq, Prod.mk.injEq] at hread
  obtain ⟨_, _, _, value, hinteger, rfl, rfl⟩ := hread
  exact ofWords_of_integer? hinteger

theorem yields_decimalNumber : Yields decimalNumber Value.OfWords := by
  intro text value rest hread
  unfold decimalNumber at hread
  simp only at hread
  split at hread
  · cases hread
    exact .literal _
  · simp only [Option.bind_eq_bind, Option.bind_eq_some_iff, Prod.exists]
      at hread
    obtain ⟨_, _, _, _, _, _, _, _, _, hkind⟩ := hread
    split at hkind
    · simp only [Option.bind_eq_some_iff, Option.some.injEq, Prod.mk.injEq]
        at hkind
      obtain ⟨value, hinteger, rfl, rfl⟩ := hkind
      exact ofWords_of_integer? hinteger
    · split at hkind
      · cases hkind
      · cases hkind
        exact .literal _

theorem yields_number : Yields number Value.OfWords := by
  intro text value rest hread
  unfold number at hread
  split at hread
  · exact yields_inBase _ _ _ _ _ hread
  · exact yields_inBase _ _ _ _ _ hread
  · exact yields_inBase _ _ _ _ _ hread
  · exact yields_decimalNumber _ _ _ hread

end Number

namespace Expression

theorem yields_dateOrNumber : Yields dateOrNumber Value.OfWords := by
  intro text value rest hread
  unfold dateOrNumber at hread
  split at hread
  · cases hread
    exact .literal _
  · exact Number.yields_number _ _ _ hread

theorem yields_scalar : Yields scalar Value.OfWords := by
  intro text value rest hread
  unfold scalar at hread
  split at hread
  · cases hread
    exact .literal _
  · cases hread
    exact .literal _
  · cases hread
  · split at hread
    · obtain ⟨_, _, hresult⟩ := Option.map_eq_some_iff.mp hread
      cases hresult
      exact .text _
    · exact yields_dateOrNumber _ _ _ hread

end Expression

/-! ## Tables -/

namespace Entries

theorem ofWords_nil : OfWords [] :=
  fun _ hmem => (List.not_mem_nil hmem).elim

theorem ofWords_cons_iff {key : String} :
    OfWords ((key, value) :: entries) ↔ value.OfWords ∧ entries.OfWords :=
  List.forall_mem_cons

theorem ofWords_table_iff {kind : TableKind} :
    (Value.table kind entries).OfWords ↔ entries.OfWords := by
  constructor
  · intro hvalue
    cases hvalue with
    | table _ hentries => exact hentries
  · exact .table kind

theorem ofWords_tables_iff {earlier : List (List (String × Value))} :
    (Value.tables entries earlier).OfWords ↔
      entries.OfWords ∧ ∀ other ∈ earlier, OfWords other := by
  constructor
  · intro hvalue
    cases hvalue with
    | tables hlatest hearlier => exact ⟨hlatest, hearlier⟩
  · rintro ⟨hlatest, hearlier⟩
    exact .tables hlatest hearlier

theorem ofWords_of_map_table {kind : TableKind} {after : Option Entries}
    (hafter : ∀ inner, after = some inner → inner.OfWords)
    (hnew : after.map (Value.table kind) = some value) : value.OfWords := by
  obtain ⟨inner, hinner, rfl⟩ := Option.map_eq_some_iff.mp hnew
  exact .table kind (hafter inner hinner)

theorem ofWords_of_map_tables {after : Option Entries}
    {earlier : List (List (String × Value))}
    (hafter : ∀ latest, after = some latest → latest.OfWords)
    (hearlier : ∀ other ∈ earlier, OfWords other)
    (hnew : after.map (fun latest => Value.tables latest earlier) =
      some value) : value.OfWords := by
  obtain ⟨latest, hlatest, rfl⟩ := Option.map_eq_some_iff.mp hnew
  exact .tables (hafter latest hlatest) hearlier

/-- A change of one value that keeps to such integers keeps the table to them. -/
theorem ofWords_of_alter {key : String} {change : Option Value → Option Value}
    (hentries : entries.OfWords)
    (hchange : ∀ old new, (∀ value ∈ old, value.OfWords) →
      change old = some new → new.OfWords)
    (halter : entries.alter key change = some entries') :
    entries'.OfWords := by
  induction entries generalizing entries' with
  | nil =>
      obtain ⟨new, hnew, rfl⟩ := Option.map_eq_some_iff.mp halter
      exact ofWords_cons_iff.mpr
        ⟨hchange none new (fun _ hmem => nomatch hmem) hnew, ofWords_nil⟩
  | cons entry rest ih =>
      obtain ⟨other, value⟩ := entry
      obtain ⟨hvalue, hrest⟩ := ofWords_cons_iff.mp hentries
      unfold alter at halter
      split at halter
      · obtain ⟨new, hnew, rfl⟩ := Option.map_eq_some_iff.mp halter
        have hold : ∀ old ∈ some value, old.OfWords := by
          rintro old hmem
          cases hmem
          exact hvalue
        exact ofWords_cons_iff.mpr ⟨hchange _ new hold hnew, hrest⟩
      · obtain ⟨rest', hrest', rfl⟩ := Option.map_eq_some_iff.mp halter
        exact ofWords_cons_iff.mpr ⟨hvalue, ih hrest hrest'⟩

theorem ofWords_of_define {key : String} (hentries : entries.OfWords)
    (hvalue : value.OfWords) (hdefine : entries.define key value = some entries') :
    entries'.OfWords := by
  refine ofWords_of_alter hentries ?_ hdefine
  intro old new _ hnew
  split at hnew
  · cases hnew
    exact hvalue
  · cases hnew

theorem ofWords_of_defineInline {name : String} {path : List String}
    (hentries : entries.OfWords) (hvalue : value.OfWords)
    (hdefine : entries.defineInline name value path = some entries') :
    entries'.OfWords := by
  induction path generalizing entries entries' with
  | nil => exact ofWords_of_define hentries hvalue hdefine
  | cons key path ih =>
      refine ofWords_of_alter hentries ?_ hdefine
      intro old new hold hnew
      split at hnew
      · exact ofWords_of_map_table (fun _ => ih ofWords_nil) hnew
      · have hbefore := ofWords_table_iff.mp (hold _ rfl)
        exact ofWords_of_map_table (fun _ => ih hbefore) hnew
      · cases hnew

theorem ofWords_of_defineDotted {name : String} {path : List String}
    (hentries : entries.OfWords) (hvalue : value.OfWords)
    (hdefine : entries.defineDotted name value path = some entries') :
    entries'.OfWords := by
  induction path generalizing entries entries' with
  | nil => exact ofWords_of_define hentries hvalue hdefine
  | cons key path ih =>
      refine ofWords_of_alter hentries ?_ hdefine
      intro old new hold hnew
      split at hnew
      · exact ofWords_of_map_table (fun _ => ih ofWords_nil) hnew
      · have hbefore := ofWords_table_iff.mp (hold _ rfl)
        exact ofWords_of_map_table (fun _ => ih hbefore) hnew
      · split at hnew
        · cases hnew
        · have hbefore := ofWords_table_iff.mp (hold _ rfl)
          exact ofWords_of_map_table (fun _ => ih hbefore) hnew
      · split at hnew
        · cases hnew
        · obtain ⟨hlatest, hearlier⟩ := ofWords_tables_iff.mp (hold _ rfl)
          exact ofWords_of_map_tables (fun _ => ih hlatest) hearlier hnew
      · cases hnew

theorem ofWords_of_within {change : Entries → Option Entries}
    {path : List String} (hentries : entries.OfWords)
    (hchange : ∀ before after, OfWords before →
      change before = some after → OfWords after)
    (hwithin : entries.within change path = some entries') :
    entries'.OfWords := by
  induction path generalizing entries entries' with
  | nil => exact hchange _ _ hentries hwithin
  | cons key path ih =>
      refine ofWords_of_alter hentries ?_ hwithin
      intro old new hold hnew
      split at hnew
      · exact ofWords_of_map_table (fun _ => ih ofWords_nil) hnew
      · cases hnew
      · have hbefore := ofWords_table_iff.mp (hold _ rfl)
        exact ofWords_of_map_table (fun _ => ih hbefore) hnew
      · obtain ⟨hlatest, hearlier⟩ := ofWords_tables_iff.mp (hold _ rfl)
        exact ofWords_of_map_tables (fun _ => ih hlatest) hearlier hnew
      · cases hnew

theorem ofWords_of_openTable {name : String} (hentries : entries.OfWords)
    (hopen : entries.openTable name = some entries') : entries'.OfWords := by
  refine ofWords_of_alter hentries ?_ hopen
  intro old new hold hnew
  split at hnew
  · cases hnew
    exact .table _ ofWords_nil
  · cases hnew
    exact .table _ (ofWords_table_iff.mp (hold _ rfl))
  · cases hnew

theorem ofWords_of_pushTable {name : String} (hentries : entries.OfWords)
    (hpush : entries.pushTable name = some entries') : entries'.OfWords := by
  refine ofWords_of_alter hentries ?_ hpush
  intro old new hold hnew
  split at hnew
  · cases hnew
    exact .tables ofWords_nil (fun _ hmem => (List.not_mem_nil hmem).elim)
  · cases hnew
    have hbefore := ofWords_tables_iff.mp (hold _ rfl)
    exact .tables ofWords_nil (List.forall_mem_cons.mpr hbefore)
  · cases hnew

theorem ofWords_of_lookup {key : String} (hentries : entries.OfWords)
    (hlookup : entries.lookup key = some value) : value.OfWords := by
  obtain ⟨_, _, hsplit, _⟩ := List.lookup_eq_some_iff.mp hlookup
  have hmem : (key, value) ∈ entries := by
    rw [hsplit]
    exact List.mem_append_right _ List.mem_cons_self
  exact hentries _ hmem

end Entries

/-! ## Arrays and braces -/

namespace Expression

variable {element : Reader Value}

theorem yields_elements (helement : Yields element Value.OfWords) (fuel : Nat) :
    Yields (elements element fuel)
      (fun values => ∀ value ∈ values, value.OfWords) := by
  induction fuel with
  | zero =>
      intro text values rest hread
      cases hread
  | succ fuel ih =>
      intro text values rest hread
      simp only [elements, Option.bind_eq_bind, Option.bind_eq_some_iff]
        at hread
      obtain ⟨_, _, hread⟩ := hread
      split at hread
      · cases hread
        exact fun _ hmem => (List.not_mem_nil hmem).elim
      · simp only [Option.bind_eq_some_iff, Prod.exists] at hread
        obtain ⟨value, _, hvalue, _, _, hread⟩ := hread
        have hfirst := helement _ _ _ hvalue
        split at hread
        · simp only [Option.bind_eq_some_iff, Prod.exists, Option.some.injEq,
            Prod.mk.injEq] at hread
          obtain ⟨values, _, hvalues, rfl, _⟩ := hread
          exact List.forall_mem_cons.mpr ⟨hfirst, ih _ _ _ hvalues⟩
        · cases hread
          exact List.forall_mem_singleton.mpr hfirst
        · cases hread

theorem yields_definition (helement : Yields element Value.OfWords) :
    Yields (definition element) (fun found => found.2.OfWords) := by
  intro text found rest hread
  simp only [definition, Option.bind_eq_bind, Option.bind_eq_some_iff,
    Prod.exists] at hread
  obtain ⟨_, _, _, hread⟩ := hread
  split at hread
  · simp only [Option.bind_eq_some_iff, Prod.exists, Option.some.injEq,
      Prod.mk.injEq] at hread
    obtain ⟨value, _, hvalue, rfl, _⟩ := hread
    exact helement _ _ _ hvalue
  · cases hread

theorem yields_definitions (helement : Yields element Value.OfWords)
    (fuel : Nat) (hentries : entries.OfWords) :
    Yields (definitions element fuel entries) Entries.OfWords := by
  induction fuel generalizing entries with
  | zero =>
      intro text found rest hread
      cases hread
  | succ fuel ih =>
      intro text found rest hread
      simp only [definitions, Option.bind_eq_bind, Option.bind_eq_some_iff,
        Prod.exists] at hread
      obtain ⟨key, value, _, hdefinition, after, hafter, hread⟩ := hread
      have hvalue : value.OfWords :=
        yields_definition helement _ _ _ hdefinition
      have hmore : after.OfWords :=
        Entries.ofWords_of_defineInline hentries hvalue hafter
      split at hread
      · exact ih hmore _ _ _ hread
      · cases hread
        exact hmore
      · cases hread

theorem yields_inlineTable (helement : Yields element Value.OfWords) :
    Yields (inlineTable element) Entries.OfWords := by
  intro text found rest hread
  unfold inlineTable at hread
  split at hread
  · cases hread
    exact Entries.ofWords_nil
  · exact yields_definitions helement _ Entries.ofWords_nil _ _ _ hread

theorem yields_nested (depth : Nat) : Yields (nested depth) Value.OfWords := by
  induction depth with
  | zero => exact yields_scalar
  | succ depth ih =>
      intro text value rest hread
      unfold nested at hread
      split at hread
      · rename_i hzero
        cases hzero
      · rename_i hdepth
        cases hdepth
        obtain ⟨⟨values, _⟩, hvalues, hresult⟩ :=
          Option.map_eq_some_iff.mp hread
        cases hresult
        exact .array (yields_elements ih _ _ _ _ hvalues)
      · rename_i hdepth
        cases hdepth
        obtain ⟨⟨entries, _⟩, hentries, hresult⟩ :=
          Option.map_eq_some_iff.mp hread
        cases hresult
        exact .table _ (yields_inlineTable ih _ _ _ hentries)
      · exact yields_scalar _ _ _ hread

end Expression

/-! ## Lines -/

namespace Builder

variable {builder builder' : Builder}

theorem ofWords_of_define {key : Key} (hroot : builder.root.OfWords)
    (hvalue : value.OfWords) (hdefine : builder.define key value = some builder') :
    builder'.root.OfWords := by
  simp only [define, Option.bind_eq_bind, Option.bind_eq_some_iff,
    Option.some.injEq] at hdefine
  obtain ⟨root, hwithin, rfl⟩ := hdefine
  exact Entries.ofWords_of_within hroot
    (fun _ _ hbefore hafter =>
      Entries.ofWords_of_defineDotted hbefore hvalue hafter) hwithin

theorem ofWords_of_openTable {key : Key} (hroot : builder.root.OfWords)
    (hopen : builder.openTable key = some builder') :
    builder'.root.OfWords := by
  simp only [openTable, Option.bind_eq_bind, Option.bind_eq_some_iff,
    Option.some.injEq] at hopen
  obtain ⟨root, hwithin, rfl⟩ := hopen
  exact Entries.ofWords_of_within hroot
    (fun _ _ hbefore hafter => Entries.ofWords_of_openTable hbefore hafter)
    hwithin

theorem ofWords_of_pushTable {key : Key} (hroot : builder.root.OfWords)
    (hpush : builder.pushTable key = some builder') :
    builder'.root.OfWords := by
  simp only [pushTable, Option.bind_eq_bind, Option.bind_eq_some_iff,
    Option.some.injEq] at hpush
  obtain ⟨root, hwithin, rfl⟩ := hpush
  exact Entries.ofWords_of_within hroot
    (fun _ _ hbefore hafter => Entries.ofWords_of_pushTable hbefore hafter)
    hwithin

theorem ofWords_of_readLine (hroot : builder.root.OfWords)
    (hread : builder.readLine text = some (builder', rest)) :
    builder'.root.OfWords := by
  unfold readLine at hread
  split at hread
  · simp only [Option.bind_eq_bind, Option.bind_eq_some_iff] at hread
    obtain ⟨_, _, hread⟩ := hread
    split at hread
    · simp only [Option.bind_eq_some_iff, Option.some.injEq, Prod.mk.injEq]
        at hread
      obtain ⟨_, hpush, _, _, rfl, _⟩ := hread
      exact ofWords_of_pushTable hroot hpush
    · cases hread
  · simp only [Option.bind_eq_bind, Option.bind_eq_some_iff] at hread
    obtain ⟨_, _, hread⟩ := hread
    split at hread
    · simp only [Option.bind_eq_some_iff, Option.some.injEq, Prod.mk.injEq]
        at hread
      obtain ⟨_, hopen, _, _, rfl, _⟩ := hread
      exact ofWords_of_openTable hroot hopen
    · cases hread
  · split at hread
    · obtain ⟨_, _, hresult⟩ := Option.map_eq_some_iff.mp hread
      cases hresult
      exact hroot
    · simp only [Option.bind_eq_bind, Option.bind_eq_some_iff, Prod.exists,
        Option.some.injEq, Prod.mk.injEq] at hread
      obtain ⟨_, _, _, hdefinition, _, hdefine, _, _, rfl, _⟩ := hread
      have hvalue := Expression.yields_definition
        (Expression.yields_nested Expression.maxDepth) _ _ _ hdefinition
      exact ofWords_of_define hroot hvalue hdefine
  · cases hread
    exact hroot

theorem ofWords_of_readLines {fuel : Nat} (hroot : builder.root.OfWords)
    (hread : readLines fuel builder text = some builder') :
    builder'.root.OfWords := by
  induction fuel generalizing builder text with
  | zero => cases hread
  | succ fuel ih =>
      unfold readLines at hread
      split at hread
      · cases hread
        exact hroot
      · simp only [Option.bind_eq_bind, Option.bind_eq_some_iff, Prod.exists]
          at hread
        obtain ⟨next, _, hline, hread⟩ := hread
        exact ih (ofWords_of_readLine hroot hline) hread

end Builder

/-- Every integer in a document that is read is a 64-bit number with a sign. -/
theorem ofWords_of_read {text : String} (hread : read text = some entries) :
    entries.OfWords := by
  obtain ⟨builder, hlines, rfl⟩ := Option.map_eq_some_iff.mp hread
  exact Builder.ofWords_of_readLines Entries.ofWords_nil hlines

end FlashStorage.Document
