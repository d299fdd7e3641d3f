import FlashStorage.Name
import FlashStorage.Word

/-!
# Regions

A board's partition table lists physical regions of flash, each with a type tag.
The regions tagged for database storage are the raw material of the registry;
all that is known of a partition table is which regions it has for a tag.
-/

namespace FlashStorage

structure Region where
  name : Name
  tag : UInt8
  /-- Absolute address of the first byte. -/
  offset : UInt64
  length : UInt64
deriving DecidableEq, Repr

namespace Region

/-- The tag of the regions reserved for database storage. -/
def storageTag : UInt8 := 0x40

/-- Describe a region; a long name is cut. -/
def describe (name : String) (tag : UInt8) (offset length : UInt64) : Region :=
  ⟨Name.truncate name, tag, offset, length⟩

/-- The address behind the last byte, at most the largest word. -/
def limit (region : Region) : UInt64 :=
  Word.saturatingAdd region.offset region.length

/-- Each region starts before the other one ends. -/
def overlaps (region other : Region) : Bool :=
  region.offset < other.limit && other.offset < region.limit

end Region

/-- Something that lists the regions of a tag in table order. -/
class RegionSource (σ : Type) where
  find : σ → UInt8 → List Region

/-- A partition table of at most eight regions. -/
structure RegionList where
  regions : List Region
  bounded : regions.length ≤ 8

namespace RegionList

def empty : RegionList := ⟨[], by simp⟩

def length (list : RegionList) : Nat := list.regions.length

/-- Add a region at the end, or hand it back if the list is full. -/
def push (list : RegionList) (region : Region) : Except Region RegionList :=
  if hroom : list.regions.length < 8 then
    .ok ⟨list.regions ++ [region], by rw [List.length_append]; exact hroom⟩
  else .error region

/-- Add a region to a table that is known to have room for it. -/
def extend {ε : Type} (list : RegionList) (region : Region) :
    Outcome ε RegionList :=
  match list.push region with
  | .ok longer => .ok longer
  | .error _ => .halt .listFull

/-- A fixed table of the given regions. -/
def ofList {ε : Type} (regions : List Region) : Outcome ε RegionList :=
  regions.foldlM extend empty

def find (list : RegionList) (tag : UInt8) : List Region :=
  list.regions.filter (fun region => region.tag == tag)

instance : RegionSource RegionList := ⟨find⟩

end RegionList

end FlashStorage
