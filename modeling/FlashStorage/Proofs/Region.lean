import FlashStorage.Region
import Mathlib.Data.Nat.Basic
import Mathlib.Order.Interval.Set.Defs

/-!
# Regions that overlap

Two regions share bytes if there is an address that both have.  The overlap test holds
each start against the end of the other region, and ends stay at the last address.  Both
have an edge.  A region without bytes has no address and yet can start behind the start
of another one and before its end, and a region that goes up to the last address seems
to end in front of it.  Off these edges the test finds exactly the regions that share an
address.
-/

namespace FlashStorage.Region

/-- The last address there is. -/
def lastAddress : Nat := UInt64.size - 1

/-- The addresses of a region.  Its exact end can lie behind the last address, and then
it has all addresses up to that one. -/
def zone (region : Region) : Set Nat :=
  Set.Ico region.offset.toNat (region.offset.toNat + region.length.toNat) ∩
    Set.Iic lastAddress

def Shares (region other : Region) : Prop :=
  ∃ address, address ∈ region.zone ∧ address ∈ other.zone

/-- A region without bytes that starts strictly between the ends of another one. -/
def EmptyInside (region other : Region) : Prop :=
  region.length.toNat = 0 ∧ other.offset.toNat < region.offset.toNat ∧
    region.offset.toNat < other.offset.toNat + other.length.toNat ∧
    region.offset.toNat ≠ lastAddress

/-- Two regions that share the last address and no other. -/
def MeetsAtTop (region other : Region) : Prop :=
  lastAddress ∈ region.zone ∧ lastAddress ∈ other.zone ∧
    (region.offset.toNat = lastAddress ∨ other.offset.toNat = lastAddress)

variable {region other : Region} {address : Nat}

theorem mem_zone_iff :
    address ∈ region.zone ↔
      region.offset.toNat ≤ address ∧
        address < region.offset.toNat + region.length.toNat ∧
        address ≤ lastAddress :=
  and_assoc

theorem offset_le_lastAddress (region : Region) :
    region.offset.toNat ≤ lastAddress := by
  have hword := region.offset.toNat_lt_size
  unfold lastAddress
  omega

theorem toNat_limit (region : Region) :
    region.limit.toNat =
      min (region.offset.toNat + region.length.toNat) lastAddress :=
  Word.toNat_saturatingAdd _ _

theorem overlaps_iff :
    region.overlaps other = true ↔
      region.offset.toNat < other.offset.toNat + other.length.toNat ∧
        other.offset.toNat < region.offset.toNat + region.length.toNat ∧
        region.offset.toNat < lastAddress ∧ other.offset.toNat < lastAddress := by
  simp only [overlaps, Bool.and_eq_true, decide_eq_true_eq, UInt64.lt_iff_toNat_lt,
    toNat_limit]
  omega

theorem overlaps_comm (region other : Region) :
    region.overlaps other = other.overlaps region := by
  rw [overlaps, overlaps, Bool.and_comm]

/-- Two regions share an address exactly if each has bytes and starts before the other
one ends; the later of the two starts is then such an address. -/
theorem shares_iff :
    region.Shares other ↔
      0 < region.length.toNat ∧ 0 < other.length.toNat ∧
        region.offset.toNat < other.offset.toNat + other.length.toNat ∧
        other.offset.toNat < region.offset.toNat + region.length.toNat := by
  have hregion := region.offset_le_lastAddress
  have hother := other.offset_le_lastAddress
  unfold Shares
  simp only [mem_zone_iff]
  constructor
  · rintro ⟨address, ⟨_, _, _⟩, ⟨_, _, _⟩⟩
    omega
  · rintro ⟨_, _, _, _⟩
    refine ⟨max region.offset.toNat other.offset.toNat, ?_, ?_⟩
    · omega
    · omega

theorem overlaps_self_iff :
    region.overlaps region = true ↔
      0 < region.length.toNat ∧ region.offset.toNat ≠ lastAddress := by
  have hregion := region.offset_le_lastAddress
  rw [overlaps_iff]
  omega

/-- The test finds the regions that share an address below the last one, and those
without bytes that start inside another. -/
theorem overlaps_iff_exists :
    region.overlaps other = true ↔
      (∃ address, address < lastAddress ∧ address ∈ region.zone ∧
        address ∈ other.zone) ∨
        region.EmptyInside other ∨ other.EmptyInside region := by
  have hregion := region.offset_le_lastAddress
  have hother := other.offset_le_lastAddress
  rw [overlaps_iff]
  simp only [mem_zone_iff]
  unfold EmptyInside
  constructor
  · rintro ⟨_, _, _, _⟩
    by_cases hbytes : 0 < region.length.toNat ∧ 0 < other.length.toNat
    · refine .inl ⟨max region.offset.toNat other.offset.toNat, ?_, ?_, ?_⟩
      · omega
      · omega
      · omega
    · omega
  · rintro (⟨address, _, ⟨_, _, _⟩, ⟨_, _, _⟩⟩ | ⟨_, _, _, _⟩ | ⟨_, _, _, _⟩)
    · omega
    · omega
    · omega

/-! ## The two edges -/

theorem emptyInside_iff (region other : Region) :
    region.EmptyInside other ∨ other.EmptyInside region ↔
      region.overlaps other = true ∧ ¬ region.Shares other := by
  have hregion := region.offset_le_lastAddress
  have hother := other.offset_le_lastAddress
  rw [overlaps_iff, shares_iff]
  unfold EmptyInside
  omega

theorem meetsAtTop_iff (region other : Region) :
    region.MeetsAtTop other ↔
      region.Shares other ∧ ¬ region.overlaps other = true := by
  have hregion := region.offset_le_lastAddress
  have hother := other.offset_le_lastAddress
  rw [overlaps_iff, shares_iff]
  unfold MeetsAtTop
  rw [mem_zone_iff, mem_zone_iff]
  omega

/-- The overlap test answers whether two regions share an address, in either order,
exactly unless one of them is empty inside the other or the last address is all that
they share.  A region overlaps itself exactly if it has bytes and does not start at the
last address. -/
theorem overlaps_exact_iff (region other : Region) :
    ((region.overlaps other = true ↔ region.Shares other) ↔
        ¬ (region.EmptyInside other ∨ other.EmptyInside region) ∧
          ¬ region.MeetsAtTop other) ∧
      (region.overlaps other = true ↔
        (∃ address, address < lastAddress ∧ address ∈ region.zone ∧
          address ∈ other.zone) ∨
          region.EmptyInside other ∨ other.EmptyInside region) ∧
      region.overlaps other = other.overlaps region ∧
      (region.overlaps region = true ↔
        0 < region.length.toNat ∧ region.offset.toNat ≠ lastAddress) := by
  refine ⟨?_, overlaps_iff_exists, overlaps_comm region other, overlaps_self_iff⟩
  rw [emptyInside_iff, meetsAtTop_iff]
  constructor
  · intro hexact
    constructor
    · rintro ⟨hoverlaps, hnot⟩
      exact hnot (hexact.mp hoverlaps)
    · rintro ⟨hshares, hnot⟩
      exact hnot (hexact.mpr hshares)
  · rintro ⟨hempty, htop⟩
    constructor
    · intro hoverlaps
      apply Classical.byContradiction
      intro hnot
      exact hempty ⟨hoverlaps, hnot⟩
    · intro hshares
      apply Classical.byContradiction
      intro hnot
      exact htop ⟨hshares, hnot⟩

def lastByte : Region := describe "last" storageTag Word.largest 1

def mark : Region := describe "mark" storageTag 5 0

def span : Region := describe "span" storageTag 0 10

/-- The region of the last byte has an address and does not overlap itself.  The mark has
none and overlaps the span around it. -/
theorem overlaps_inexact_at_edges :
    (lastByte.Shares lastByte ∧ lastByte.overlaps lastByte = false) ∧
      ¬ mark.Shares span ∧ mark.overlaps span = true := by
  refine ⟨⟨?_, rfl⟩, ?_, rfl⟩
  · rw [shares_iff]
    decide
  · rw [shares_iff]
    decide

end FlashStorage.Region
