import BootDisk.Proofs.AllocationTable.Entries
import BootDisk.Proofs.Audit.Width

set_option autoImplicit false

/-!
# How many entries a table has

Entry `n` takes the two bytes at its position. Both are in the table exactly where `n` is below two
thirds of the number of bytes, for a table of any length. This number is kept in 32 bits, which hold
it for every table of fewer than 6 GiB, and so for all tables of a layout. A layout has the same
number for its tables, unless twice the size of a table does not fit 32 bits: then it has none.
-/
namespace BootDisk.AllocationTable

/-- Both bytes of entry `n` are in the table. -/
def Whole (t : AllocationTable) (n : Nat) : Prop :=
  position n < t.bytes.size ∧ position n + 1 < t.bytes.size

theorem whole_iff (t : AllocationTable) (n : Nat) : t.Whole n ↔ n < t.bytes.size * 2 / 3 := by
  unfold Whole position
  omega

/-- Its number of entries needs no more than 32 bits. -/
def Counted (t : AllocationTable) : Prop := t.bytes.size < 0x180000000

instance (t : AllocationTable) : Decidable t.Counted := inferInstanceAs (Decidable (_ < _))

section Counting
variable {t : AllocationTable}

theorem whole_of_lt_capacity {n : Nat} (h : n < t.capacity) : t.Whole n :=
  t.whole_iff n |>.2 (Nat.lt_of_lt_of_le h t.capacity_le)

theorem Counted.capacity_eq (h : t.Counted) : t.capacity = t.bytes.size * 2 / 3 := by
  unfold Counted at h
  exact Nat.mod_eq_of_lt (by omega)

theorem Counted.lt_capacity_iff (h : t.Counted) (n : Nat) : n < t.capacity ↔ t.Whole n := by
  rw [h.capacity_eq, whole_iff]

theorem Counted.entry_free (h : t.Counted) {n : Nat} (behind : t.capacity ≤ n) :
    t.entry n = free := by
  rw [entry_eq, if_neg]
  intro inside
  exact absurd ((h.lt_capacity_iff n).2 ⟨by omega, inside⟩) (Nat.not_lt.2 behind)

theorem whole_capacity (h : ¬ t.Counted) : t.capacity < Word32.limit ∧ t.Whole t.capacity := by
  have small : t.capacity < Word32.limit := Nat.mod_lt _ (by decide)
  unfold Counted at h
  refine ⟨small, (t.whole_iff _).2 ?_⟩
  unfold Word32.limit at small
  omega

end Counting

namespace Indexed

def load (i : Nat) : Step AllocationTable UInt8 := do
  orFault .outOfBounds (Bytes.byte? (← get).bytes i)

def store (i : Nat) (x : UInt8) : Step AllocationTable Unit := fun t =>
  if h : i < t.bytes.size then (.ok (), ⟨t.bytes.set i x h⟩) else (.error (.fault .outOfBounds), t)

def set (n value : Nat) : Step AllocationTable Unit := do
  if n < (← get).capacity then
    let low ← load (position n)
    let high ← load (position n + 1)
    store (position n) (pack n value low high).1
    store (position n + 1) (pack n value low high).2
  else fault (.tableEntry n)

variable {t : AllocationTable} {i : Nat}

theorem load_eq_ok (h : i < t.bytes.size) : load i t = (.ok t.bytes[i], t) := by
  have byte : Bytes.byte? t.bytes i = some t.bytes[i] := dif_pos h
  change (liftM (orFault .outOfBounds (Bytes.byte? t.bytes i)) : Step AllocationTable UInt8) t = _
  rw [byte]
  rfl

theorem store_eq_ok (x : UInt8) (h : i < t.bytes.size) :
    store i x t = (.ok (), ⟨t.bytes.set i x h⟩) := dif_pos h

/-- No access leaves the table. -/
theorem set_eq (n value : Nat) (t : AllocationTable) :
    set n value t = AllocationTable.set n value t := by
  rw [set, Step.get_bind]
  by_cases h : n < t.capacity
  · obtain ⟨first, second⟩ := whole_of_lt_capacity h
    rw [if_pos h, set_eq_ok t n value h, Step.bind_ok (load_eq_ok first),
      Step.bind_ok (load_eq_ok second), Step.bind_ok (store_eq_ok _ first)]
    exact store_eq_ok _ (by rw [Bytes.size_set]; exact second)
  · rw [if_neg h, AllocationTable.set, dif_neg h]
    rfl

end Indexed

section Layouts
variable {g : Geometry}

theorem exists_blank (media : UInt8) (room : 3 ≤ g.tableSize) :
    ∃ u, blank g media = .ok u ∧ u.Counted ∧ u.capacity = g.tableCapacity := by
  have size := size_blank media room
  refine ⟨_, blank_eq_ok media room, ?_, capacity_eq_tableCapacity size⟩
  have limit := g.tableSize_lt
  unfold Word32.limit at limit
  rw [Counted, size]
  omega

theorem checked_tableCapacity_iff :
    Geometry.Checked.tableCapacity g = .ok g.tableCapacity ↔ g.tableSize * 2 < Word32.limit := by
  rw [← g.narrow_tableCapacity]
  exact g.narrow_tableCapacity_eq_ok_iff

end Layouts

/-- In a table of fewer than 6 GiB the entries below the capacity are those whose bytes are both in
it, and the others are free; in a larger one the entry at the capacity is whole as well. A write is
refused for its entry alone, and none of its accesses leaves the table. A valid layout has the
capacity of its tables, and it exceeds the last cluster. Any layout whose tables have room for the
reserved entries has their capacity exactly where twice the size of a table fits 32 bits. -/
theorem capacity_exact (t : AllocationTable) (g : Geometry) (media : UInt8) :
    (t.Counted → ∀ n, (n < t.capacity ↔ t.Whole n) ∧ (t.capacity ≤ n → t.entry n = free)) ∧
    (¬ t.Counted → t.capacity < Word32.limit ∧ t.Whole t.capacity) ∧
    (∀ n value, Indexed.set n value t = set n value t ∧
      (n < t.capacity → t.Whole n ∧ ∃ u, set n value t = (.ok (), u)) ∧
      (t.capacity ≤ n → set n value t = (.error (.fault (.tableEntry n)), t))) ∧
    (g.validate = .ok () → ∃ u, blank g media = .ok u ∧
      Geometry.Checked.tableCapacity g = .ok u.capacity ∧ g.maxCluster < u.capacity) ∧
    (3 ≤ g.tableSize → ∃ u, blank g media = .ok u ∧ u.Counted ∧
      (Geometry.Checked.tableCapacity g = .ok u.capacity ↔ g.tableSize * 2 < Word32.limit)) := by
  refine ⟨fun counted n => ⟨counted.lt_capacity_iff n, counted.entry_free⟩, whole_capacity,
    fun n value => ⟨Indexed.set_eq n value t, fun inside => ?_, fun behind => ?_⟩, fun valid => ?_,
    fun room => ?_⟩
  · exact ⟨whole_of_lt_capacity inside, _, set_eq_ok t n value inside⟩
  · exact dif_neg (Nat.not_lt.2 behind)
  · have bounds := Geometry.bounds_of_validate valid
    have room : 3 ≤ g.tableSize := Nat.le_trans (by decide) bounds.sector_le_tableSize
    obtain ⟨u, made, _, same⟩ := exists_blank media room
    refine ⟨u, made, ?_, ?_⟩
    · rw [same]
      exact checked_tableCapacity_iff.2 bounds.width
    · rw [same]
      exact bounds.capacity
  · obtain ⟨u, made, counted, same⟩ := exists_blank media room
    refine ⟨u, made, counted, ?_⟩
    rw [same]
    exact checked_tableCapacity_iff

def blankOf (size : Nat) : AllocationTable := ⟨Bytes.ofList (blankBytes 0xf8 size)⟩

theorem size_blankOf {size : Nat} (room : 3 ≤ size) : (blankOf size).bytes.size = size :=
  size_blank 0xf8 room

theorem sevenBytes_capacity : (blankOf 7).Counted ∧ 3 < (blankOf 7).capacity ∧
    (blankOf 7).Whole 3 ∧ (∃ u, set 3 0xfff (blankOf 7) = (.ok (), u)) ∧
    (blankOf 7).capacity ≤ 4 ∧ (blankOf 7).entry 4 = free ∧
    set 4 0xfff (blankOf 7) = (.error (.fault (.tableEntry 4)), blankOf 7) ∧
    (¬ (blankOf 0x180000000).Counted ∧ (blankOf 0x180000000).Whole (blankOf 0x180000000).capacity) ∧
    Geometry.floppy.validate = .ok () ∧ ∃ u, blank .floppy 0xf8 = .ok u ∧ u.Counted ∧
      Geometry.Checked.tableCapacity .floppy = .ok u.capacity ∧ 2848 < u.capacity := by
  have counted : (blankOf 7).Counted := by decide
  have inside : 3 < (blankOf 7).capacity := by decide
  have behind : (blankOf 7).capacity ≤ 4 := by decide
  have vast : ¬ (blankOf 0x180000000).Counted := by
    rw [Counted, size_blankOf (by decide)]
    decide
  obtain ⟨seven, _, writes, valid, table⟩ := capacity_exact (blankOf 7) .floppy 0xf8
  obtain ⟨_, uncounted, _⟩ := capacity_exact (blankOf 0x180000000) .floppy 0xf8
  obtain ⟨u, made, same, last⟩ := valid rfl
  obtain ⟨v, again, small, _⟩ := table (by decide)
  cases made.symm.trans again
  obtain ⟨whole, stored⟩ := (writes 3 0xfff).2.1 inside
  exact ⟨counted, inside, whole, stored, behind, (seven counted 4).2 behind,
    (writes 4 0xfff).2.2 behind, ⟨vast, (uncounted vast).2⟩, rfl, u, made, small, same, last⟩

/-- A table of 6 GiB has one entry more than can be counted, and is taken to have none. A layout
whose regions fit and whose one table has an entry for every cluster has no capacity. -/
theorem vast_uncounted : (blankOf 0x180000000).Whole 0 ∧ (blankOf 0x180000000).capacity = 0 ∧
    (blankOf 0x180000000).entry 0 ≠ free ∧ Audit.wide.layoutDefect? = none ∧
    Geometry.Checked.tableCapacity Audit.wide = .error (.fault .overflow) ∧
    ∃ u, blank Audit.wide 0xf8 = .ok u ∧ u.capacity = 1431677610 ∧
      Audit.wide.maxCluster < u.capacity := by
  have size : (blankOf 0x180000000).bytes.size = 0x180000000 := size_blankOf (by decide)
  have capacity : (blankOf 0x180000000).capacity = 0 := by rw [AllocationTable.capacity, size]
  refine ⟨(whole_iff _ _).2 (by rw [size]; decide), capacity, ?_, by decide, rfl, ?_⟩
  · rw [blankOf, entry_blank _ _ (by decide)]
    decide
  · obtain ⟨u, made, _, same⟩ := exists_blank (g := Audit.wide) 0xf8 (by decide)
    refine ⟨u, made, same, ?_⟩
    rw [same]
    decide

end BootDisk.AllocationTable
