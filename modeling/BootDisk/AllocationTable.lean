import BootDisk.Bytes
import BootDisk.Geometry

set_option autoImplicit false

/-!
# The allocation table

Entries of twelve bits, two in three bytes: entry `n` starts at byte `3 * n / 2`; an even entry is
the low half of the two bytes there, an odd one the high half. The entry of a cluster names the next
cluster of its chain.
-/
namespace BootDisk

structure AllocationTable where
  bytes : ByteArray

namespace AllocationTable

def endMark : Nat := 0xfff
def minEndMark : Nat := 0xff8
def badMark : Nat := 0xff7
def free : Nat := 0

def isEndMark (value : Nat) : Bool := minEndMark ≤ value

/-- The table of an empty volume: entry 0 carries the media descriptor, entry 1 is all ones. -/
def blank (g : Geometry) (media : UInt8) : Outcome AllocationTable :=
  let bytes := Bytes.zeros g.tableSize
  return ⟨← orFault .outOfBounds (Bytes.splice? bytes 0 (Bytes.ofList [media, 0xff, 0xff]))⟩

/-- The number of whole entries, cut to 32 bits. -/
def capacity (t : AllocationTable) : Nat := t.bytes.size * 2 / 3 % 0x100000000

def position (n : Nat) : Nat := n * 3 / 2

theorem capacity_le (t : AllocationTable) : t.capacity ≤ t.bytes.size * 2 / 3 := Nat.mod_le _ _

/-- Entry `n` from the two bytes at its position. -/
def unpack (n : Nat) (low high : UInt8) : Nat :=
  if n % 2 = 0 then low.toNat + high.toNat % 16 * 256
  else low.toNat / 16 + high.toNat * 16

/-- The two bytes with `value` stored as entry `n`; the half that belongs to the neighbour stays. -/
def pack (n value : Nat) (low high : UInt8) : UInt8 × UInt8 :=
  if n % 2 = 0 then
    (UInt8.ofNat (value % 256), UInt8.ofNat (high.toNat / 16 * 16 + value / 256 % 16))
  else (UInt8.ofNat (low.toNat % 16 + value % 16 * 16), UInt8.ofNat (value / 16 % 256))

/-- An entry outside the table reads as free. -/
def entry (t : AllocationTable) (n : Nat) : Nat :=
  if h : position n + 1 < t.bytes.size then
    unpack n t.bytes[position n] t.bytes[position n + 1]
  else free

theorem position_lt_of_lt_capacity {t : AllocationTable} {n : Nat} (h : n < t.capacity) :
    position n + 1 < t.bytes.size := by
  have most := t.capacity_le
  unfold position
  omega

def write (t : AllocationTable) (n value : Nat) (h : n < t.capacity) : AllocationTable :=
  have bound := position_lt_of_lt_capacity h
  let pair := pack n value t.bytes[position n] t.bytes[position n + 1]
  let bytes := t.bytes.set (position n) pair.1
  ⟨bytes.set (position n + 1) pair.2 (by rw [Bytes.size_set]; exact bound)⟩

def set (n value : Nat) : Step AllocationTable Unit := fun t =>
  if h : n < t.capacity then (.ok (), t.write n value h)
  else (.error (.fault (.tableEntry n)), t)

def markEnd (n : Nat) : Step AllocationTable Unit := set n endMark

/-- Links `count` clusters from `start` on into one chain. -/
def link (start : Nat) : Nat → Step AllocationTable Unit
  | 0 => pure ()
  | 1 => markEnd start
  | count + 2 => do
    set start (start + 1)
    link (start + 1) (count + 1)

def stops (value : Nat) : Bool := isEndMark value || value == badMark || value == free

/-- The clusters visited from `cluster` on in at most `fuel` steps, the last one first, before those
already in `visited`. -/
def walk (t : AllocationTable) : Nat → Nat → List Nat → List Nat
  | 0, _, visited => visited
  | fuel + 1, cluster, visited =>
    if Geometry.firstCluster ≤ cluster ∧ cluster < t.capacity then
      if stops (t.entry cluster) then cluster :: visited
      else t.walk fuel (t.entry cluster) (cluster :: visited)
    else visited

/-- The clusters of the chain from `start` on. A chain that comes back to a cluster is cut after as
many clusters as the table has entries. -/
def chain (t : AllocationTable) (start : Nat) : List Nat :=
  (t.walk t.capacity start []).reverse

end AllocationTable

end BootDisk
