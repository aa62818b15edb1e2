import BootDisk.Builder
import BootDisk.Proofs.AllocationTable.Chains
import BootDisk.Proofs.Directory.Names
import BootDisk.Proofs.Directory.Root
import BootDisk.Proofs.Extents

set_option autoImplicit false

/-!
# What a builder holds

The state of a builder is determined by the files placed so far: each one has a slot with its
record and its first cluster. A plan is a list of slots that a valid geometry has room for, and
`Holds` says that the image, the table, the directory, the allocator and the list of placements
are those of a plan.
-/
namespace BootDisk.Builder

/-- A placed file, its record without cluster and size, and its first cluster. -/
structure Slot where
  file : SourceFile
  draft : Record
  start : Nat

namespace Slot

def record (t : Slot) : Record :=
  { t.draft with firstCluster := UInt16.ofNat t.start, size := UInt32.ofNat t.file.size }

variable (g : Geometry)

def count (t : Slot) : Nat := clustersNeeded t.file.size g.clusterSize

def extent (t : Slot) : Extent := ⟨t.start, t.count g⟩

def placement (t : Slot) : Placement where
  name := t.record.shortName
  extent := t.extent g
  size := UInt32.ofNat t.file.size
  offset := g.clusterOffset t.start

def data (t : Slot) : List UInt8 :=
  Bytes.toList t.file.contents ++ List.replicate (t.count g * g.clusterSize - t.file.size) 0

structure Fits (t : Slot) : Prop where
  made : Record.make t.file.name t.file.ext 0 0 = .ok t.draft
  nonempty : 0 < t.file.size
  enough : t.file.size ≤ t.count g * g.clusterSize

end Slot

/-- Slots in order, from the first cluster up to `next`, that the geometry has room for. -/
structure Plan (g : Geometry) (slots : List Slot) (next : Nat) : Prop where
  fits : ∀ t ∈ slots, t.Fits g
  tile : Extent.Tile Geometry.firstCluster (slots.map (Slot.extent g)) next
  within : next ≤ g.maxCluster + 1
  room : slots.length ≤ g.rootEntries.toNat
  distinct : slots.Pairwise fun t u => t.record.sameName u.record = false

/-- Everything in front of the data region before the table and the directory are copied. -/
def header (g : Geometry) (s : Settings) : List UInt8 :=
  Bytes.toList (BootSector.encode (.ofSettings s) g) ++
    List.replicate (g.dataOffset - Geometry.bootSectorSize) 0

/-- The data region with the files of the slots, zero behind them. -/
def dataRegion (g : Geometry) (slots : List Slot) (next : Nat) : List UInt8 :=
  slots.flatMap (Slot.data g) ++ List.replicate (g.imageSize - g.clusterOffset next) 0

def rootRegion (g : Geometry) (slots : List Slot) : List UInt8 :=
  (slots.map Slot.record).flatMap Record.encode ++
    List.replicate (g.rootSize - slots.length * Geometry.recordSize) 0

/-- The entries of the runs are linked, those from `next` on are free, and the first two are those
of an empty volume. The bits behind the last entry are zero. -/
structure Linked (g : Geometry) (slots : List Slot) (next : Nat) (t : AllocationTable) : Prop where
  size : t.bytes.size = g.tableSize
  media : t.entry 0 = 0xff8
  ones : t.entry 1 = 0xfff
  runs : ∀ u ∈ slots, ∀ c, u.start ≤ c → c < u.start + u.count g →
    t.entry c = AllocationTable.linkedEntry u.start (u.count g) c
  free : ∀ c, next ≤ c → t.entry c = AllocationTable.free
  spare : ∀ c, g.tableCapacity ≤ c → t.bits c = 0

structure Listed (g : Geometry) (slots : List Slot) (d : RootDirectory) : Prop where
  records : d.records.toList = slots.map Slot.record
  bytes : Bytes.toList d.bytes = rootRegion g slots
  capacity : d.capacity = g.rootEntries

/-- The state of a builder that has placed the files of the slots. -/
structure Holds (g : Geometry) (s : Settings) (slots : List Slot) (b : Builder) : Prop where
  plan : Plan g slots b.allocator.next
  geometry : b.geometry = g
  image : Bytes.toList b.image = header g s ++ dataRegion g slots b.allocator.next
  table : Linked g slots b.allocator.next b.table
  root : Listed g slots b.root
  maxCluster : b.allocator.maxCluster = g.maxCluster
  clusterSize : b.allocator.clusterSize = g.clusterSize
  placed : b.placed.toList = slots.map (Slot.placement g)

theorem length_header {g : Geometry} (bounds : g.Bounds) (s : Settings) :
    (header g s).length = g.dataOffset := by
  have := bounds.bootSector_le_dataOffset
  rw [header, List.length_append, Bytes.toList_length, BootSector.encode_size,
    List.length_replicate]
  unfold Geometry.bootSectorSize at *
  omega

theorem Slot.Fits.length_data {g : Geometry} {t : Slot} (h : t.Fits g) :
    (t.data g).length = t.count g * g.clusterSize := by
  have := h.enough
  rw [Slot.data, List.length_append, Bytes.toList_length, List.length_replicate]
  change t.file.size + _ = _
  omega

theorem Slot.Fits.count_pos {g : Geometry} {t : Slot} (h : t.Fits g) : 0 < t.count g := by
  apply Nat.pos_of_ne_zero
  intro zero
  have enough := h.enough
  have nonempty := h.nonempty
  rw [zero, Nat.zero_mul] at enough
  omega

theorem le_badMark {g : Geometry} (bounds : g.Bounds) {c : Nat} (upper : c ≤ g.maxCluster + 1) :
    c ≤ AllocationTable.badMark := by
  have := bounds.clusters
  rw [Geometry.maxCluster_eq] at upper
  unfold Geometry.clusterLimit at *
  unfold AllocationTable.badMark
  omega

theorem clusterOffset_tile {g : Geometry} {slots : List Slot} {start stop : Nat}
    (lower : Geometry.firstCluster ≤ start) (fits : ∀ t ∈ slots, t.Fits g)
    (tile : Extent.Tile start (slots.map (Slot.extent g)) stop) :
    g.clusterOffset start + (slots.flatMap (Slot.data g)).length = g.clusterOffset stop := by
  induction slots generalizing start with
  | nil =>
    rw [show start = stop from tile]
    rfl
  | cons t rest ih =>
    obtain ⟨first, positive, tile⟩ := tile
    have tail := ih (by omega) (fun u hu => fits u (by simp [hu])) tile
    have grown := g.clusterOffset_add lower (t.count g)
    rw [List.flatMap_cons, List.length_append, (fits t (by simp)).length_data]
    change g.clusterOffset (start + t.count g) + _ = _ at tail
    omega

namespace Plan
variable {g : Geometry} {slots : List Slot} {next : Nat} (h : Plan g slots next)
include h

theorem first_le : Geometry.firstCluster ≤ next := h.tile.le

theorem slot_bounds {t : Slot} (ht : t ∈ slots) :
    Geometry.firstCluster ≤ t.start ∧ 0 < t.count g ∧ t.start + t.count g ≤ next :=
  h.tile.mem (List.mem_map_of_mem ht)

section
variable (bounds : g.Bounds)
include bounds

theorem next_small : next ≤ AllocationTable.badMark := le_badMark bounds h.within

theorem next_le_capacity : next ≤ g.tableCapacity := Nat.le_trans h.within bounds.capacity

theorem next_le_imageSize : g.clusterOffset next ≤ g.imageSize := bounds.clusterOffset_le h.within

theorem start_lt {t : Slot} (ht : t ∈ slots) : t.start < 0x10000 := by
  have := h.slot_bounds ht
  have := h.next_small bounds
  unfold AllocationTable.badMark at *
  omega

theorem size_lt {t : Slot} (ht : t ∈ slots) : t.file.size < 0x100000000 := by
  have slot := h.slot_bounds ht
  have enough := (h.fits t ht).enough
  have inside := h.next_le_imageSize bounds
  have image := g.imageSize_lt
  have below : t.count g * g.clusterSize ≤ (next - Geometry.firstCluster) * g.clusterSize :=
    Nat.mul_le_mul_right _ (by omega)
  rw [Geometry.clusterOffset] at inside
  omega

theorem toNat_firstCluster {t : Slot} (ht : t ∈ slots) :
    t.record.firstCluster.toNat = t.start := by
  have := h.start_lt bounds ht
  exact UInt16.toNat_ofNat_of_lt' this

theorem toNat_size {t : Slot} (ht : t ∈ slots) : t.record.size.toNat = t.file.size :=
  UInt32.toNat_ofNat_of_lt' (h.size_lt bounds ht)

end

theorem flatMap_data_end :
    g.dataOffset + (slots.flatMap (Slot.data g)).length = g.clusterOffset next := by
  rw [← g.clusterOffset_first]
  exact clusterOffset_tile (Nat.le_refl _) h.fits h.tile

theorem flatMap_data_before {before after : List Slot} {t : Slot}
    (split : slots = before ++ t :: after) :
    g.dataOffset + (before.flatMap (Slot.data g)).length = g.clusterOffset t.start := by
  have tile := h.tile
  rw [split, List.map_append, Extent.tile_append] at tile
  obtain ⟨middle, left, first, _, _⟩ := tile
  rw [show t.start = middle from first, ← g.clusterOffset_first]
  exact clusterOffset_tile (Nat.le_refl _) (fun u hu => h.fits u (by simp [split, hu])) left

/-- The bytes of a file start where its first cluster does. -/
theorem dataRegion_split {front : List UInt8} (offset : front.length = g.dataOffset) {t : Slot}
    (ht : t ∈ slots) : ∃ left right, front ++ dataRegion g slots next = left ++ t.data g ++ right ∧
      left.length = g.clusterOffset t.start := by
  obtain ⟨before, after, split⟩ := List.append_of_mem ht
  refine ⟨front ++ before.flatMap (Slot.data g), after.flatMap (Slot.data g) ++
    List.replicate (g.imageSize - g.clusterOffset next) 0, ?_, ?_⟩
  · rw [dataRegion, split, List.flatMap_append, List.flatMap_cons]
    simp only [List.append_assoc]
  · rw [List.length_append, offset, h.flatMap_data_before split]

theorem length_dataRegion (bounds : g.Bounds) :
    (dataRegion g slots next).length = g.imageSize - g.dataOffset := by
  have written := h.flatMap_data_end
  have inside := h.next_le_imageSize bounds
  rw [dataRegion, List.length_append, List.length_replicate]
  omega

theorem head_ne_zero {t : Slot} (ht : t ∈ slots) : Record.firstByte t.record.name ≠ 0 :=
  (Record.Named.of_make (h.fits t ht).made).head_ne_zero

theorem length_rootRegion (bounds : g.Bounds) : (rootRegion g slots).length = g.rootSize := by
  have fit := bounds.records_fit
  have used : slots.length * Geometry.recordSize ≤ g.rootEntries.toNat * Geometry.recordSize :=
    Nat.mul_le_mul_right _ h.room
  rw [rootRegion, List.length_append, Record.length_flatMap_encode, List.length_map,
    List.length_replicate]
  omega

end Plan

theorem exists_slot {g : Geometry} {slots : List Slot} {i : Nat} {f : SourceFile} {p : Placement}
    {r : Record} (file : (slots.map Slot.file)[i]? = some f)
    (placement : (slots.map (Slot.placement g))[i]? = some p)
    (record : (slots.map Slot.record)[i]? = some r) :
    ∃ t ∈ slots, t.file = f ∧ t.placement g = p ∧ t.record = r := by
  rw [List.getElem?_map, Option.map_eq_some_iff] at file placement record
  obtain ⟨t, here, named⟩ := file
  obtain ⟨u, same, placed⟩ := placement
  obtain ⟨v, again, recorded⟩ := record
  cases here.symm.trans same
  cases here.symm.trans again
  exact ⟨t, List.mem_of_getElem? here, named, placed, recorded⟩

theorem Linked.capacity {g : Geometry} {slots : List Slot} {next : Nat} {t : AllocationTable}
    (h : Linked g slots next t) : t.capacity = g.tableCapacity :=
  AllocationTable.capacity_eq_tableCapacity h.size

theorem Linked.reserved_bytes {g : Geometry} {slots : List Slot} {next : Nat} {t : AllocationTable}
    (h : Linked g slots next t) (room : 3 ≤ g.tableSize) :
    Bytes.byte? t.bytes 0 = some 0xf8 ∧ Bytes.byte? t.bytes 1 = some 0xff ∧
      Bytes.byte? t.bytes 2 = some 0xff := by
  have size := h.size
  have media := h.media
  have ones := h.ones
  obtain ⟨first, second⟩ := t.entry_reserved (by omega)
  rw [first] at media
  rw [second] at ones
  have b₀ := (t.byteAt 0).toNat_lt
  have b₁ := (t.byteAt 1).toNat_lt
  have b₂ := (t.byteAt 2).toNat_lt
  rw [t.byte?_eq_byteAt (by omega), t.byte?_eq_byteAt (by omega), t.byte?_eq_byteAt (by omega),
    Option.some_inj, Option.some_inj, Option.some_inj, ← UInt8.toNat_inj, ← UInt8.toNat_inj,
    ← UInt8.toNat_inj]
  refine ⟨?_, ?_, ?_⟩
  · change _ = 0xf8
    omega
  · change _ = 0xff
    omega
  · change _ = 0xff
    omega

theorem Listed.filled {g : Geometry} {slots : List Slot} {d : RootDirectory}
    (h : Listed g slots d) : d.Filled g (slots.map Slot.record) where
  list := h.records
  bytes := by rw [h.bytes, rootRegion, List.length_map]
  capacity := h.capacity

theorem listed_of_filled {g : Geometry} {slots : List Slot} {d : RootDirectory}
    (h : d.Filled g (slots.map Slot.record)) : Listed g slots d where
  records := h.list
  bytes := by rw [h.bytes, rootRegion, List.length_map]
  capacity := h.capacity

theorem Listed.length {g : Geometry} {slots : List Slot} {d : RootDirectory}
    (h : Listed g slots d) : d.length = slots.length := by
  rw [h.filled.length, List.length_map]

namespace Holds
variable {g : Geometry} {s : Settings} {slots : List Slot} {b : Builder} (h : Holds g s slots b)
include h

theorem image_size (bounds : g.Bounds) : b.image.size = g.imageSize := by
  have length := h.plan.length_dataRegion bounds
  have := bounds.dataOffset_lt_imageSize
  rw [← Bytes.toList_length, h.image, List.length_append, length_header bounds]
  omega

theorem listed : Record.allIn b.root.bytes = slots.map Slot.record := by
  apply Record.allIn_of_toList h.root.bytes
  intro r hr
  obtain ⟨t, ht, rfl⟩ := List.mem_map.1 hr
  exact h.plan.head_ne_zero ht

end Holds

end BootDisk.Builder
