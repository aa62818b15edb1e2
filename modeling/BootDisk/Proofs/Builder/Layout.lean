import BootDisk.Proofs.AllocationTable.Packing
import BootDisk.Proofs.Builder.Admission
import BootDisk.Proofs.Builder.Finish

set_option autoImplicit false

/-!
# The layout of an image

The image of a list of files, written down region by region: the boot sector, equal copies of the
packed entries, the records, and the contents in whole clusters, each with zeros behind it. A builder
reaches the same bytes by writing at offsets into one buffer and by changing single entries in place.
-/
namespace BootDisk

namespace Layout

def extents (g : Geometry) : Nat → List SourceFile → List Extent
  | _, [] => []
  | next, f :: rest =>
    let count := clustersExact f.size g.clusterSize
    ⟨next, count⟩ :: extents g (next + count) rest

/-- The entries along an extent: each names the next cluster, and the last one is an end mark. -/
def chain (e : Extent) : List Nat :=
  List.range' (e.start + 1) (e.count - 1) ++ [AllocationTable.endMark]

def entries (g : Geometry) (media : UInt8) (files : List SourceFile) : List Nat :=
  [0xf00 + media.toNat, 0xfff] ++ (extents g Geometry.firstCluster files).flatMap chain

def records (g : Geometry) : Nat → List SourceFile → Outcome (List Record)
  | _, [] => return []
  | next, f :: rest => do
    let r ← Record.make f.name f.ext (UInt16.ofNat next) (UInt32.ofNat f.size)
    return r :: (← records g (next + clustersExact f.size g.clusterSize) rest)

/-- The contents of a file, up to the end of its last cluster. -/
def contents (g : Geometry) (f : SourceFile) : List UInt8 :=
  Bytes.padded (clustersExact f.size g.clusterSize * g.clusterSize) (Bytes.toList f.contents)

def bytes (g : Geometry) (s : Settings) (files : List SourceFile) : Outcome (List UInt8) := do
  let p := BootSector.Parameters.ofSettings s
  let boot := Bytes.padded (g.reservedSectors.toNat * g.bytesPerSector.toNat)
    (Bytes.toList (BootSector.encode p g))
  let table := Bytes.padded g.tableSize (AllocationTable.packing (entries g p.media files))
  let records ← records g Geometry.firstCluster files
  let root := Bytes.padded g.rootSize (records.flatMap Record.encode)
  return Bytes.padded g.imageSize (boot ++ (List.replicate g.tableCount.toNat table).flatten ++
    root ++ files.flatMap (contents g))

theorem length_chain {e : Extent} (positive : 0 < e.count) : (chain e).length = e.count := by
  rw [chain, List.length_append, List.length_range', List.length_singleton]
  omega

theorem getD_chain {e : Extent} {i : Nat} (inside : i < e.count) :
    (chain e).getD i 0 = AllocationTable.linkedEntry e.start e.count (e.start + i) := by
  rw [chain, List.getD_eq_getElem?_getD, AllocationTable.linkedEntry]
  by_cases last : i + 1 = e.count
  · rw [List.getElem?_append_right (by rw [List.length_range']; omega), List.length_range',
      if_pos (by omega), show i - (e.count - 1) = 0 by omega]
    rfl
  · rw [List.getElem?_append_left (by rw [List.length_range']; omega),
      List.getElem?_range' (by omega), if_neg (by omega), Option.getD_some]
    omega

/-- Entries that are linked along tiling extents and zero behind them are the chains one after
another. -/
theorem getD_chains (value : Nat → Nat) {start stop : Nat} {es : List Extent}
    (tile : Extent.Tile start es stop)
    (linked : ∀ e ∈ es, ∀ c, e.start ≤ c → c < e.start + e.count →
      value c = AllocationTable.linkedEntry e.start e.count c)
    (free : ∀ c, stop ≤ c → value c = 0) (i : Nat) :
    (es.flatMap chain).getD i 0 = value (start + i) := by
  induction es generalizing start i with
  | nil =>
    have stop : start = stop := tile
    rw [free _ (by omega)]
    rfl
  | cons e es ih =>
    obtain ⟨first, positive, rest⟩ := tile
    have length := length_chain positive
    rw [List.flatMap_cons, List.getD_eq_getElem?_getD]
    by_cases inside : i < e.count
    · rw [List.getElem?_append_left (by omega), ← List.getD_eq_getElem?_getD, getD_chain inside,
        linked e (by simp) _ (by omega) (by omega), first]
    · rw [List.getElem?_append_right (by omega), ← List.getD_eq_getElem?_getD,
        ih rest (fun d hd => linked d (by simp [hd])), length]
      congr 1
      omega

end Layout

namespace Builder

section Slots
variable {g : Geometry} (bounds : g.Bounds) {slots : List Slot} {start stop : Nat}
  (fits : ∀ t ∈ slots, t.Fits g) (tile : Extent.Tile start (slots.map (Slot.extent g)) stop)
include bounds fits tile

theorem extents_tile : Layout.extents g start (slots.map Slot.file) =
    slots.map (Slot.extent g) := by
  induction slots generalizing start with
  | nil => rfl
  | cons t rest ih =>
    obtain ⟨first, _, tile⟩ := tile
    have count := (fits t (by simp)).count_eq bounds
    have here : (⟨start, t.count g⟩ : Extent) = t.extent g := by
      rw [← first]
      rfl
    rw [List.map_cons, List.map_cons, Layout.extents, ← count, here]
    exact congrArg (t.extent g :: ·) (ih (fun u hu => fits u (by simp [hu])) tile)

theorem records_tile : Layout.records g start (slots.map Slot.file) =
    .ok (slots.map Slot.record) := by
  induction slots generalizing start with
  | nil => rfl
  | cons t rest ih =>
    obtain ⟨first, _, tile⟩ := tile
    have fit := fits t (by simp)
    have made := Record.make_with fit.made (UInt16.ofNat t.start) (UInt32.ofNat t.file.size)
    have here : t.start = start := first
    rw [← first] at tile
    have tail : Layout.records g (t.start + t.count g) (rest.map Slot.file) = _ :=
      ih (fun u hu => fits u (by simp [hu])) tile
    rw [List.map_cons, Layout.records, ← fit.count_eq bounds, ← here, Outcome.bind_ok made,
      Outcome.bind_ok tail]
    rfl

omit tile in
theorem contents_fits : (slots.map Slot.file).flatMap (Layout.contents g) =
    slots.flatMap (Slot.data g) := by
  rw [List.flatMap_map, List.flatMap_def, List.flatMap_def]
  congr 1
  apply List.map_congr_left
  intro t ht
  rw [Layout.contents, ← (fits t ht).count_eq bounds, Bytes.padded, Bytes.toList_length]
  rfl

end Slots

section Finish
variable {g : Geometry} {s : Settings} {slots : List Slot} {b : Builder} (bounds : g.Bounds)
  (h : Holds g s slots b)
include bounds h

theorem Holds.bits_eq (n : Nat) :
    b.table.bits n = (Layout.entries g 0xf8 (slots.map Slot.file)).getD n 0 := by
  have capacity := h.table.capacity
  have room := h.plan.next_le_capacity bounds
  have lower := h.plan.first_le
  have entry : ∀ c, c < b.allocator.next → b.table.entry c = b.table.bits c :=
    fun c hc => AllocationTable.entry_eq_bits (by omega)
  unfold Geometry.firstCluster at lower
  rw [Layout.entries, extents_tile bounds h.plan.fits h.plan.tile]
  match n with
  | 0 =>
    rw [← entry 0 (by omega), h.table.media]
    rfl
  | 1 =>
    rw [← entry 1 (by omega), h.table.ones]
    rfl
  | n + 2 =>
    have chains := Layout.getD_chains b.table.bits h.plan.tile ?_ ?_ n
    · change _ = ((slots.map (Slot.extent g)).flatMap Layout.chain).getD n 0
      rw [chains, Nat.add_comm n]
      rfl
    · intro e he c first last
      obtain ⟨t, ht, rfl⟩ := List.mem_map.1 he
      have inside := (h.plan.slot_bounds ht).2.2
      change c < t.start + t.count g at last
      rw [← entry c (by omega)]
      exact h.table.runs t ht c first last
    · intro c behind
      by_cases inside : c < b.table.capacity
      · rw [← AllocationTable.entry_eq_bits inside]
        exact h.table.free c behind
      · exact h.table.spare c (by omega)

theorem length_entries : (Layout.entries g 0xf8 (slots.map Slot.file)).length =
    b.allocator.next := by
  have tile := h.plan.tile
  have lower := h.plan.first_le
  have chains : ∀ {start stop : Nat} {es : List Extent}, Extent.Tile start es stop →
      start + (es.flatMap Layout.chain).length = stop := by
    intro start stop es tile
    induction es generalizing start with
    | nil => exact tile
    | cons e es ih =>
      obtain ⟨_, positive, rest⟩ := tile
      have tail := ih rest
      rw [List.flatMap_cons, List.length_append, Layout.length_chain positive]
      omega
  rw [Layout.entries, extents_tile bounds h.plan.fits h.plan.tile, List.length_append]
  exact chains tile

theorem table_packed : Bytes.toList b.table.bytes = Bytes.padded g.tableSize
    (AllocationTable.packing (Layout.entries g 0xf8 (slots.map Slot.file))) := by
  have room := h.plan.next_le_capacity bounds
  rw [← h.table.size]
  apply AllocationTable.toList_of_bits
  · rw [length_entries bounds h, h.table.capacity]
    exact room
  · exact h.bits_eq bounds

variable (reserved : 1 ≤ g.reservedSectors.toNat)
include reserved

theorem layout_finished : Layout.bytes g s (slots.map Slot.file) =
    .ok (finishedBytes g s slots b) := by
  have records := records_tile bounds h.plan.fits h.plan.tile
  have boot : Bytes.padded (g.reservedSectors.toNat * g.bytesPerSector.toNat)
      (Bytes.toList (BootSector.encode (.ofSettings s) g)) = bootRegion g s := by
    have offset : g.tableOffset 0 = g.reservedSectors.toNat * g.bytesPerSector.toNat := by
      rw [Geometry.tableOffset, Nat.zero_mul]
      rfl
    rw [bootRegion, offset, Bytes.padded, Bytes.toList_length, BootSector.encode_size]
    rfl
  have root : Bytes.padded g.rootSize ((slots.map Slot.record).flatMap Record.encode) =
      rootRegion g slots := by
    rw [rootRegion, Bytes.padded, Record.length_flatMap_encode, List.length_map]
  have front := length_bootRegion (s := s) bounds reserved
  have written := h.plan.flatMap_data_end
  have table := g.rootOffset_eq
  have data := g.dataOffset_eq
  rw [Layout.bytes]
  dsimp only
  rw [Outcome.bind_ok records, boot, root, contents_fits bounds h.plan.fits]
  change Except.ok (Bytes.padded g.imageSize (bootRegion g s ++ (List.replicate g.tableCount.toNat
    (Bytes.padded g.tableSize (AllocationTable.packing
      (Layout.entries g 0xf8 (slots.map Slot.file))))).flatten ++ rootRegion g slots ++ _)) = _
  rw [← table_packed bounds h]
  change Except.ok (Bytes.padded g.imageSize (bootRegion g s ++
    tableRegion b.table.bytes g.tableCount.toNat ++ rootRegion g slots ++ _)) = _
  have length : (bootRegion g s ++ tableRegion b.table.bytes g.tableCount.toNat ++
      rootRegion g slots ++ slots.flatMap (Slot.data g)).length =
      g.clusterOffset b.allocator.next := by
    simp only [List.length_append, front, length_tableRegion, h.table.size,
      h.plan.length_rootRegion bounds]
    omega
  rw [Bytes.padded, length, finishedBytes, dataRegion]
  simp only [List.append_assoc]

end Finish

/-- The image of the files of a run that succeeds is their layout, byte for byte. -/
theorem addAll_laidOut (g : Geometry) (s : Settings) (valid : g.validate = .ok ())
    (reserved : 1 ≤ g.reservedSectors.toNat) :
    ∃ first, start g s = .ok first ∧ ∀ files b, addAll files first = (.ok (), b) →
      ∃ image, b.finish = .ok image ∧
        Layout.bytes g s files = .ok (Bytes.toList image.bytes) := by
  have bounds := Geometry.bounds_of_validate valid
  obtain ⟨first, run, fresh⟩ := start_holds s valid
  refine ⟨first, run, fun files b added => ?_⟩
  obtain ⟨slots, rfl, h⟩ := addAll_holds bounds files fresh added
  rw [List.nil_append] at h
  obtain ⟨image, finished, _, bytes⟩ := finish_eq_ok bounds h reserved
  exact ⟨image, finished, by rw [bytes, layout_finished bounds h reserved]⟩

theorem floppy_laidOut : ∃ first b image, start Geometry.floppy {} = .ok first ∧
    addAll [letter] first = (.ok (), b) ∧ b.finish = .ok image ∧
    Layout.bytes Geometry.floppy {} [letter] = .ok (Bytes.toList image.bytes) := by
  obtain ⟨first, run, laidOut⟩ := addAll_laidOut Geometry.floppy {} rfl (by decide)
  obtain ⟨same, _, b, again, added, _, _⟩ := floppy_takes_letter
  cases run.symm.trans again
  obtain ⟨image, finished, bytes⟩ := laidOut [letter] b added
  exact ⟨first, b, image, run, added, finished, bytes⟩

end Builder

end BootDisk
