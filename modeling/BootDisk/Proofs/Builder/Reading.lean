import BootDisk.Proofs.Builder.Finish
import BootDisk.Proofs.Extents.Chains

set_option autoImplicit false

namespace BootDisk.Builder

section Slices
variable {g : Geometry} (s : Settings) (bounds : g.Bounds) {image : ByteArray}
include bounds

theorem mount_of_slices (valid : g.validate = .ok ()) (size : image.size = g.imageSize)
    (sector : Bytes.slice? image 0 Geometry.bootSectorSize =
      some (BootSector.encode (.ofSettings s) g)) {table : ByteArray}
    (copy : Bytes.slice? image (g.tableOffset 0) g.tableSize = some table) :
    Volume.mount image = .ok ⟨image, g, ⟨table⟩⟩ := by
  have data := bounds.dataOffset_lt_imageSize
  have boot := bounds.bootSector_le_dataOffset
  have front := Bytes.extract_of_slice? sector
  rw [Nat.zero_add] at front
  have recorded : BootSector.geometry (image.extract 0 Geometry.bootSectorSize) = .ok g := by
    rw [front]
    exact BootSector.geometry_of_fields (BootSector.fields_isPrefix_encode _ _) valid
  rw [Volume.mount, if_neg (by omega)]
  change BootSector.geometry _ >>= _ = _
  rw [Outcome.bind_ok recorded, Outcome.bind_ok bounds.checked_dataOffset, if_neg (by omega)]
  change orFault .outOfBounds (Bytes.slice? image (g.tableOffset 0) g.tableSize) >>= _ = _
  rw [Outcome.bind_ok (Outcome.orFault_some copy)]
  rfl

theorem records_of_slice (table : AllocationTable) {region : ByteArray}
    (root : Bytes.slice? image g.rootOffset g.rootSize = some region) :
    (⟨image, g, table⟩ : Volume).records = .ok (Record.allIn region) := by
  rw [Volume.records, Outcome.bind_ok bounds.checked_rootSize,
    Outcome.bind_ok (Outcome.orFault_some root)]
  rfl

end Slices

section Read
variable {g : Geometry} {s : Settings} {slots : List Slot} {b : Builder} (bounds : g.Bounds)
  (h : Holds g s slots b) (reserved : 1 ≤ g.reservedSectors.toNat) {image : ByteArray}
  (bytes : Bytes.toList image = finishedBytes g s slots b)

include bounds h in
/-- In a table that agrees on the rest of a run, the walk goes to the end of the run. -/
theorem path_of_run {table : AllocationTable} (capacity : table.capacity = g.tableCapacity)
    {t : Slot} (ht : t ∈ slots) {c fuel : Nat} (first : t.start ≤ c)
    (last : c < t.start + t.count g) (enough : t.start + t.count g ≤ c + fuel)
    (same : ∀ m, c ≤ m → m < t.start + t.count g → table.entry m = b.table.entry m) :
    table.path fuel c = List.range' c (t.start + t.count g - c) := by
  have slot := h.plan.slot_bounds ht
  have small := h.plan.next_small bounds
  have room := h.plan.next_le_capacity bounds
  apply AllocationTable.path_linked (by omega) last (by omega) (by omega) enough
  intro m lower upper
  rw [same m lower upper]
  exact h.table.runs t ht m (by omega) upper

include bounds h in
theorem chain_of_run {table : AllocationTable} (capacity : table.capacity = g.tableCapacity)
    {t : Slot} (ht : t ∈ slots)
    (same : ∀ m, t.start ≤ m → m < t.start + t.count g → table.entry m = b.table.entry m) :
    table.chain t.record.firstCluster.toNat = (t.extent g).clusters := by
  have slot := h.plan.slot_bounds ht
  have room := h.plan.next_le_capacity bounds
  rw [h.plan.toNat_firstCluster bounds ht, AllocationTable.chain_eq,
    path_of_run bounds h capacity ht (Nat.le_refl _) (by omega) (by omega) same,
    Nat.add_sub_cancel_left]
  rfl

include bounds h in
theorem chain_record {t : Slot} (ht : t ∈ slots) :
    b.table.chain t.record.firstCluster.toNat = (t.extent g).clusters :=
  chain_of_run bounds h h.table.capacity ht fun _ _ _ => rfl

include bytes

theorem sector_finished : Bytes.slice? image 0 Geometry.bootSectorSize =
    some (BootSector.encode (.ofSettings s) g) := by
  have split : Bytes.toList image = [] ++ Bytes.toList (BootSector.encode (.ofSettings s) g) ++
      (List.replicate (g.tableOffset 0 - Geometry.bootSectorSize) 0 ++
        tableRegion b.table.bytes g.tableCount.toNat ++ rootRegion g slots ++
        dataRegion g slots b.allocator.next) := by
    rw [bytes, finishedBytes, bootRegion]
    simp only [List.append_assoc, List.nil_append]
  have sector : Bytes.slice? image 0 Geometry.bootSectorSize = _ :=
    Bytes.slice?_of_toList split rfl (by rw [Bytes.toList_length, BootSector.encode_size]; rfl)
  rw [sector, Bytes.ofList_toList]

theorem bootSector_finished : image.extract 0 Geometry.bootSectorSize =
    BootSector.encode (.ofSettings s) g := by
  have sector := Bytes.extract_of_slice? (sector_finished bytes)
  rw [Nat.zero_add] at sector
  exact sector

include bounds h reserved

theorem size_finished : image.size = g.imageSize := by
  have front := length_bootRegion (s := s) bounds reserved
  have root := h.plan.length_rootRegion bounds
  have data := h.plan.length_dataRegion bounds
  have := bounds.dataOffset_lt_imageSize
  have tables := length_tableRegion b.table.bytes g.tableCount.toNat
  rw [← Bytes.toList_length, bytes, finishedBytes, List.length_append, List.length_append,
    List.length_append, front, root, data, tables, h.table.size, ← g.rootOffset_eq,
    ← g.dataOffset_eq]
  omega

theorem tableCopy_finished {copy : Nat} (inside : copy < g.tableCount.toNat) :
    Bytes.slice? image (g.tableOffset copy) g.tableSize = some b.table.bytes := by
  have split : Bytes.toList image = bootRegion g s ++ tableRegion b.table.bytes copy ++
      Bytes.toList b.table.bytes ++ (tableRegion b.table.bytes (g.tableCount.toNat - (copy + 1)) ++
        rootRegion g slots ++ dataRegion g slots b.allocator.next) := by
    rw [bytes, finishedBytes, tableRegion_split _ inside]
    simp only [List.append_assoc]
  rw [Bytes.slice?_of_toList split, Bytes.ofList_toList]
  · rw [List.length_append, length_bootRegion bounds reserved, length_tableRegion, h.table.size,
      g.tableOffset_eq]
  · rw [Bytes.toList_length, h.table.size]

theorem root_finished : Bytes.slice? image g.rootOffset g.rootSize =
    some (Bytes.ofList (rootRegion g slots)) := by
  apply Bytes.slice?_of_toList bytes
  · rw [List.length_append, length_bootRegion bounds reserved, length_tableRegion, h.table.size,
      g.rootOffset_eq]
  · rw [h.plan.length_rootRegion bounds]

theorem cells_finished {t : Slot} (ht : t ∈ slots) :
    (t.extent g).clusters.flatMap (Chain.cell image g) = t.data g := by
  have front : (bootRegion g s ++ tableRegion b.table.bytes g.tableCount.toNat ++
      rootRegion g slots).length = g.dataOffset := by
    rw [List.length_append, List.length_append, length_bootRegion bounds reserved,
      length_tableRegion, h.table.size, h.plan.length_rootRegion bounds, ← g.rootOffset_eq,
      ← g.dataOffset_eq]
  obtain ⟨left, right, split, offset⟩ := h.plan.dataRegion_split front ht
  change (List.range' t.start (t.count g)).flatMap _ = _
  rw [Chain.cells_range' _ (h.plan.slot_bounds ht).1, bytes, finishedBytes, split,
    List.append_assoc, ← offset, List.drop_left, ← (h.plan.fits t ht).length_data, List.take_left]

theorem inside_finished {t : Slot} (ht : t ∈ slots) :
    ∀ c ∈ (t.extent g).clusters, Chain.Inside image g c := by
  intro c hc
  have slot := h.plan.slot_bounds ht
  have within := h.plan.within
  obtain ⟨first, last⟩ := List.mem_range'_1.1 hc
  change t.start ≤ c at first
  change c < t.start + t.count g at last
  exact Chain.inside_of_le bounds (by omega) (by omega) (size_finished bounds h reserved bytes)

theorem mount_finished (valid : g.validate = .ok ()) :
    Volume.mount image = .ok ⟨image, g, b.table⟩ :=
  mount_of_slices s bounds valid (size_finished bounds h reserved bytes) (sector_finished bytes)
    (tableCopy_finished bounds h reserved bytes bounds.tables)

theorem records_finished : (⟨image, g, b.table⟩ : Volume).records =
    .ok (slots.map Slot.record) := by
  have listed := h.listed
  rw [← Bytes.ofList_toList b.root.bytes, h.root.bytes] at listed
  rw [records_of_slice bounds b.table (root_finished bounds h reserved bytes), listed]

theorem contents_finished {t : Slot} (ht : t ∈ slots) :
    (⟨image, g, b.table⟩ : Volume).contents t.record = .ok t.file.contents := by
  have chain := chain_record bounds h ht
  have size := h.plan.toNat_size bounds ht
  have enough := (h.plan.fits t ht).enough
  have length : (t.extent g).clusters.length = t.count g := List.length_range'
  have small : t.file.size < Chain.bufferLimit :=
    Nat.lt_trans (h.plan.size_lt bounds ht) (by decide)
  obtain ⟨r, read, data, _⟩ := Chain.read_eq_ok bounds
    (inside_finished bounds h reserved bytes ht) small (by rw [length]; exact enough)
  have same : r = t.file.contents := by
    rw [← Bytes.toList_inj, data, cells_finished bounds h reserved bytes ht, Slot.data]
    exact List.take_left' (Bytes.toList_length _)
  rw [Volume.contents]
  dsimp only
  rw [chain, size, length, if_neg (by omega)]
  change Chain.read image g _ _ = _
  rw [read, same]

end Read

/-- How one file is read back from a volume that lists it as `r` and holds it at `p`. -/
structure Recovered (v : Volume) (f : SourceFile) (p : Placement) (r : Record) : Prop where
  made : Record.make f.name f.ext r.firstCluster r.size = .ok r
  start : r.firstCluster.toNat = p.extent.start
  size : r.size.toNat = f.size
  chain : v.table.chain r.firstCluster.toNat = p.extent.clusters
  contents : v.contents r = .ok f.contents

theorem Holds.recovered {g : Geometry} {s : Settings} {slots : List Slot} {b : Builder}
    (bounds : g.Bounds) (h : Holds g s slots b) (reserved : 1 ≤ g.reservedSectors.toNat)
    {image : ByteArray} (bytes : Bytes.toList image = finishedBytes g s slots b) {t : Slot}
    (ht : t ∈ slots) : Recovered ⟨image, g, b.table⟩ t.file (t.placement g) t.record where
  made := Record.make_with (h.plan.fits t ht).made _ _
  start := h.plan.toNat_firstCluster bounds ht
  size := h.plan.toNat_size bounds ht
  chain := chain_record bounds h ht
  contents := contents_finished bounds h reserved bytes ht

/-- Whatever files are added to a fresh builder, the finished image gives all of them back. -/
theorem addAll_recovered (g : Geometry) (s : Settings) (valid : g.validate = .ok ())
    (reserved : 1 ≤ g.reservedSectors.toNat) :
    ∃ first, start g s = .ok first ∧ ∀ files b, addAll files first = (.ok (), b) →
      ∃ image v records, b.finish = .ok image ∧ Volume.mount image.bytes = .ok v ∧
        v.geometry = g ∧ v.records = .ok records ∧ image.files.length = files.length ∧
        records.length = files.length ∧
        ∀ (i : Nat) f p r, files[i]? = some f → image.files[i]? = some p → records[i]? = some r →
          Recovered v f p r := by
  have bounds := Geometry.bounds_of_validate valid
  obtain ⟨first, run, fresh⟩ := start_holds s valid
  refine ⟨first, run, fun files b added => ?_⟩
  obtain ⟨slots, rfl, h⟩ := addAll_holds bounds files fresh added
  rw [List.nil_append] at h
  obtain ⟨image, finished, placements, bytes⟩ := finish_eq_ok bounds h reserved
  refine ⟨image, ⟨image.bytes, g, b.table⟩, slots.map Slot.record, finished,
    mount_finished bounds h reserved bytes valid, rfl, records_finished bounds h reserved bytes,
    by rw [placements, List.length_map, List.length_map],
    by rw [List.length_map, List.length_map], ?_⟩
  intro i f p r file placement record
  rw [placements] at placement
  obtain ⟨t, ht, rfl, rfl, rfl⟩ := exists_slot file placement record
  exact h.recovered bounds reserved bytes ht

theorem floppy_recovered : ∃ first b image v r, start Geometry.floppy {} = .ok first ∧
    addAll [letter] first = (.ok (), b) ∧ b.finish = .ok image ∧
    Volume.mount image.bytes = .ok v ∧ v.records = .ok [r] ∧
    v.contents r = .ok letter.contents := by
  obtain ⟨first, run, recovered⟩ := addAll_recovered Geometry.floppy {} rfl (by decide)
  obtain ⟨same, _, b, again, added, _, _⟩ := floppy_takes_letter
  cases run.symm.trans again
  obtain ⟨image, v, records, finished, mounted, _, listed, placements, length, each⟩ :=
    recovered [letter] b added
  obtain ⟨r, rfl⟩ := List.length_eq_one_iff.1 length
  obtain ⟨p, single⟩ := List.length_eq_one_iff.1 placements
  have file := each 0 letter p r rfl (by rw [single]; rfl) rfl
  exact ⟨first, b, image, v, r, run, added, finished, mounted, listed, file.contents⟩

end BootDisk.Builder
