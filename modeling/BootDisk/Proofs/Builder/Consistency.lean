import BootDisk.Proofs.Builder.Admission

set_option autoImplicit false

/-!
# The parts of a builder agree

The image, the table, the directory, the allocator and the list of placements are changed by
separate steps. After any run of attempts, whether they succeeded or failed, they tell the same
story about the files that were placed.
-/
namespace BootDisk.Builder

/-- How one placed file appears in the parts of a builder. -/
structure Stored (g : Geometry) (b : Builder) (f : SourceFile) (p : Placement) (r : Record) :
    Prop where
  made : Record.make f.name f.ext r.firstCluster r.size = .ok r
  start : r.firstCluster.toNat = p.extent.start
  size : r.size.toNat = f.size
  nonempty : 0 < p.extent.count
  enough : f.size ≤ p.extent.count * g.clusterSize
  linked : ∀ c, p.extent.start ≤ c → c < p.extent.start + p.extent.count →
    b.table.entry c = if c = p.extent.last then 0xfff else c + 1
  bytes : ∀ k, k < p.extent.count * g.clusterSize →
    Bytes.byte? b.image (g.clusterOffset p.extent.start + k) =
      some ((Bytes.toList f.contents).getD k 0)

/-- A builder that started as `first` and has placed `files` in this order. -/
structure Consistent (g : Geometry) (first : Builder) (files : List SourceFile) (b : Builder) :
    Prop where
  placements : b.placed.size = files.length
  records : b.root.records.size = files.length
  stored : ∀ (i : Nat) f p r, files[i]? = some f → b.placed[i]? = some p →
    b.root.records[i]? = some r → Stored g b f p r
  /-- The runs in order hold each cluster below `next` once. -/
  runs : b.placed.toList.flatMap (fun p => p.extent.clusters) =
    List.range' Geometry.firstCluster (b.allocator.next - Geometry.firstCluster)
  lower : Geometry.firstCluster ≤ b.allocator.next
  upper : b.allocator.next ≤ g.maxCluster + 1
  total : b.allocator.used + b.allocator.remaining = g.dataClusters
  capacity : b.table.capacity = g.tableCapacity
  free : ∀ c, b.allocator.next ≤ c → c < b.table.capacity → b.table.entry c = 0
  reserved : b.table.entry 0 = first.table.entry 0 ∧ b.table.entry 1 = first.table.entry 1
  distinct : b.root.records.toList.Pairwise fun r t => ¬ (r.name = t.name ∧ r.ext = t.ext)
  listed : Record.allIn b.root.bytes = b.root.records.toList
  length : b.image.size = first.image.size
  zeros : ∀ i, g.clusterOffset b.allocator.next ≤ i → i < b.image.size →
    Bytes.byte? b.image i = some 0

section Parts
variable {g : Geometry} {s : Settings} {slots : List Slot} {b : Builder} (bounds : g.Bounds)
  (h : Holds g s slots b)
include bounds h

theorem Holds.byte_data {t : Slot} (ht : t ∈ slots) {k : Nat}
    (inside : k < t.count g * g.clusterSize) :
    Bytes.byte? b.image (g.clusterOffset t.start + k) =
      some ((Bytes.toList t.file.contents).getD k 0) := by
  obtain ⟨left, right, bytes, offset⟩ := h.plan.dataRegion_split (length_header bounds s) ht
  have length := (h.plan.fits t ht).length_data
  rw [Bytes.byte?_eq, h.image, bytes, ← offset, List.append_assoc,
    List.getElem?_append_right (by omega), Nat.add_sub_cancel_left,
    List.getElem?_append_left (by omega), Slot.data, List.getD_eq_getElem?_getD]
  by_cases own : k < (Bytes.toList t.file.contents).length
  · rw [List.getElem?_append_left own, List.getElem?_eq_getElem own, Option.getD_some]
  · rw [List.getElem?_append_right (by omega), List.getElem?_replicate, if_pos,
      List.getElem?_eq_none (by omega), Option.getD_none]
    rw [Bytes.toList_length] at own ⊢
    change _ < _ - t.file.contents.size
    omega

theorem Holds.byte_zero {i : Nat} (lower : g.clusterOffset b.allocator.next ≤ i)
    (upper : i < b.image.size) : Bytes.byte? b.image i = some 0 := by
  have written := h.plan.flatMap_data_end
  have front := length_header bounds s
  rw [h.image_size bounds] at upper
  rw [Bytes.byte?_eq, h.image, dataRegion, ← List.append_assoc,
    List.getElem?_append_right (by rw [List.length_append]; omega), List.getElem?_replicate, if_pos]
  rw [List.length_append]
  omega

theorem Holds.stored {t : Slot} (ht : t ∈ slots) :
    Stored g b t.file (t.placement g) t.record where
  made := Record.make_with (h.plan.fits t ht).made _ _
  start := h.plan.toNat_firstCluster bounds ht
  size := h.plan.toNat_size bounds ht
  nonempty := (h.plan.fits t ht).count_pos
  enough := (h.plan.fits t ht).enough
  linked := by
    intro c first last
    change t.start ≤ c at first
    change c < t.start + t.count g at last
    change b.table.entry c = if c = t.start + t.count g - 1 then 0xfff else c + 1
    rw [h.table.runs t ht c first last, AllocationTable.linkedEntry]
    congr 1
    apply propext
    omega
  bytes := fun _ inside => h.byte_data bounds ht inside

theorem Holds.consistent {first : Builder} (fresh : Holds g s [] first) :
    Consistent g first (slots.map Slot.file) b where
  placements := by rw [← Array.length_toList, h.placed, List.length_map, List.length_map]
  records := by rw [← Array.length_toList, h.root.records, List.length_map, List.length_map]
  stored := by
    intro i f p r file placement record
    rw [← Array.getElem?_toList, h.placed] at placement
    rw [← Array.getElem?_toList, h.root.records] at record
    obtain ⟨t, ht, rfl, rfl, rfl⟩ := exists_slot file placement record
    exact h.stored bounds ht
  runs := by
    rw [h.placed, List.flatMap_map, ← h.plan.tile.clusters, List.flatMap_map]
    rfl
  lower := h.plan.first_le
  upper := h.plan.within
  total := by
    have lower := h.plan.first_le
    have upper := h.plan.within
    rw [Allocator.used, Allocator.remaining, h.maxCluster]
    rw [Geometry.maxCluster_eq] at *
    unfold Geometry.firstCluster at *
    omega
  capacity := h.table.capacity
  free := fun c outside _ => h.table.free c outside
  reserved := ⟨h.table.media.trans fresh.table.media.symm, h.table.ones.trans fresh.table.ones.symm⟩
  distinct := by
    rw [h.root.records, List.pairwise_map]
    refine h.plan.distinct.imp ?_
    intro t u different
    rw [← Record.sameName_iff, different]
    decide
  listed := by rw [h.listed, h.root.records]
  length := by rw [h.image_size bounds, fresh.image_size bounds]
  zeros := fun _ lower upper => h.byte_zero bounds lower upper

end Parts

/-- A fresh builder for a valid geometry stays consistent over every run of attempts. -/
theorem addEach_consistent (g : Geometry) (s : Settings) (valid : g.validate = .ok ()) :
    ∃ first, start g s = .ok first ∧ ∀ files : List SourceFile,
      (∀ f ∈ files, f.size < 0x100000000 * g.clusterSize) →
        Consistent g first (addEach files first).1 (addEach files first).2 := by
  have bounds := Geometry.bounds_of_validate valid
  obtain ⟨first, run, fresh⟩ := start_holds s valid
  refine ⟨first, run, fun files short => ?_⟩
  obtain ⟨slots, placed, holds⟩ := addEach_holds bounds files short fresh
  rw [← placed]
  exact holds.consistent bounds fresh

/-- The second copy of a file is refused, and the parts tell of the first. -/
theorem floppy_consistent : ∃ first b p r, start Geometry.floppy {} = .ok first ∧
    addEach [letter, letter] first = ([letter], b) ∧ Consistent Geometry.floppy first [letter] b ∧
    b.placed.toList = [p] ∧ p.extent = ⟨2, 1⟩ ∧ b.root.records.toList = [r] ∧
    Record.make "LETTER" "TXT" r.firstCluster r.size = .ok r ∧ r.firstCluster.toNat = 2 ∧
    r.size.toNat = 2 ∧ b.table.entry 2 = 0xfff := by
  have valid : Geometry.floppy.validate = .ok () := rfl
  obtain ⟨first, run, consistent⟩ := addEach_consistent Geometry.floppy {} valid
  obtain ⟨fresh, again, holds⟩ := start_holds {} valid
  cases run.symm.trans again
  obtain ⟨t, b, file, added, one, refused⟩ := floppy_letters holds
  have each : addEach [letter, letter] first = ([letter], b) := by
    rw [addEach_cons_ok added, addEach_cons_error refused]
    rfl
  have agrees := consistent [letter, letter] (by decide)
  rw [each] at agrees
  have placed : b.placed.toList = [t.placement Geometry.floppy] := one.placed
  have records : b.root.records.toList = [t.record] := one.root.records
  have extent : (t.placement Geometry.floppy).extent = ⟨2, 1⟩ := by
    have start : t.start = 2 := one.plan.tile.1
    rw [Slot.placement, Slot.extent, Slot.count, file, start]
    rfl
  have stored := agrees.stored 0 letter _ t.record rfl
    (by rw [← Array.getElem?_toList, placed]; rfl) (by rw [← Array.getElem?_toList, records]; rfl)
  have start := stored.start
  have linked := stored.linked 2
  rw [extent] at start linked
  exact ⟨first, b, _, t.record, run, each, agrees, placed, extent, records, stored.made, start,
    stored.size, linked (by decide) (by decide)⟩

end BootDisk.Builder
