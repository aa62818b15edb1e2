import BootDisk.Proofs.BootSector
import BootDisk.Proofs.Builder.Runs
import BootDisk.Volume

set_option autoImplicit false

namespace BootDisk.Builder

def bootRegion (g : Geometry) (s : Settings) : List UInt8 :=
  Bytes.toList (BootSector.encode (.ofSettings s) g) ++
    List.replicate (g.tableOffset 0 - Geometry.bootSectorSize) 0

def tableRegion (table : ByteArray) (copies : Nat) : List UInt8 :=
  (List.replicate copies (Bytes.toList table)).flatten

def finishedBytes (g : Geometry) (s : Settings) (slots : List Slot) (b : Builder) : List UInt8 :=
  bootRegion g s ++ tableRegion b.table.bytes g.tableCount.toNat ++ rootRegion g slots ++
    dataRegion g slots b.allocator.next

theorem tableRegion_succ (table : ByteArray) (copies : Nat) :
    tableRegion table (copies + 1) = tableRegion table copies ++ Bytes.toList table := by
  rw [tableRegion, List.replicate_succ', List.flatten_append, List.flatten_singleton, tableRegion]

theorem length_tableRegion (table : ByteArray) (copies : Nat) :
    (tableRegion table copies).length = copies * table.size := by
  induction copies with
  | zero => simp [tableRegion]
  | succ copies ih =>
    rw [tableRegion_succ, List.length_append, ih, Bytes.toList_length, Nat.succ_mul]

theorem tableRegion_split (table : ByteArray) {copy copies : Nat} (h : copy < copies) :
    tableRegion table copies = tableRegion table copy ++ Bytes.toList table ++
      tableRegion table (copies - (copy + 1)) := by
  have sum : copies = copy + 1 + (copies - (copy + 1)) := by omega
  rw [← tableRegion_succ, tableRegion, tableRegion, tableRegion, ← List.flatten_append,
    List.replicate_append_replicate, ← sum]

theorem writeTables_eq_ok {g : Geometry} {table : ByteArray} (size : table.size = g.tableSize)
    {front tail : List UInt8} (offset : front.length = g.tableOffset 0) (left copy : Nat)
    {image : ByteArray} (bytes : Bytes.toList image = front ++ tableRegion table copy ++
      List.replicate (left * g.tableSize) 0 ++ tail) :
    writeTables g table left copy image =
      .ok (Bytes.ofList (front ++ tableRegion table (copy + left) ++ tail)) := by
  -- The induction is on the copies still to be written; `copy` of them are in place.
  induction left generalizing copy image with
  | zero =>
    rw [Nat.zero_mul, List.replicate_zero, List.append_nil] at bytes
    rw [writeTables, Nat.add_zero, ← bytes, Bytes.ofList_toList]
    rfl
  | succ left ih =>
    have split : Bytes.toList image = front ++ tableRegion table copy ++
        List.replicate g.tableSize 0 ++ (List.replicate (left * g.tableSize) 0 ++ tail) := by
      rw [bytes, Nat.succ_mul, Nat.add_comm (left * g.tableSize),
        ← List.replicate_append_replicate]
      simp only [List.append_assoc]
    have spliced : Bytes.splice? image (g.tableOffset copy) table = _ :=
      Bytes.splice?_of_toList split
        (by rw [List.length_append, length_tableRegion, offset, size, g.tableOffset_eq])
        (by rw [List.length_replicate, size])
    rw [writeTables, Outcome.bind_ok (Outcome.orFault_some spliced), ih (copy + 1)]
    · rw [Nat.add_assoc, Nat.add_comm 1]
    · rw [Bytes.toList_ofList, tableRegion_succ]
      simp only [List.append_assoc]

section Finish
variable {g : Geometry} {s : Settings} {slots : List Slot} {b : Builder} (bounds : g.Bounds)
  (h : Holds g s slots b) (reserved : 1 ≤ g.reservedSectors.toNat)
include bounds reserved

theorem length_bootRegion : (bootRegion g s).length = g.tableOffset 0 := by
  have := bounds.bootSector_le_tableOffset reserved
  rw [bootRegion, List.length_append, Bytes.toList_length, BootSector.encode_size,
    List.length_replicate]
  unfold Geometry.bootSectorSize at *
  omega

/-- Before the table and the directory are copied, their regions are zero. -/
theorem header_eq : header g s = bootRegion g s ++
    List.replicate (g.tableCount.toNat * g.tableSize) 0 ++ List.replicate g.rootSize 0 := by
  have room := bounds.bootSector_le_tableOffset reserved
  have zeros : g.dataOffset - Geometry.bootSectorSize = g.tableOffset 0 - Geometry.bootSectorSize +
      (g.tableCount.toNat * g.tableSize + g.rootSize) := by
    rw [g.dataOffset_eq, g.rootOffset_eq]
    omega
  rw [header, zeros, bootRegion, ← List.replicate_append_replicate,
    ← List.replicate_append_replicate]
  simp only [List.append_assoc]

include h

theorem finish_eq_ok : ∃ image, b.finish = .ok image ∧ image.files = slots.map (Slot.placement g) ∧
    Bytes.toList image.bytes = finishedBytes g s slots b := by
  have front := length_bootRegion (s := s) bounds reserved
  have bytes : Bytes.toList b.image = bootRegion g s ++ tableRegion b.table.bytes 0 ++
      List.replicate (g.tableCount.toNat * g.tableSize) 0 ++
      (List.replicate g.rootSize 0 ++ dataRegion g slots b.allocator.next) := by
    rw [h.image, header_eq bounds reserved, show tableRegion b.table.bytes 0 = [] from rfl,
      List.append_nil]
    simp only [List.append_assoc]
  have tables := writeTables_eq_ok h.table.size front g.tableCount.toNat 0 bytes
  rw [Nat.zero_add] at tables
  have split : Bytes.toList (Bytes.ofList (bootRegion g s ++
      tableRegion b.table.bytes g.tableCount.toNat ++
      (List.replicate g.rootSize 0 ++ dataRegion g slots b.allocator.next))) = bootRegion g s ++
      tableRegion b.table.bytes g.tableCount.toNat ++ List.replicate g.rootSize 0 ++
      dataRegion g slots b.allocator.next := by
    rw [Bytes.toList_ofList, List.append_assoc _ (List.replicate g.rootSize 0)]
  have root : Bytes.splice? (Bytes.ofList (bootRegion g s ++
      tableRegion b.table.bytes g.tableCount.toNat ++
      (List.replicate g.rootSize 0 ++ dataRegion g slots b.allocator.next))) g.rootOffset
      b.root.bytes = _ :=
    Bytes.splice?_of_toList split
      (by rw [List.length_append, length_tableRegion, front, h.table.size, g.rootOffset_eq])
      (by rw [← Bytes.toList_length, h.root.bytes, h.plan.length_rootRegion bounds,
        List.length_replicate])
  rw [finish, h.geometry, Outcome.bind_ok tables, Outcome.bind_ok (Outcome.orFault_some root)]
  refine ⟨_, rfl, h.placed, ?_⟩
  rw [Bytes.toList_ofList, h.root.bytes]
  rfl

end Finish

theorem finish_numbers {b : Builder} {image : DiskImage} (h : b.finish = .ok image) :
    image.geometry = b.geometry ∧ image.clustersUsed = b.allocator.used ∧
      image.clustersFree = b.allocator.remaining := by
  obtain ⟨_, _, h⟩ := Outcome.bind_eq_ok_iff.1 h
  obtain ⟨_, _, h⟩ := Outcome.bind_eq_ok_iff.1 h
  cases h
  exact ⟨rfl, rfl, rfl⟩

def build (g : Geometry) (s : Settings) (files : List SourceFile) : Outcome DiskImage := do
  let b ← start g s
  let (result, b) := addAll files b
  result
  b.finish

theorem build_floppy (s : Settings) (files : List SourceFile) :
    build Geometry.floppy s files = DiskImage.build files s := by
  have valid : Geometry.floppy.validate = .ok () := rfl
  rw [build, start, Outcome.bind_ok valid]
  rfl

section Build
variable {g : Geometry} {s : Settings} {files : List SourceFile}

theorem holds_of_build (valid : g.validate = .ok ()) {image : DiskImage}
    (h : build g s files = .ok image) :
    ∃ slots b, slots.map Slot.file = files ∧ Holds g s slots b ∧ b.finish = .ok image := by
  have bounds := Geometry.bounds_of_validate valid
  obtain ⟨first, run, fresh⟩ := start_holds s valid
  rw [build, Outcome.bind_ok run] at h
  generalize added : addAll files first = answer at h
  obtain ⟨result, b⟩ := answer
  cases result with
  | error e => cases h
  | ok _ =>
    obtain ⟨slots, placed, holds⟩ := addAll_holds bounds files fresh added
    exact ⟨slots, b, placed, holds, h⟩

theorem build_of_addAll {first b : Builder} (run : start g s = .ok first)
    (added : addAll files first = (.ok (), b)) : build g s files = b.finish := by
  rw [build, Outcome.bind_ok run, added]
  rfl

end Build

end BootDisk.Builder
