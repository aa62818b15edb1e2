import BootDisk.Proofs.BootSector
import BootDisk.Proofs.Builder.Runs
import BootDisk.Proofs.Geometry.Regions

set_option autoImplicit false

/-!
# The regions of a finished image

Finishing writes the copies of the table and the root directory, each in its own region, and no
other byte. So the boot sector survives when the layout keeps the first table away from it, and is
overwritten when no sector is reserved for it.
-/
namespace BootDisk.Builder

/-- `r` is the image with the table written over the copies from `first` up to `stop`. -/
structure TablesWritten (g : Geometry) (table : ByteArray) (first stop : Nat)
    (image r : ByteArray) : Prop where
  size : r.size = image.size
  copies : ∀ copy, first ≤ copy → copy < stop →
    Bytes.slice? r (g.tableOffset copy) g.tableSize = some table
  frame : ∀ start len, start + len ≤ g.tableOffset first ∨ g.tableOffset stop ≤ start →
    Bytes.slice? r start len = Bytes.slice? image start len

theorem writeTables_written {g : Geometry} {table : ByteArray} (size : table.size = g.tableSize)
    (left first : Nat) (image : ByteArray) (room : g.tableOffset (first + left) ≤ image.size) :
    ∃ r, writeTables g table left first image = .ok r ∧
      TablesWritten g table first (first + left) image r := by
  -- The copies that are still to be written lie behind the first one and leave it alone.
  induction left generalizing first image with
  | zero =>
    refine ⟨image, rfl, rfl, ?_, fun _ _ _ => rfl⟩
    intro copy lower upper
    omega
  | succ left ih =>
    have stop : first + 1 + left = first + (left + 1) := by omega
    have own := g.stop_table_le (Nat.lt_add_one first)
    have rest := g.tableOffset_mono (show first + 1 ≤ first + (left + 1) by omega)
    obtain ⟨middle, spliced⟩ : ∃ middle,
        Bytes.splice? image (g.tableOffset first) table = some middle :=
      Bytes.splice?_isSome (by omega)
    have same := Bytes.splice?_size spliced
    obtain ⟨r, run, written⟩ := ih (first + 1) middle (by rw [stop, same]; exact room)
    rw [stop] at written
    refine ⟨r, ?_, written.size.trans same, ?_, ?_⟩
    · rw [writeTables, Outcome.bind_ok (Outcome.orFault_some spliced), run]
    · intro copy lower upper
      by_cases this : copy = first
      · rw [this, written.frame _ _ (.inl own), ← size]
        exact Bytes.slice?_splice?_self spliced
      · exact written.copies copy (by omega) upper
    · intro start len apart
      rw [written.frame _ _ (by omega)]
      exact Bytes.slice?_splice?_apart spliced (by omega)

/-- The image holds what the builder had in store for its regions. -/
structure Finished (g : Geometry) (b : Builder) (image : ByteArray) : Prop where
  size : image.size = g.imageSize
  tables : ∀ copy, copy < g.tableCount.toNat →
    Bytes.slice? image (g.tableOffset copy) g.tableSize = some b.table.bytes
  root : Bytes.slice? image g.rootOffset g.rootSize = some b.root.bytes
  frame : ∀ start len, start + len ≤ g.tableOffset 0 ∨ g.dataOffset ≤ start →
    Bytes.slice? image start len = Bytes.slice? b.image start len

section Frame
variable {g : Geometry} {s : Settings} {b : Builder} (bounds : g.Bounds)
include bounds

theorem Framed.finished (h : Framed g s b) :
    ∃ image, b.finish = .ok image ∧ Finished g b image.bytes := by
  have count := g.tableOffset_count
  have data := g.dataOffset_eq
  have last := bounds.dataOffset_lt_imageSize
  obtain ⟨tables, run, written⟩ := writeTables_written h.table g.tableCount.toNat 0 b.image
    (by rw [Nat.zero_add, count, h.image]; omega)
  rw [Nat.zero_add] at written
  obtain ⟨image, spliced⟩ : ∃ image,
      Bytes.splice? tables g.rootOffset b.root.bytes = some image :=
    Bytes.splice?_isSome (by rw [written.size, h.image, h.root]; omega)
  refine ⟨⟨image, b.geometry, b.placed.toList, b.allocator.used, b.allocator.remaining⟩, ?_, ?_⟩
  · rw [finish, h.geometry, Outcome.bind_ok run, Outcome.bind_ok (Outcome.orFault_some spliced)]
    rfl
  · refine ⟨?_, ?_, ?_, ?_⟩
    · rw [Bytes.splice?_size spliced, written.size, h.image]
    · intro copy inside
      rw [← written.copies copy (Nat.zero_le _) inside]
      exact Bytes.slice?_splice?_apart spliced (.inl (g.stop_table_le_root inside))
    · rw [← h.root]
      exact Bytes.slice?_splice?_self spliced
    · intro start len apart
      have size := h.root
      rw [← written.frame start len (by omega)]
      refine Bytes.slice?_splice?_apart spliced ?_
      have := g.tableOffset_mono (Nat.zero_le g.tableCount.toNat)
      omega

theorem Framed.after_addEach (h : Framed g s b) (files : List SourceFile) :
    Framed g s (addEach files b).2 := by
  refine addEach_keeps (P := fun _ c => Framed g s c) [] (fun f _ _ c held => ?_) h
  have next := held.after_add bounds f
  match run : add f c with
  | (.ok p, d) =>
    rw [run] at next
    exact .inl ⟨p, d, rfl, next⟩
  | (.error e, d) =>
    rw [run] at next
    exact .inr ⟨e, d, rfl, next⟩

/-- The first byte of a table is the media byte, and not that of a jump. -/
theorem Holds.reserved_of_sector {slots : List Slot} (h : Holds g s slots b) {image : ByteArray}
    (finished : Finished g b image) (sector : Bytes.slice? image 0 Geometry.bootSectorSize =
      some (BootSector.encode (.ofSettings s) g)) : 1 ≤ g.reservedSectors.toNat := by
  apply Nat.pos_of_ne_zero
  intro none
  have start := g.tableOffset_of_unreserved none
  have room := bounds.sector_le_tableSize
  unfold Geometry.bootSectorSize at room sector
  have media := (h.table.reserved_bytes (by omega)).1
  have table := finished.tables 0 bounds.tables
  rw [start] at table
  rw [Bytes.byte?_slice? table (by omega), ← Bytes.byte?_slice? sector (by omega)] at media
  have jump := (BootSector.byte_jump (.ofSettings s) g).1
  rw [BootSector.byte, media] at jump
  cases jump

end Frame

/-- Every region of a valid layout lies in the image. The regions are apart, and every finished
image starts with the boot sector, exactly when a sector is reserved. -/
theorem separated_iff_reserved (g : Geometry) (s : Settings) (valid : g.validate = .ok ()) :
    (∀ r : Geometry.Region, r.InLayout g → r.stop g ≤ g.imageSize) ∧
    ((∀ r t : Geometry.Region, r.InLayout g → t.InLayout g → r ≠ t → r.Apart g t) ↔
      1 ≤ g.reservedSectors.toNat) ∧
    ∃ first, start g s = .ok first ∧
      ((∀ files : List SourceFile, ∃ image, (addEach files first).2.finish = .ok image ∧
        Bytes.slice? image.bytes 0 Geometry.bootSectorSize =
          some (BootSector.encode (.ofSettings s) g)) ↔ 1 ≤ g.reservedSectors.toNat) := by
  have bounds := Geometry.bounds_of_validate valid
  obtain ⟨first, run, fresh⟩ := start_holds s valid
  have framed := fresh.framed bounds
  refine ⟨fun r => bounds.stop_le_imageSize, ⟨?_, ?_⟩, first, run, ?_, ?_⟩
  · intro apart
    exact bounds.reserved_of_apart (apart _ (.table 0) trivial bounds.tables (by simp))
  · intro reserved r t
    exact bounds.regions_apart reserved
  · intro kept
    obtain ⟨image, done, sector⟩ := kept []
    obtain ⟨same, again, finished⟩ := framed.finished bounds
    cases done.symm.trans again
    exact fresh.reserved_of_sector bounds finished sector
  · intro reserved files
    have later := framed.after_addEach bounds files
    obtain ⟨image, done, finished⟩ := later.finished bounds
    refine ⟨image, done, ?_⟩
    rw [finished.frame _ _ (.inl _), later.sector]
    rw [Nat.zero_add]
    exact bounds.bootSector_le_tableOffset reserved

theorem floppy_separated :
    Geometry.Region.Apart Geometry.floppy (.table 1) (.cluster 2848) ∧
    ∃ first image, start Geometry.floppy {} = .ok first ∧
      (addEach [letter, letter] first).2.finish = .ok image ∧
      Bytes.slice? image.bytes 0 512 = some (BootSector.encode {} Geometry.floppy) := by
  obtain ⟨_, apart, first, run, kept⟩ := separated_iff_reserved Geometry.floppy {} rfl
  obtain ⟨image, done, sector⟩ := kept.2 (by decide) [letter, letter]
  have table : (Geometry.Region.table 1).InLayout Geometry.floppy := by
    show 1 < 2
    decide
  have last : (Geometry.Region.cluster 2848).InLayout Geometry.floppy := ⟨by decide, by decide⟩
  exact ⟨apart.2 (by decide) _ _ table last (by simp), first, image, run, done, sector⟩

def unreserved : Geometry := { Geometry.floppy with reservedSectors := 0 }

theorem unreserved_overwritten : unreserved.validate = .ok () ∧
    ¬ Geometry.Region.Apart unreserved .bootSector (.table 0) ∧
    ∃ first image, start unreserved {} = .ok first ∧ first.finish = .ok image ∧
      Bytes.slice? image.bytes 0 512 ≠ some (BootSector.encode {} unreserved) := by
  have valid : unreserved.validate = .ok () := rfl
  have bounds := Geometry.bounds_of_validate valid
  obtain ⟨first, run, fresh⟩ := start_holds {} valid
  obtain ⟨image, done, finished⟩ := (fresh.framed bounds).finished bounds
  refine ⟨valid, ?_, first, image, run, done, ?_⟩
  · intro apart
    exact absurd (bounds.reserved_of_apart apart) (by decide)
  · intro sector
    exact absurd (fresh.reserved_of_sector bounds finished sector) (by decide)

end BootDisk.Builder
