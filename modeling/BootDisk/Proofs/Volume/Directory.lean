import BootDisk.Proofs.AllocationTable.Packing
import BootDisk.Proofs.Audit.Completion
import BootDisk.Proofs.Builder.Reading
import BootDisk.Proofs.Directory.Slots

set_option autoImplicit false

/-!
# The records of a volume

The directory of a volume is read in whole sectors. Where the records that it may hold do not fill
their sectors, there are slots behind the last of them, and a volume with all slots in use gives
records from there as well.
-/
namespace BootDisk

/-- How many slots the sectors of the root directory have. -/
def Geometry.rootSlots (g : Geometry) : Nat := g.rootSize / Geometry.recordSize

section Slots
variable {g : Geometry} (sectors : g.bytesPerSector ≠ 0)
include sectors

theorem Geometry.rootEntries_le_rootSlots : g.rootEntries.toNat ≤ g.rootSlots := by
  rw [rootSlots, Nat.le_div_iff_mul_le (by decide)]
  exact records_le_rootSize sectors

theorem Geometry.rootSlots_of_dvd
    (aligned : g.bytesPerSector.toNat ∣ g.rootEntries.toNat * Geometry.recordSize) :
    g.rootSlots = g.rootEntries.toNat := by
  rw [rootSlots, rootSize_of_dvd sectors aligned]
  exact Nat.mul_div_cancel _ (by decide)

end Slots

namespace Volume

/-- The slots of the directory are all in use, and one behind them is too. -/
def Overrun (g : Geometry) (region : ByteArray) : Prop :=
  g.rootEntries.toNat < g.rootSlots ∧
    ∀ i ≤ g.rootEntries.toNat, Record.isUsed (Record.slot region i) = true

/-- What a volume gives as its records, against what its directory may hold. -/
structure Surveyed (v : Volume) (region : ByteArray) (records : List Record) : Prop where
  slice : Bytes.slice? v.image v.geometry.rootOffset v.geometry.rootSize = some region
  listed : v.records = .ok records
  leading : Record.Leading (Record.slots region v.geometry.rootSlots) records
  own : Record.Leading (Record.slots region v.geometry.rootEntries.toNat)
    (records.take v.geometry.rootEntries.toNat)
  exact_iff : Record.Leading (Record.slots region v.geometry.rootEntries.toNat) records ↔
    ¬ Overrun v.geometry region
  longer_iff : v.geometry.rootEntries.toNat < records.length ↔ Overrun v.geometry region
  aligned : v.geometry.bytesPerSector.toNat ∣ v.geometry.rootEntries.toNat * Geometry.recordSize →
    ¬ Overrun v.geometry region

theorem exists_leading {image : ByteArray} {v : Volume} (h : mount image = .ok v) :
    ∃ region records,
      Bytes.slice? v.image v.geometry.rootOffset v.geometry.rootSize = some region ∧
      v.records = .ok records ∧
      Record.Leading (Record.slots region v.geometry.rootSlots) records := by
  obtain ⟨rfl, valid, _, data⟩ := Audit.mounted_of_mount h
  obtain ⟨region, slice, listed⟩ :=
    Audit.records_end (Geometry.bounds_of_validate valid) data
  have leading := Record.leading_allIn region
  rw [Bytes.slice?_size slice] at leading
  exact ⟨region, _, slice, listed, leading⟩

/-- A volume gives the records of its directory and no others, unless they run over its end. -/
theorem records_surveyed {image : ByteArray} {v : Volume} (h : mount image = .ok v) :
    v.image = image ∧ ∃ region records, Surveyed v region records := by
  have mounted := Audit.mounted_of_mount h
  have sectors := (Geometry.bounds_of_validate mounted.valid).bytesPerSector_ne_zero
  have fits := Geometry.rootEntries_le_rootSlots sectors
  obtain ⟨region, records, slice, listed, leading⟩ := exists_leading h
  have longer := leading.lt_length_slots_iff v.geometry.rootEntries.toNat
  refine ⟨mounted.whole, region, records, slice, listed, leading, ?_, ?_, longer, ?_⟩
  · rw [← Record.take_slots region fits]
    exact leading.take _
  · rw [leading.fewer_iff fits, ← Nat.not_lt]
    exact not_congr longer
  · intro aligned overrun
    have more := overrun.1
    rw [Geometry.rootSlots_of_dvd sectors aligned] at more
    exact Nat.lt_irrefl _ more

/-- Four sectors: the boot sector, a table, a directory with these records and one cluster. -/
def fourSectors (g : Geometry) (table : List UInt8) (records : List Record) : ByteArray :=
  Bytes.ofList (Bytes.toList (BootSector.encode (.ofSettings {}) g) ++ Bytes.padded 512 table ++
    Bytes.padded 512 (records.flatMap Record.encode) ++ Bytes.padded 512 [])

/-- A layout with one table, a directory and one cluster, each in a sector of its own. -/
structure FourSectors (g : Geometry) : Prop where
  valid : g.validate = .ok ()
  imageSize : g.imageSize = 2048
  tableOffset : g.tableOffset 0 = 512
  tableSize : g.tableSize = 512
  rootOffset : g.rootOffset = 1024
  rootSize : g.rootSize = 512

theorem fourSectors_mounts {g : Geometry} (layout : FourSectors g) (table : List UInt8)
    (room : table.length ≤ 512) (records : List Record) (few : records.length ≤ 16)
    (used : ∀ r ∈ records, Record.firstByte r.name ≠ 0) : ∃ v,
      mount (fourSectors g table records) = .ok v ∧ v.geometry = g ∧ v.records = .ok records := by
  have bounds := Geometry.bounds_of_validate layout.valid
  let image := fourSectors g table records
  let boot := Bytes.toList (BootSector.encode (.ofSettings {}) g)
  have bootLength : boot.length = 512 := by rw [Bytes.toList_length, BootSector.encode_size]
  have tableLength : (Bytes.padded 512 table).length = 512 := Bytes.length_padded room
  have blank : (Bytes.padded 512 []).length = 512 := Bytes.length_padded (Nat.zero_le _)
  have root : (Bytes.padded 512 (records.flatMap Record.encode)).length = 512 := by
    apply Bytes.length_padded
    rw [Record.length_flatMap_encode]
    exact Nat.mul_le_mul_right 32 few
  have bytes : Bytes.toList image = boot ++ Bytes.padded 512 table ++
      Bytes.padded 512 (records.flatMap Record.encode) ++ Bytes.padded 512 [] :=
    Bytes.toList_ofList _
  have size : image.size = g.imageSize := by
    rw [← Bytes.toList_length, bytes, List.length_append, List.length_append, List.length_append,
      bootLength, tableLength, root, blank, layout.imageSize]
  have front : Bytes.toList image = [] ++ boot ++ (Bytes.padded 512 table ++
      (Bytes.padded 512 (records.flatMap Record.encode) ++ Bytes.padded 512 [])) := by
    rw [bytes, List.append_assoc, List.append_assoc, List.nil_append]
  have sector : Bytes.slice? image 0 Geometry.bootSectorSize = some (Bytes.ofList boot) :=
    Bytes.slice?_of_toList front rfl bootLength.symm
  have copy : Bytes.slice? image (g.tableOffset 0) g.tableSize =
      some (Bytes.ofList (Bytes.padded 512 table)) :=
    Bytes.slice?_of_toList (by rw [bytes, List.append_assoc])
      (layout.tableOffset.trans bootLength.symm) (layout.tableSize.trans tableLength.symm)
  have region : Bytes.slice? image g.rootOffset g.rootSize =
      some (Bytes.ofList (Bytes.padded 512 (records.flatMap Record.encode))) := by
    refine Bytes.slice?_of_toList bytes ?_ (layout.rootSize.trans root.symm)
    rw [List.length_append, bootLength, tableLength, layout.rootOffset]
  rw [Bytes.ofList_toList] at sector
  refine ⟨_, Builder.mount_of_slices {} bounds layout.valid size sector copy, rfl, ?_⟩
  rw [Builder.records_of_slice bounds _ region]
  exact congrArg Except.ok (Record.allIn_of_toList (Bytes.toList_ofList _) used)

def lone : Geometry where
  bytesPerSector := 512
  totalSectors := 4
  sectorsPerCluster := 1
  reservedSectors := 1
  tableCount := 1
  rootEntries := 1
  sectorsPerTable := 1

def loneImage (records : List Record) : ByteArray := fourSectors lone [] records

theorem lone_mounts (records : List Record) (few : records.length ≤ 16)
    (used : ∀ r ∈ records, Record.firstByte r.name ≠ 0) : ∃ v,
      mount (loneImage records) = .ok v ∧ v.geometry = lone ∧ v.records = .ok records :=
  fourSectors_mounts ⟨rfl, rfl, rfl, rfl, rfl, rfl⟩ [] (Nat.zero_le 512) records few used

theorem lone_surveyed : ∃ v region, mount (loneImage [.letter 0x41 2]) = .ok v ∧
    Surveyed v region [.letter 0x41 2] ∧ ¬ Overrun v.geometry region := by
  obtain ⟨v, run, same, listed⟩ := lone_mounts [.letter 0x41 2] (by decide) (by decide)
  obtain ⟨_, region, records, surveyed⟩ := records_surveyed run
  cases surveyed.listed.symm.trans listed
  refine ⟨v, region, run, surveyed, ?_⟩
  rw [← surveyed.longer_iff, same]
  decide

/-- The second record lies in a slot behind the directory, and is read all the same. -/
theorem lone_overrun : ∃ v region, mount (loneImage [.letter 0x41 2, .letter 0x42 2]) = .ok v ∧
    v.geometry.rootEntries = 1 ∧
    Bytes.slice? v.image v.geometry.rootOffset v.geometry.rootSize = some region ∧
    v.records = .ok [.letter 0x41 2, .letter 0x42 2] ∧
    Record.Leading (Record.slots region 1) [.letter 0x41 2] ∧
    ¬ Record.Leading (Record.slots region 1) [.letter 0x41 2, .letter 0x42 2] := by
  obtain ⟨v, run, same, listed⟩ :=
    lone_mounts [.letter 0x41 2, .letter 0x42 2] (by decide) (by decide)
  obtain ⟨region, records, slice, read, leading⟩ := exists_leading run
  cases read.symm.trans listed
  have own := leading.take 1
  rw [same, Record.take_slots region (by decide)] at own
  refine ⟨v, region, run, by rw [same]; rfl, slice, listed, own, fun both => ?_⟩
  cases own.unique both

end Volume

end BootDisk
