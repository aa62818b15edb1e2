import BootDisk.Failure

set_option autoImplicit false

/-!
# Disk geometry

Seven numbers fix the layout: boot sector and other reserved sectors, the copies of the
allocation table, the root directory, and the clusters of the data region, in this order. Every
derived number is defined here, so that the regions agree.

The derived numbers are exact naturals. `Checked` holds those that need a sector size or a cluster
size, with a fault where it is zero, and the capacity of a table, which is computed in 32 bits.
-/
namespace BootDisk

structure Geometry where
  bytesPerSector : UInt16
  totalSectors : UInt16
  sectorsPerCluster : UInt8
  reservedSectors : UInt16
  tableCount : UInt8
  rootEntries : UInt16
  sectorsPerTable : UInt16
deriving DecidableEq, Repr

inductive GeometryDefect where
  | zeroField
  | smallSector
  | noDataRegion
  | manyClusters
  | smallTable
deriving DecidableEq, Repr

namespace Geometry

def floppy : Geometry where
  bytesPerSector := 512
  totalSectors := 2880
  sectorsPerCluster := 1
  reservedSectors := 1
  tableCount := 2
  rootEntries := 224
  sectorsPerTable := 9

def bootSectorSize : Nat := 512
def recordSize : Nat := 32
def firstCluster : Nat := 2
def clusterLimit : Nat := 4084

def rootSectors (g : Geometry) : Nat :=
  (g.rootEntries.toNat * recordSize + g.bytesPerSector.toNat - 1) / g.bytesPerSector.toNat

def tableStart (g : Geometry) : Nat := g.reservedSectors.toNat

def rootStart (g : Geometry) : Nat :=
  g.tableStart + g.tableCount.toNat * g.sectorsPerTable.toNat

def dataStart (g : Geometry) : Nat := g.rootStart + g.rootSectors

def clusterSize (g : Geometry) : Nat := g.sectorsPerCluster.toNat * g.bytesPerSector.toNat

def tableSize (g : Geometry) : Nat := g.sectorsPerTable.toNat * g.bytesPerSector.toNat

def rootSize (g : Geometry) : Nat := g.rootSectors * g.bytesPerSector.toNat

def imageSize (g : Geometry) : Nat := g.totalSectors.toNat * g.bytesPerSector.toNat

def dataClusters (g : Geometry) : Nat :=
  (g.totalSectors.toNat - g.dataStart) / g.sectorsPerCluster.toNat

/-- The last cluster number; numbering starts at two. -/
def maxCluster (g : Geometry) : Nat := g.dataClusters + firstCluster - 1

def tableCapacity (g : Geometry) : Nat := g.tableSize * 2 / 3

def tableOffset (g : Geometry) (copy : Nat) : Nat :=
  (g.tableStart + copy * g.sectorsPerTable.toNat) * g.bytesPerSector.toNat

def rootOffset (g : Geometry) : Nat := g.rootStart * g.bytesPerSector.toNat

def dataOffset (g : Geometry) : Nat := g.dataStart * g.bytesPerSector.toNat

def clusterOffset (g : Geometry) (cluster : Nat) : Nat :=
  g.dataOffset + (cluster - firstCluster) * g.clusterSize

def withSectors {α : Type} (g : Geometry) (value : α) : Outcome α :=
  if g.bytesPerSector = 0 then fault .zeroDivisor else pure value

def withClusters {α : Type} (g : Geometry) (value : α) : Outcome α :=
  if g.sectorsPerCluster = 0 then fault .zeroDivisor else g.withSectors value

namespace Checked

def rootSectors (g : Geometry) : Outcome Nat := g.withSectors g.rootSectors
def dataStart (g : Geometry) : Outcome Nat := g.withSectors g.dataStart
def rootSize (g : Geometry) : Outcome Nat := g.withSectors g.rootSize
def dataOffset (g : Geometry) : Outcome Nat := g.withSectors g.dataOffset
def dataClusters (g : Geometry) : Outcome Nat := g.withClusters g.dataClusters
def maxCluster (g : Geometry) : Outcome Nat := g.withClusters g.maxCluster

def clusterOffset (g : Geometry) (cluster : Nat) : Outcome Nat :=
  if cluster < firstCluster then fault .belowZero else g.withSectors (g.clusterOffset cluster)

def tableCapacity (g : Geometry) : Outcome Nat :=
  if 0x100000000 ≤ g.tableSize * 2 then fault .overflow else pure g.tableCapacity

end Checked

/-- The first defect of the layout, in a fixed order, before the table is compared with it. -/
def layoutDefect? (g : Geometry) : Option GeometryDefect :=
  if g.bytesPerSector = 0 ∨ g.sectorsPerCluster = 0 ∨ g.tableCount = 0 ∨ g.rootEntries = 0 ∨
      g.sectorsPerTable = 0 then some .zeroField
  else if g.bytesPerSector.toNat < bootSectorSize then some .smallSector
  else if g.totalSectors.toNat ≤ g.dataStart then some .noDataRegion
  else if clusterLimit < g.dataClusters then some .manyClusters
  else none

def fieldList (g : Geometry) : String :=
  "Fat12Geometry \x7b " ++
    s!"bytes_per_sector: {g.bytesPerSector}, total_sectors: {g.totalSectors}, " ++
    s!"sectors_per_cluster: {g.sectorsPerCluster}, reserved_sectors: {g.reservedSectors}, " ++
    s!"num_fats: {g.tableCount}, root_entries: {g.rootEntries}, " ++
    s!"sectors_per_fat: {g.sectorsPerTable}" ++ " \x7d"

end Geometry

def GeometryDefect.describe (g : Geometry) : GeometryDefect → String
  | zeroField => s!"zero-sized field in {g.fieldList}"
  | smallSector => s!"{g.bytesPerSector} bytes per sector cannot hold a boot sector"
  | noDataRegion =>
    s!"metadata regions ({g.dataStart} sectors) leave no data region in {g.totalSectors} sectors"
  | manyClusters =>
    s!"{g.dataClusters} data clusters exceed the FAT12 limit of {Geometry.clusterLimit}"
  | smallTable =>
    s!"cluster {g.maxCluster} has no entry in a {g.sectorsPerTable} sector FAT " ++
      s!"({g.tableCapacity} entries)"

namespace Geometry

/-- The layout is consistent, and every data cluster has an entry in a table whose capacity can be
computed. -/
def Valid (g : Geometry) : Prop :=
  g.layoutDefect? = none ∧ g.tableSize * 2 < 0x100000000 ∧ g.maxCluster < g.tableCapacity

instance (g : Geometry) : Decidable g.Valid := inferInstanceAs (Decidable (_ ∧ _))

def refuse {α : Type} (g : Geometry) (d : GeometryDefect) : Outcome α :=
  fail (.invalidGeometry (d.describe g))

def validate (g : Geometry) : Outcome Unit :=
  match g.layoutDefect? with
  | some d => g.refuse d
  | none => do
    if (← Checked.tableCapacity g) ≤ g.maxCluster then g.refuse .smallTable

theorem validate_eq_ok_iff (g : Geometry) : g.validate = .ok () ↔ g.Valid := by
  unfold validate Valid Checked.tableCapacity
  cases g.layoutDefect? with
  | some d => exact ⟨fun h => (nomatch h), fun h => (nomatch h.1)⟩
  | none =>
    by_cases h : 0x100000000 ≤ g.tableSize * 2
    · rw [if_pos h]
      exact ⟨fun e => (nomatch e), fun e => absurd e.2.1 (Nat.not_lt.2 h)⟩
    · rw [if_neg h]
      change (if g.tableCapacity ≤ g.maxCluster then g.refuse .smallTable else pure ()) = _ ↔ _
      by_cases hc : g.tableCapacity ≤ g.maxCluster
      · rw [if_pos hc]
        exact ⟨fun e => (nomatch e), fun e => absurd e.2.2 (Nat.not_lt.2 hc)⟩
      · rw [if_neg hc]
        exact ⟨fun _ => ⟨rfl, Nat.lt_of_not_le h, Nat.lt_of_not_le hc⟩, fun _ => rfl⟩

end Geometry

end BootDisk
