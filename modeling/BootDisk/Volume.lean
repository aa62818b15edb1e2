import BootDisk.AllocationTable
import BootDisk.BootSector
import BootDisk.Directory.Record
import BootDisk.Extent
import BootDisk.Text.Uppercase

set_option autoImplicit false

/-!
# Reading a volume

A volume is an image whose boot sector records a valid geometry and whose metadata lies in the
image. Its table, records and files are read as they stand; nothing else is checked here.
-/
namespace BootDisk

inductive VolumeDefect where
  | noBootSector (size : Nat)
  | noDataRegion (start size : Nat)
  | shortChain (name : String) (held wanted : Nat)
deriving DecidableEq, Repr

def VolumeDefect.describe : VolumeDefect → String
  | noBootSector size => s!"Image too small for a boot sector: {size} bytes"
  | noDataRegion start size =>
    s!"Data region starts at {Text.hex 1 start} but image is only {size} bytes"
  | shortChain name held wanted => s!"{name}: chain holds {held} bytes, directory says {wanted}"

structure Volume where
  image : ByteArray
  geometry : Geometry
  table : AllocationTable

namespace Volume

def refuse {α : Type} (d : VolumeDefect) : Outcome α := fail (.verification d.describe)

def mount (image : ByteArray) : Outcome Volume := do
  if image.size < Geometry.bootSectorSize then refuse (.noBootSector image.size)
  let geometry ← BootSector.geometry (image.extract 0 Geometry.bootSectorSize)
  let start ← Geometry.Checked.dataOffset geometry
  if image.size < start then refuse (.noDataRegion start image.size)
  let table ← orFault .outOfBounds
    (Bytes.slice? image (geometry.tableOffset 0) geometry.tableSize)
  return ⟨image, geometry, ⟨table⟩⟩

def bootSector (v : Volume) : ByteArray := v.image.extract 0 Geometry.bootSectorSize

def tableCopy (v : Volume) (copy : Nat) : Outcome ByteArray :=
  orFault .outOfBounds (Bytes.slice? v.image (v.geometry.tableOffset copy) v.geometry.tableSize)

def records (v : Volume) : Outcome (List Record) := do
  let size ← Geometry.Checked.rootSize v.geometry
  let region ← orFault .outOfBounds (Bytes.slice? v.image v.geometry.rootOffset size)
  return Record.allIn region

/-- The first record with this short name, letters in either case. -/
def find (v : Volume) (name : String) : Outcome (Option Record) := do
  return (← v.records).find? fun r => r.shortName == Text.asciiUpper name

def contents (v : Volume) (r : Record) : Outcome ByteArray := do
  let clusters := v.table.chain r.firstCluster.toNat
  let held := clusters.length * v.geometry.clusterSize
  if held < r.size.toNat then refuse (.shortChain r.shortName held r.size.toNat)
  Chain.read v.image v.geometry clusters r.size.toNat

end Volume

end BootDisk
