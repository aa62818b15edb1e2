import BootDisk.AllocationTable
import BootDisk.Allocator
import BootDisk.BootSector
import BootDisk.Directory.Root
import BootDisk.SourceFile

set_option autoImplicit false

/-!
# Building an image

A builder holds the image with its boot sector and file data, and beside it the allocation table,
the root directory, the allocator and the files placed so far. `finish` copies the table and the
directory into the image. A file is added in several steps on these parts; the checks that can fail
for a valid geometry come before the first of them.
-/
namespace BootDisk

/-- Where a file ended up in the image. -/
structure Placement where
  name : String
  extent : Extent
  size : UInt32
  offset : Nat
deriving DecidableEq, Repr

structure DiskImage where
  bytes : ByteArray
  geometry : Geometry
  files : List Placement
  clustersUsed : Nat
  clustersFree : Nat

def DiskImage.totalSectors (i : DiskImage) : Nat := i.bytes.size / i.geometry.bytesPerSector.toNat

structure Builder where
  geometry : Geometry
  image : ByteArray
  table : AllocationTable
  root : RootDirectory
  allocator : Allocator
  placed : Array Placement

namespace Builder

def blank (g : Geometry) (s : Settings) : Outcome Builder := do
  let p := BootSector.Parameters.ofSettings s
  let image ← orFault .outOfBounds
    (Bytes.splice? (Bytes.zeros g.imageSize) 0 (BootSector.encode p g))
  return {
    geometry := g
    image := image
    table := ← AllocationTable.blank g p.media
    root := ← RootDirectory.blank g
    allocator := ← Allocator.ofGeometry g
    placed := #[] }

def start (g : Geometry) (s : Settings) : Outcome Builder := do
  g.validate
  blank g s

def onImage {α : Type} (step : Step ByteArray α) : Step Builder α :=
  step.within Builder.image fun b image => { b with image }

def onTable {α : Type} (step : Step AllocationTable α) : Step Builder α :=
  step.within Builder.table fun b table => { b with table }

def onRoot {α : Type} (step : Step RootDirectory α) : Step Builder α :=
  step.within Builder.root fun b root => { b with root }

def onAllocator {α : Type} (step : Step Allocator α) : Step Builder α :=
  step.within Builder.allocator fun b allocator => { b with allocator }

/-- Takes clusters for a file, copies its bytes and appends its record. -/
def add (f : SourceFile) : Step Builder Placement := do
  let b ← get
  let draft ← Record.make f.name f.ext 0 0
  b.root.check draft
  let extent ← onAllocator (Allocator.allocate f.display f.size)
  let offset ← Geometry.Checked.clusterOffset b.geometry extent.start
  let (_, stop) ← extent.range b.geometry
  if b.image.size < stop then
    fail (.outOfSpace f.display offset f.size)
  onImage (extent.copy b.geometry f.contents)
  onTable (AllocationTable.link extent.start extent.count)
  let size := UInt32.ofNat f.size
  let record := { draft with firstCluster := UInt16.ofNat extent.start, size }
  onRoot (RootDirectory.push record)
  let placement : Placement := { name := record.shortName, extent, size, offset }
  modify fun b => { b with placed := b.placed.push placement }
  return placement

def addAll (files : List SourceFile) : Step Builder Unit :=
  files.forM fun f => discard (add f)

/-- Writes the table over the copies from number `copy` on. -/
def writeTables (g : Geometry) (table : ByteArray) : Nat → Nat → ByteArray → Outcome ByteArray
  | 0, _, image => pure image
  | left + 1, copy, image => do
    let image ← orFault .outOfBounds (Bytes.splice? image (g.tableOffset copy) table)
    writeTables g table left (copy + 1) image

def finish (b : Builder) : Outcome DiskImage := do
  let image ← writeTables b.geometry b.table.bytes b.geometry.tableCount.toNat 0 b.image
  let image ← orFault .outOfBounds (Bytes.splice? image b.geometry.rootOffset b.root.bytes)
  return {
    bytes := image
    geometry := b.geometry
    files := b.placed.toList
    clustersUsed := b.allocator.used
    clustersFree := b.allocator.remaining }

end Builder

def DiskImage.build (files : List SourceFile) (s : Settings) : Outcome DiskImage := do
  let b ← Builder.blank Geometry.floppy s
  let (result, b) := Builder.addAll files b
  result
  b.finish

end BootDisk
