import BootDisk.Bytes
import BootDisk.Geometry
import BootDisk.Settings

set_option autoImplicit false

/-!
# The boot sector

512 bytes: a jump, the geometry and the volume parameters at fixed offsets, zeros, and a closing
signature. The geometry is read back from the first 24 bytes alone.
-/
namespace BootDisk

namespace BootSector

/-- What the sector records beside the geometry. -/
structure Parameters where
  /-- Eight bytes, `MSWIN4.1` unless set. -/
  systemName : Vector UInt8 8 := #v[0x4d, 0x53, 0x57, 0x49, 0x4e, 0x34, 0x2e, 0x31]
  media : UInt8 := 0xf8
  sectorsPerTrack : UInt16 := 32
  headCount : UInt16 := 64
  hiddenSectors : UInt32 := 0
  driveNumber : UInt8 := 0
  serial : UInt32 := ({} : Settings).serial
  label : Vector UInt8 11 := ({} : Settings).labelBytes
deriving DecidableEq, Repr

def Parameters.ofSettings (s : Settings) : Parameters :=
  { serial := s.serial, label := s.labelBytes }

def jump : List UInt8 := [0xeb, 0x3c, 0x90]
def extendedSignature : UInt8 := 0x29
def systemType : List UInt8 := [0x46, 0x41, 0x54, 0x31, 0x32, 0x20, 0x20, 0x20]
def signature : List UInt8 := [0x55, 0xaa]

namespace Offset

def bytesPerSector : Nat := 11
def sectorsPerCluster : Nat := 13
def reservedSectors : Nat := 14
def tableCount : Nat := 16
def rootEntries : Nat := 17
def totalSectors : Nat := 19
def media : Nat := 21
def sectorsPerTable : Nat := 22
def extendedSignature : Nat := 38
def systemType : Nat := 54
def signature : Nat := 510

end Offset

/-- The fields in the order in which they are stored. The sector count fits its 16-bit field, so
the 32-bit one after the hidden sectors stays zero. -/
def fields (p : Parameters) (g : Geometry) : List UInt8 :=
  jump ++ p.systemName.toList ++
  LittleEndian.encode 2 g.bytesPerSector.toNat ++ [g.sectorsPerCluster] ++
  LittleEndian.encode 2 g.reservedSectors.toNat ++ [g.tableCount] ++
  LittleEndian.encode 2 g.rootEntries.toNat ++ LittleEndian.encode 2 g.totalSectors.toNat ++
  [p.media] ++ LittleEndian.encode 2 g.sectorsPerTable.toNat ++
  LittleEndian.encode 2 p.sectorsPerTrack.toNat ++ LittleEndian.encode 2 p.headCount.toNat ++
  LittleEndian.encode 4 p.hiddenSectors.toNat ++ LittleEndian.encode 4 0 ++
  [p.driveNumber, 0, extendedSignature] ++ LittleEndian.encode 4 p.serial.toNat ++
  p.label.toList ++ systemType

def encode (p : Parameters) (g : Geometry) : ByteArray :=
  Bytes.ofList (fields p g ++ List.replicate 448 0 ++ signature)

theorem fields_length (p : Parameters) (g : Geometry) : (fields p g).length = 62 := by
  simp [fields, jump, systemType, LittleEndian.encode_length]

theorem encode_size (p : Parameters) (g : Geometry) : (encode p g).size = 512 := by
  rw [encode, Bytes.size_ofList, List.length_append, List.length_append, fields_length,
    List.length_replicate]
  rfl

def word (sector : ByteArray) (start : Nat) : Outcome UInt16 := do
  return UInt16.ofNat (← orFault .outOfBounds (LittleEndian.field? sector start 2))

def byte (sector : ByteArray) (start : Nat) : Outcome UInt8 :=
  orFault .outOfBounds (Bytes.byte? sector start)

def recorded (sector : ByteArray) : Outcome Geometry := do
  return {
    bytesPerSector := ← word sector Offset.bytesPerSector
    totalSectors := ← word sector Offset.totalSectors
    sectorsPerCluster := ← byte sector Offset.sectorsPerCluster
    reservedSectors := ← word sector Offset.reservedSectors
    tableCount := ← byte sector Offset.tableCount
    rootEntries := ← word sector Offset.rootEntries
    sectorsPerTable := ← word sector Offset.sectorsPerTable }

def geometry (sector : ByteArray) : Outcome Geometry := do
  let g ← recorded sector
  g.validate
  return g

end BootSector

end BootDisk
