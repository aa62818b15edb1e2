import BootDisk.Bytes
import BootDisk.Failure
import BootDisk.Geometry

set_option autoImplicit false

namespace BootDisk

structure Partition where
  startSector : UInt32
  sectorCount : UInt32
deriving DecidableEq, Repr

namespace Partition

def startOffset : Nat := 0x1c6
def countOffset : Nat := 0x1ca

def checkSize (size : Nat) : Outcome Unit :=
  if size < Geometry.bootSectorSize then fail (.bootLoaderTooSmall size) else pure ()

def field (value : UInt32) : ByteArray := Bytes.ofList (LittleEndian.encode 4 value.toNat)

def patch (p : Partition) : Step ByteArray Unit := do
  checkSize (← get).size
  set (← orFault .outOfBounds (Bytes.splice? (← get) startOffset (field p.startSector)))
  set (← orFault .outOfBounds (Bytes.splice? (← get) countOffset (field p.sectorCount)))

def read (loader : ByteArray) : Outcome Partition := do
  checkSize loader.size
  let start ← orFault .outOfBounds (LittleEndian.field? loader startOffset 4)
  let count ← orFault .outOfBounds (LittleEndian.field? loader countOffset 4)
  return ⟨UInt32.ofNat start, UInt32.ofNat count⟩

end Partition

end BootDisk
