import BootDisk.Directory.Record

set_option autoImplicit false

namespace BootDisk

structure RootDirectory where
  bytes : ByteArray
  records : Array Record
  capacity : UInt16

namespace RootDirectory

def blank (g : Geometry) : Outcome RootDirectory := do
  return ⟨Bytes.zeros (← Geometry.Checked.rootSize g), #[], g.rootEntries⟩

def length (d : RootDirectory) : Nat := d.records.size

def isEmpty (d : RootDirectory) : Bool := d.records.isEmpty

def isFull (d : RootDirectory) : Bool := d.capacity.toNat ≤ d.length

def contains (d : RootDirectory) (r : Record) : Bool := d.records.any fun s => s.sameName r

def check (d : RootDirectory) (r : Record) : Outcome Unit := do
  if d.isFull then fail (.directoryFull r.shortName d.capacity.toNat)
  if d.contains r then fail (.duplicateName r.shortName)

def push (r : Record) : Step RootDirectory Unit := do
  let d ← get
  d.check r
  let bytes ← orFault .outOfBounds
    (Bytes.splice? d.bytes (d.length * Geometry.recordSize) r.toBytes)
  set { d with bytes := bytes, records := d.records.push r }

end RootDirectory

end BootDisk
