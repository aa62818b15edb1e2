set_option autoImplicit false

namespace BootDisk

structure Settings where
  label : String := "VCORE"
  serial : UInt32 := 0x12345678
  /-- First sector of the partition, as recorded in the boot loader. -/
  partitionStart : UInt32 := 63
  verify : Bool := false
deriving DecidableEq, Repr

namespace Settings

/-- A character that is not printable ASCII is stored as an underscore. -/
def labelByte (c : Char) : UInt8 :=
  if 0x20 ≤ c.toNat ∧ c.toNat ≤ 0x7e then UInt8.ofNat c.toUpper.toNat else 0x5f

def labelBytes (s : Settings) : Vector UInt8 11 :=
  Vector.ofFn fun i => match s.label.toList[i.val]? with
    | some c => labelByte c
    | none => 0x20

end Settings

end BootDisk
