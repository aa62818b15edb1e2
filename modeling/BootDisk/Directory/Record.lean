import BootDisk.Bytes
import BootDisk.Failure
import BootDisk.Geometry
import BootDisk.Text.CharClass
import BootDisk.Text.Utf8

set_option autoImplicit false

/-!
# Directory records

32 bytes for one file: a name of eight bytes and an extension of three, padded with spaces, the
attributes, the first cluster and the size. A record whose first byte is zero is an unused slot.
-/
namespace BootDisk

structure Record where
  name : Vector UInt8 8
  ext : Vector UInt8 3
  attributes : UInt8
  firstCluster : UInt16
  size : UInt32
deriving DecidableEq, Repr

namespace Record

def archive : UInt8 := 0x20
def space : UInt8 := 0x20

def upperByte (b : UInt8) : UInt8 := if 0x61 ≤ b ∧ b ≤ 0x7a then b - 0x20 else b

/-- The bytes allowed in a name: upper-case letters, digits and some punctuation. -/
def nameBytes : List UInt8 :=
  "ABCDEFGHIJKLMNOPQRSTUVWXYZ0123456789!#$%&'()-@^_\x7b\x7d~".toUTF8.data.toList ++ [0x60]

def isNameByte (b : UInt8) : Bool := nameBytes.contains b

def field (n : Nat) (part : String) : Outcome (Vector UInt8 n) :=
  let bytes := (part.toUTF8.data.toList.take n).map upperByte
  if bytes.all isNameByte then pure (Vector.ofFn fun i => bytes[i.val]?.getD space)
  else fail (.invalidName part)

def make (name ext : String) (firstCluster : UInt16) (size : UInt32) : Outcome Record := do
  let nameField ← field 8 name
  if nameField[0] = space then fail (.invalidName name)
  return ⟨nameField, ← field 3 ext, archive, firstCluster, size⟩

def encode (r : Record) : List UInt8 :=
  r.name.toList ++ r.ext.toList ++ [r.attributes] ++ List.replicate 14 0 ++
  LittleEndian.encode 2 r.firstCluster.toNat ++ LittleEndian.encode 4 r.size.toNat

def toBytes (r : Record) : ByteArray := Bytes.ofList r.encode

def decode (byte : Fin 32 → UInt8) : Record where
  name := Vector.ofFn fun i => byte ⟨i.val, by omega⟩
  ext := Vector.ofFn fun i => byte ⟨8 + i.val, by omega⟩
  attributes := byte 11
  firstCluster := UInt16.ofNat (LittleEndian.decode [byte 26, byte 27])
  size := UInt32.ofNat (LittleEndian.decode [byte 28, byte 29, byte 30, byte 31])

/-- The record at the start of a text of bytes; none for fewer than 32 bytes or an unused slot. -/
def ofBytes? (raw : ByteArray) : Option Record :=
  if h : 32 ≤ raw.size then
    let byte (i : Fin 32) : UInt8 := raw[i.val]
    if byte 0 = 0 then none else some (decode byte)
  else none

theorem encode_length (r : Record) : r.encode.length = 32 := by
  simp [encode, LittleEndian.encode_length]

def halfText (bytes : List UInt8) : List Char := Text.trimEnd (Text.Utf8.decode bytes)

/-- The name shown to users, such as `KERNEL.ELF`. -/
def shortName (r : Record) : String :=
  let base := halfText r.name.toList
  let ext := halfText r.ext.toList
  String.ofList (if ext.isEmpty then base else base ++ '.' :: ext)

def sameName (r s : Record) : Bool := r.name == s.name && r.ext == s.ext

/-- The records in the next slots from byte `start` on, up to the first unused one, put in reverse
before those in `found`. -/
def collect (region : ByteArray) : Nat → Nat → List Record → List Record
  | 0, _, found => found
  | slots + 1, start, found =>
    match ofBytes? (region.extract start (start + Geometry.recordSize)) with
    | none => found
    | some r => collect region slots (start + Geometry.recordSize) (r :: found)

def allIn (region : ByteArray) : List Record :=
  (collect region (region.size / Geometry.recordSize) 0 []).reverse

end Record

end BootDisk
