set_option autoImplicit false

/-!
# Byte buffers and fixed-width fields

Slices and splices of a buffer are partial: they exist exactly when the addressed range lies
inside the buffer. A number of fixed width is stored least significant byte first.
-/
namespace BootDisk

namespace Bytes

def zeros (n : Nat) : ByteArray := ⟨Array.replicate n 0⟩

def ofList (l : List UInt8) : ByteArray := ⟨l.toArray⟩

def toList (b : ByteArray) : List UInt8 := b.data.toList

def byte? (b : ByteArray) (i : Nat) : Option UInt8 :=
  if h : i < b.size then some b[i] else none

def slice? (b : ByteArray) (start len : Nat) : Option ByteArray :=
  if start + len ≤ b.size then some (b.extract start (start + len)) else none

/-- The buffer with `new` written over the bytes from `start` on. -/
def splice? (b : ByteArray) (start : Nat) (new : ByteArray) : Option ByteArray :=
  if start + new.size ≤ b.size then
    some (b.extract 0 start ++ new ++ b.extract (start + new.size) b.size)
  else none

/-- The buffer with `new` written over it from `start` on; it grows when it is too short, and a gap
is filled with zeros. -/
def writeAt (b : ByteArray) (start : Nat) (new : ByteArray) : ByteArray :=
  b.extract 0 start ++ zeros (start - b.size) ++ new ++ b.extract (start + new.size) b.size

theorem size_zeros (n : Nat) : (zeros n).size = n := by
  simp [zeros, ByteArray.size]

theorem size_ofList (l : List UInt8) : (ofList l).size = l.length := by
  simp [ofList, ByteArray.size]

theorem size_set (b : ByteArray) (i : Nat) (x : UInt8) (h : i < b.size) :
    (b.set i x h).size = b.size := by
  rw [← ByteArray.size_data, ByteArray.data_set, Array.size_set, ByteArray.size_data]

theorem slice?_size {b s : ByteArray} {start len : Nat} (h : slice? b start len = some s) :
    s.size = len := by
  unfold slice? at h
  split at h
  · cases h
    rw [ByteArray.size_extract]
    omega
  · cases h

theorem splice?_size {b new r : ByteArray} {start : Nat} (h : splice? b start new = some r) :
    r.size = b.size := by
  unfold splice? at h
  split at h
  · cases h
    simp only [ByteArray.size_append, ByteArray.size_extract]
    omega
  · cases h

end Bytes

namespace LittleEndian

def encode : Nat → Nat → List UInt8
  | 0, _ => []
  | w + 1, n => UInt8.ofNat (n % 256) :: encode w (n / 256)

def decode : List UInt8 → Nat
  | [] => 0
  | b :: bs => b.toNat + 256 * decode bs

/-- The number in the `w` bytes of `b` from `start` on. -/
def field? (b : ByteArray) (start w : Nat) : Option Nat :=
  (Bytes.slice? b start w).map fun s => decode (Bytes.toList s)

theorem encode_length (w n : Nat) : (encode w n).length = w := by
  induction w generalizing n with
  | zero => rfl
  | succ w ih => simp [encode, ih]

theorem decode_encode (w n : Nat) : decode (encode w n) = n % (1 <<< (8 * w)) := by
  induction w generalizing n with
  | zero => exact (Nat.mod_one n).symm
  | succ w ih =>
    have h : (UInt8.ofNat (n % 256)).toNat = n % 256 := by
      rw [UInt8.toNat_ofNat']
      omega
    have s : 1 <<< (8 * (w + 1)) = 256 * 1 <<< (8 * w) := by
      rw [Nat.shiftLeft_eq, Nat.shiftLeft_eq, Nat.mul_add, Nat.pow_add]
      omega
    rw [encode, decode, ih, h, s, Nat.mod_mul]

end LittleEndian

end BootDisk
