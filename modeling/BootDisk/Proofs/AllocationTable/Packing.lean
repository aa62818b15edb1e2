import BootDisk.Proofs.AllocationTable.Entries

set_option autoImplicit false

/-!
# Packed entries

A table is the packing of its entries: two values of twelve bits in three bytes. The bits at every
place determine the bytes, so a table whose bits are those of a list of values is their packing,
with zeros behind it.
-/
namespace BootDisk

namespace Bytes

def padded (n : Nat) (l : List UInt8) : List UInt8 := l ++ List.replicate (n - l.length) 0

theorem length_padded {n : Nat} {l : List UInt8} (h : l.length ≤ n) : (padded n l).length = n := by
  rw [padded, List.length_append, List.length_replicate, Nat.add_sub_cancel' h]

theorem getD_padded (n : Nat) (l : List UInt8) (i : Nat) : (padded n l).getD i 0 = l.getD i 0 := by
  rw [padded, List.getD_eq_getElem?_getD, List.getD_eq_getElem?_getD]
  by_cases inside : i < l.length
  · rw [List.getElem?_append_left inside]
  · rw [List.getElem?_append_right (by omega), List.getElem?_replicate,
      List.getElem?_eq_none (by omega)]
    split <;> rfl

theorem ext_getD {l m : List UInt8} (length : l.length = m.length)
    (same : ∀ i, l.getD i 0 = m.getD i 0) : l = m := by
  apply List.ext_getElem length
  intro i left right
  have here := same i
  rw [List.getD_eq_getElem?_getD, List.getD_eq_getElem?_getD, List.getElem?_eq_getElem left,
    List.getElem?_eq_getElem right] at here
  exact here

end Bytes

namespace AllocationTable

/-- Values of twelve bits, two in three bytes. The last one of an odd number takes two bytes. -/
def packing : List Nat → List UInt8
  | [] => []
  | [a] => [UInt8.ofNat (a % 256), UInt8.ofNat (a / 256 % 16)]
  | a :: b :: rest =>
    UInt8.ofNat (a % 256) :: UInt8.ofNat (a / 256 % 16 + b % 16 * 16) ::
      UInt8.ofNat (b / 16 % 256) :: packing rest

def packedByte (value : Nat → Nat) (i : Nat) : UInt8 :=
  if i % 3 = 0 then UInt8.ofNat (value (i / 3 * 2) % 256)
  else if i % 3 = 1 then
    UInt8.ofNat (value (i / 3 * 2) / 256 % 16 + value (i / 3 * 2 + 1) % 16 * 16)
  else UInt8.ofNat (value (i / 3 * 2 + 1) / 16 % 256)

theorem packedByte_add_three (value : Nat → Nat) (i : Nat) :
    packedByte value (i + 3) = packedByte (fun n => value (n + 2)) i := by
  have third : (i + 3) / 3 * 2 = i / 3 * 2 + 2 := by omega
  rw [packedByte, packedByte, Nat.add_mod_right, third]

theorem packing_getD (l : List Nat) (i : Nat) :
    (packing l).getD i 0 = packedByte (fun n => l.getD n 0) i := by
  induction l using packing.induct generalizing i with
  | case1 =>
    simp [packing, packedByte]
  | case2 a =>
    match i with
    | 0 => rfl
    | 1 => simp [packing, packedByte]
    | 2 => simp [packing, packedByte]
    | i + 3 =>
      rw [packedByte_add_three]
      simp [packing, packedByte]
  | case3 a b rest ih =>
    match i with
    | 0 => rfl
    | 1 => rfl
    | 2 => rfl
    | i + 3 =>
      rw [packedByte_add_three]
      exact ih i

theorem length_packing (l : List Nat) : (packing l).length = (l.length * 3 + 1) / 2 := by
  induction l using packing.induct with
  | case1 => rfl
  | case2 a => rw [packing, List.length_singleton, List.length_cons, List.length_singleton]
  | case3 a b rest ih =>
    simp only [packing, List.length_cons, ih]
    omega

theorem byteAt_eq (t : AllocationTable) (k : Nat) :
    (t.byteAt (3 * k)).toNat = t.bits (2 * k) % 256 ∧
      (t.byteAt (3 * k + 1)).toNat = t.bits (2 * k) / 256 % 16 + t.bits (2 * k + 1) % 16 * 16 ∧
      (t.byteAt (3 * k + 2)).toNat = t.bits (2 * k + 1) / 16 % 256 := by
  have first : position (2 * k) = 3 * k := by unfold position; omega
  have second : position (2 * k + 1) = 3 * k + 1 := by unfold position; omega
  have low := (t.byteAt (3 * k)).toNat_lt
  have middle := (t.byteAt (3 * k + 1)).toNat_lt
  have high := (t.byteAt (3 * k + 2)).toNat_lt
  have third : 3 * k + 1 + 1 = 3 * k + 2 := rfl
  rw [bits, bits, unpack, unpack, if_pos (by omega), if_neg (by omega), first, second, third]
  omega

theorem byteAt_eq_packedByte (t : AllocationTable) (i : Nat) :
    t.byteAt i = packedByte t.bits i := by
  obtain ⟨low, middle, high⟩ := t.byteAt_eq (i / 3)
  have small := (t.byteAt (3 * (i / 3) + 1)).toNat_lt
  rw [← UInt8.toNat_inj, packedByte, Nat.mul_comm (i / 3) 2]
  obtain here | here | here : i % 3 = 0 ∨ i % 3 = 1 ∨ i % 3 = 2 := by omega
  · have place : 3 * (i / 3) = i := by omega
    rw [place] at low
    rw [if_pos here, UInt8.toNat_ofNat', low]
    omega
  · have place : 3 * (i / 3) + 1 = i := by omega
    rw [place] at middle small
    rw [if_neg (by omega), if_pos here, UInt8.toNat_ofNat', ← middle]
    omega
  · have place : 3 * (i / 3) + 2 = i := by omega
    rw [place] at high
    rw [if_neg (by omega), if_neg (by omega), UInt8.toNat_ofNat', high]
    omega

theorem toList_of_bits {t : AllocationTable} {values : List Nat}
    (fit : values.length ≤ t.capacity) (same : ∀ n, t.bits n = values.getD n 0) :
    Bytes.toList t.bytes = Bytes.padded t.bytes.size (packing values) := by
  have room : (packing values).length ≤ t.bytes.size := by
    have most := t.capacity_le
    rw [length_packing]
    omega
  apply Bytes.ext_getD
  · rw [Bytes.toList_length, Bytes.length_padded room]
  · intro i
    have bits : t.bits = fun n => values.getD n 0 := funext same
    rw [Bytes.getD_padded, packing_getD, ← bits]
    exact t.byteAt_eq_packedByte i

end AllocationTable

end BootDisk
