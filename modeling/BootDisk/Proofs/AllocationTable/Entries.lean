import BootDisk.AllocationTable
import BootDisk.Proofs.Bytes
import BootDisk.Proofs.Geometry.Bounds
import BootDisk.Proofs.Step

set_option autoImplicit false

namespace BootDisk.AllocationTable

theorem capacity_eq_tableCapacity {g : Geometry} {t : AllocationTable}
    (size : t.bytes.size = g.tableSize) : t.capacity = g.tableCapacity := by
  rw [capacity, size]
  exact Nat.mod_eq_of_lt g.tableCapacity_lt

def byteAt (t : AllocationTable) (i : Nat) : UInt8 := (Bytes.toList t.bytes).getD i 0

theorem getElem_eq_byteAt (t : AllocationTable) (i : Nat) (h : i < t.bytes.size) :
    t.bytes[i] = t.byteAt i := by
  rw [byteAt, List.getD_eq_getElem?_getD, Bytes.getElem?_toList t.bytes i h]
  rfl

/-- The twelve bits at the place of entry `n`. In the left-over bytes of a table they belong to no
entry, and behind its end they are zero. -/
def bits (t : AllocationTable) (n : Nat) : Nat :=
  unpack n (t.byteAt (position n)) (t.byteAt (position n + 1))

theorem entry_eq (t : AllocationTable) (n : Nat) :
    t.entry n = if position n + 1 < t.bytes.size then t.bits n else free := by
  unfold entry
  split
  · rw [getElem_eq_byteAt, getElem_eq_byteAt, bits]
  · rfl

theorem entry_eq_bits {t : AllocationTable} {n : Nat} (h : n < t.capacity) :
    t.entry n = t.bits n := by
  rw [entry_eq, if_pos (position_lt_of_lt_capacity h)]

theorem entry_congr {t u : AllocationTable} (size : u.bytes.size = t.bytes.size) {n : Nat}
    (same : u.bits n = t.bits n) : u.entry n = t.entry n := by
  rw [entry_eq, entry_eq, size, same]

theorem entry_reserved (t : AllocationTable) (room : 3 ≤ t.bytes.size) :
    t.entry 0 = (t.byteAt 0).toNat + (t.byteAt 1).toNat % 16 * 256 ∧
      t.entry 1 = (t.byteAt 1).toNat / 16 + (t.byteAt 2).toNat * 16 := by
  rw [entry_eq, entry_eq, if_pos (show position 0 + 1 < _ by unfold position; omega),
    if_pos (show position 1 + 1 < _ by unfold position; omega)]
  exact ⟨rfl, rfl⟩

theorem byte?_eq_byteAt (t : AllocationTable) {i : Nat} (h : i < t.bytes.size) :
    Bytes.byte? t.bytes i = some (t.byteAt i) := by
  rw [Bytes.byte?, dif_pos h, t.getElem_eq_byteAt]

theorem entry_of_reserved_bytes {t : AllocationTable} {media : UInt8}
    (h₀ : Bytes.byte? t.bytes 0 = some media) (h₁ : Bytes.byte? t.bytes 1 = some 0xff)
    (h₂ : Bytes.byte? t.bytes 2 = some 0xff) :
    t.entry 0 = media.toNat + 0xf00 ∧ t.entry 1 = 0xfff := by
  have room : 3 ≤ t.bytes.size := by
    apply Nat.succ_le_of_lt
    apply Decidable.byContradiction
    intro short
    rw [Bytes.byte?_of_le (by omega)] at h₂
    cases h₂
  obtain ⟨first, second⟩ := t.entry_reserved room
  rw [t.byte?_eq_byteAt (by omega), Option.some_inj] at h₀ h₁ h₂
  rw [first, second, h₀, h₁, h₂]
  exact ⟨rfl, rfl⟩

def packed (t : AllocationTable) (n value : Nat) : UInt8 × UInt8 :=
  pack n value (t.byteAt (position n)) (t.byteAt (position n + 1))

theorem size_write (t : AllocationTable) (n value : Nat) (h : n < t.capacity) :
    (t.write n value h).bytes.size = t.bytes.size := by
  simp only [write, Bytes.size_set]

theorem capacity_write (t : AllocationTable) (n value : Nat) (h : n < t.capacity) :
    (t.write n value h).capacity = t.capacity := by
  rw [capacity, capacity, size_write]

theorem byteAt_write (t : AllocationTable) (n value : Nat) (h : n < t.capacity) (i : Nat) :
    (t.write n value h).byteAt i =
      if i = position n + 1 then (t.packed n value).2
      else if i = position n then (t.packed n value).1 else t.byteAt i := by
  have bound := position_lt_of_lt_capacity h
  have size := Bytes.toList_length t.bytes
  simp only [write, byteAt, Bytes.toList_set, List.getD_eq_getElem?_getD, List.getElem?_set,
    List.length_set, size, getElem_eq_byteAt, packed]
  by_cases second : position n + 1 = i
  · rw [if_pos second, if_pos second.symm, if_pos (by omega), Option.getD_some]
  · rw [if_neg second, if_neg (Ne.symm second)]
    by_cases first : position n = i
    · rw [if_pos first, if_pos first.symm, if_pos (by omega), Option.getD_some]
    · rw [if_neg first, if_neg (Ne.symm first)]

theorem unpack_pack (n value : Nat) (low high : UInt8) :
    unpack n (pack n value low high).1 (pack n value low high).2 = value % 4096 := by
  unfold unpack pack
  have l := low.toNat_lt
  have r := high.toNat_lt
  split <;> simp only [UInt8.toNat_ofNat'] <;> omega

theorem unpack_pack_right (n value : Nat) (low high last : UInt8) (even : n % 2 = 0) :
    unpack (n + 1) (pack n value low high).2 last = unpack (n + 1) high last := by
  have r := high.toNat_lt
  simp only [unpack, pack, if_pos even, if_neg (show (n + 1) % 2 ≠ 0 by omega), UInt8.toNat_ofNat']
  omega

theorem unpack_pack_left (n value : Nat) (low high first : UInt8) (even : n % 2 = 0) :
    unpack n first (pack (n + 1) value low high).1 = unpack n first low := by
  have l := low.toNat_lt
  simp only [unpack, pack, if_pos even, if_neg (show (n + 1) % 2 ≠ 0 by omega), UInt8.toNat_ofNat']
  omega

theorem bits_write (t : AllocationTable) (n value : Nat) (h : n < t.capacity) (m : Nat) :
    (t.write n value h).bits m = if m = n then value % 4096 else t.bits m := by
  unfold bits
  by_cases same : m = n
  · subst m
    rw [if_pos rfl, byteAt_write, byteAt_write, if_neg (by omega), if_pos rfl, if_pos rfl]
    exact unpack_pack _ _ _ _
  · rw [if_neg same]
    -- Entries share a byte only within a pair, and a pair starts at an even number.
    by_cases right : m = n + 1 ∧ n % 2 = 0
    · obtain ⟨rfl, even⟩ := right
      have next : position (n + 1) = position n + 1 := by unfold position; omega
      rw [byteAt_write, byteAt_write, next, if_pos rfl, if_neg (by omega), if_neg (by omega)]
      exact unpack_pack_right _ _ _ _ _ even
    · by_cases left : n = m + 1 ∧ m % 2 = 0
      · obtain ⟨rfl, even⟩ := left
        have next : position (m + 1) = position m + 1 := by unfold position; omega
        rw [byteAt_write, byteAt_write, next, if_neg (by omega), if_neg (by omega),
          if_neg (by omega), if_pos rfl, packed, next]
        exact unpack_pack_left _ _ _ _ _ even
      · have apart : position m + 1 < position n ∨ position n + 1 < position m := by
          unfold position
          omega
        rw [byteAt_write, byteAt_write, if_neg (by omega), if_neg (by omega), if_neg (by omega),
          if_neg (by omega)]

theorem entry_write (t : AllocationTable) (n value : Nat) (h : n < t.capacity) (m : Nat) :
    (t.write n value h).entry m = if m = n then value % 4096 else t.entry m := by
  have bits := bits_write t n value h m
  by_cases same : m = n
  · rw [if_pos same] at bits ⊢
    rw [entry_eq_bits (by rw [capacity_write, same]; exact h), bits]
  · rw [if_neg same] at bits ⊢
    exact entry_congr (size_write t n value h) bits

theorem set_eq_ok (t : AllocationTable) (n value : Nat) (h : n < t.capacity) :
    set n value t = (.ok (), t.write n value h) := by
  rw [set, dif_pos h]

def blankBytes (media : UInt8) (n : Nat) : List UInt8 :=
  [media, 0xff, 0xff] ++ List.replicate (n - 3) 0

theorem blank_eq_ok {g : Geometry} (media : UInt8) (room : 3 ≤ g.tableSize) :
    blank g media = .ok ⟨Bytes.ofList (blankBytes media g.tableSize)⟩ := by
  have split : Bytes.toList (Bytes.zeros g.tableSize) =
      [] ++ List.replicate 3 0 ++ List.replicate (g.tableSize - 3) 0 := by
    rw [Bytes.toList_zeros, List.nil_append, List.replicate_append_replicate]
    congr 1
    omega
  have splice : Bytes.splice? (Bytes.zeros g.tableSize) 0 (Bytes.ofList [media, 0xff, 0xff]) = _ :=
    Bytes.splice?_of_toList split rfl rfl
  rw [blank, Outcome.bind_ok (Outcome.orFault_some splice)]
  rfl

theorem byteAt_blank (media : UInt8) (n i : Nat) (h : 3 ≤ i) :
    (⟨Bytes.ofList (blankBytes media n)⟩ : AllocationTable).byteAt i = 0 := by
  rw [byteAt, Bytes.toList_ofList, blankBytes, List.getD_eq_getElem?_getD,
    List.getElem?_append_right h, List.getElem?_replicate]
  split <;> rfl

theorem bits_blank (media : UInt8) (n m : Nat) :
    (⟨Bytes.ofList (blankBytes media n)⟩ : AllocationTable).bits m =
      if m = 0 then media.toNat + 0xf00 else if m = 1 then 0xfff else free := by
  match m with
  | 0 =>
    change media.toNat + (0xff : UInt8).toNat % 16 * 256 = _
    rfl
  | 1 =>
    change (0xff : UInt8).toNat / 16 + (0xff : UInt8).toNat * 16 = _
    rfl
  | m + 2 =>
    have behind : 3 ≤ position (m + 2) := by unfold position; omega
    have zero : unpack (m + 2) 0 0 = free := by unfold unpack; split <;> rfl
    rw [bits, byteAt_blank media n _ behind, byteAt_blank media n _ (by omega), zero,
      if_neg (show m + 2 ≠ 0 by omega), if_neg (show m + 2 ≠ 1 by omega)]

theorem size_blank (media : UInt8) {n : Nat} (room : 3 ≤ n) :
    (Bytes.ofList (blankBytes media n)).size = n := by
  rw [Bytes.size_ofList, blankBytes, List.length_append, List.length_replicate, List.length_cons,
    List.length_cons, List.length_singleton]
  omega

theorem entry_blank (media : UInt8) (n : Nat) (room : 3 ≤ n) (m : Nat) :
    (⟨Bytes.ofList (blankBytes media n)⟩ : AllocationTable).entry m =
      if m = 0 then media.toNat + 0xf00 else if m = 1 then 0xfff else free := by
  rw [entry_eq, size_blank media room, bits_blank]
  match m with
  | 0 => rw [if_pos (show position 0 + 1 < n by change 1 < n; omega)]
  | 1 => rw [if_pos (show position 1 + 1 < n by change 2 < n; omega)]
  | m + 2 =>
    rw [if_neg (show m + 2 ≠ 0 by omega), if_neg (show m + 2 ≠ 1 by omega), ite_self]

/-- The entry that linking a run of clusters leaves behind. -/
def linkedEntry (start count c : Nat) : Nat := if c + 1 = start + count then endMark else c + 1

theorem link_bits (start count : Nat) (t : AllocationTable) (positive : 0 < count)
    (room : start + count ≤ t.capacity) (small : start + count ≤ badMark) :
    ∃ u, link start count t = (.ok (), u) ∧ u.bytes.size = t.bytes.size ∧ ∀ m, u.bits m =
      if start ≤ m ∧ m < start + count then linkedEntry start count m else t.bits m := by
  induction count generalizing start t with
  | zero => omega
  | succ count ih =>
    cases count with
    | zero =>
      refine ⟨_, set_eq_ok t start endMark (by omega), size_write _ _ _ _, ?_⟩
      intro m
      rw [bits_write]
      by_cases same : m = start
      · rw [if_pos same, if_pos (by omega), linkedEntry, if_pos (by omega)]
        rfl
      · rw [if_neg same, if_neg (by omega)]
    | succ count =>
      have inside : start < t.capacity := by omega
      obtain ⟨u, run, size, entries⟩ := ih (start + 1) (t.write start (start + 1) inside)
        (by omega) (by rw [capacity_write]; omega) (by omega)
      refine ⟨u, ?_, by rw [size, size_write], ?_⟩
      · rw [link, Step.bind_ok (set_eq_ok t start (start + 1) inside)]
        exact run
      · intro m
        have stop : start + 1 + (count + 1) = start + (count + 1 + 1) := by omega
        rw [entries, bits_write, linkedEntry, linkedEntry, stop]
        by_cases first : m = start
        · unfold badMark at small
          rw [if_neg (by omega), if_pos first, if_pos (by omega), if_neg (by omega), first,
            Nat.mod_eq_of_lt (by omega)]
        · rw [if_neg first]
          by_cases rest : start + 1 ≤ m ∧ m < start + (count + 1 + 1)
          · have inside : start ≤ m ∧ m < start + (count + 1 + 1) := by omega
            rw [if_pos rest, if_pos inside]
          · rw [if_neg rest, if_neg (by omega)]

/-- A run below the bad mark is linked in place, and nothing else changes. -/
theorem link_eq_ok (start count : Nat) (t : AllocationTable) (positive : 0 < count)
    (room : start + count ≤ t.capacity) (small : start + count ≤ badMark) :
    ∃ u, link start count t = (.ok (), u) ∧ u.bytes.size = t.bytes.size ∧
      (∀ m, u.entry m =
        if start ≤ m ∧ m < start + count then linkedEntry start count m else t.entry m) ∧
      ∀ m, t.capacity ≤ m → u.bits m = t.bits m := by
  obtain ⟨u, run, size, linked⟩ := link_bits start count t positive room small
  have same : u.capacity = t.capacity := by rw [capacity, capacity, size]
  refine ⟨u, run, size, fun m => ?_, fun m behind => ?_⟩
  · have bits := linked m
    by_cases inside : start ≤ m ∧ m < start + count
    · rw [if_pos inside] at bits ⊢
      rw [entry_eq_bits (by omega), bits]
    · rw [if_neg inside] at bits ⊢
      exact entry_congr size bits
  · rw [linked, if_neg (by omega)]

end BootDisk.AllocationTable
