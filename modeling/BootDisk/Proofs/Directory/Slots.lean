import BootDisk.Proofs.Directory.Records

set_option autoImplicit false

/-!
# Reading a directory slot by slot

The records of a region are those of its leading slots, up to the first one that starts with a zero
byte. How many slots there are is the caller's choice: of fewer slots, the records are a prefix, and
it is a proper one only when all slots that are kept and the next one are in use.
-/
namespace BootDisk.Record

def slot (region : ByteArray) (i : Nat) : ByteArray :=
  region.extract (i * Geometry.recordSize) (i * Geometry.recordSize + Geometry.recordSize)

def slots (region : ByteArray) (count : Nat) : List ByteArray :=
  (List.range count).map (slot region)

def isUsed (raw : ByteArray) : Bool := Bytes.byte? raw 0 != some 0

/-- The records are what the slots hold, up to the first unused one. -/
def Leading (raws : List ByteArray) (records : List Record) : Prop :=
  (raws.takeWhile isUsed).map ofBytes? = records.map some

theorem Leading.unique {raws : List ByteArray} {records others : List Record}
    (h : Leading raws records) (other : Leading raws others) : records = others :=
  (List.map_inj_right fun _ _ => Option.some_inj.1).1 (h.symm.trans other)

theorem Leading.length {raws : List ByteArray} {records : List Record} (h : Leading raws records) :
    records.length = (raws.takeWhile isUsed).length := by
  have same := congrArg List.length h
  rw [List.length_map, List.length_map] at same
  exact same.symm

theorem Leading.take {raws : List ByteArray} {records : List Record} (h : Leading raws records)
    (n : Nat) : Leading (raws.take n) (records.take n) := by
  rw [Leading, ← List.take_takeWhile, List.map_take, List.map_take, h]

theorem Leading.length_le {raws : List ByteArray} {records : List Record}
    (h : Leading raws records) : records.length ≤ raws.length := by
  rw [h.length]
  exact (List.takeWhile_sublist _).length_le

theorem Leading.lt_length_iff {raws : List ByteArray} {records : List Record}
    (h : Leading raws records) (n : Nat) : n < records.length ↔
      ∃ inside : n < raws.length, ∀ (i : Nat) (le : i ≤ n), isUsed (raws[i]) = true := by
  have cut : (raws.findIdx fun raw => !isUsed raw) ≤ raws.length := List.findIdx_le_length
  rw [h.length, List.takeWhile_eq_take_findIdx_not, List.length_take, Nat.min_eq_left cut,
    List.lt_findIdx_iff]
  simp only [Bool.not_eq_false']

theorem ofBytes?_unused_iff {raw : ByteArray} (size : raw.size = 32) :
    ofBytes? raw = none ↔ isUsed raw = false := by
  rw [ofBytes?_eq_none_iff, isUsed, bne_eq_false_iff_eq]
  exact or_iff_right (by omega)

section Region
variable (region : ByteArray)

theorem take_slots {n count : Nat} (le : n ≤ count) :
    (slots region count).take n = slots region n := by
  rw [slots, ← List.map_take, List.take_range, Nat.min_eq_left le, slots]

theorem length_slots (count : Nat) : (slots region count).length = count := by
  rw [slots, List.length_map, List.length_range]

/-- Of fewer slots the records are the same when there are no more of them than slots. -/
theorem Leading.fewer_iff {region} {records : List Record} {n count : Nat} (le : n ≤ count)
    (h : Leading (slots region count) records) :
    Leading (slots region n) records ↔ records.length ≤ n := by
  constructor
  · intro fewer
    have := fewer.length_le
    rwa [length_slots] at this
  · intro few
    have kept := h.take n
    rwa [take_slots region le, List.take_of_length_le few] at kept

theorem Leading.lt_length_slots_iff {region} {records : List Record} {count : Nat}
    (h : Leading (slots region count) records) (n : Nat) : n < records.length ↔
      n < count ∧ ∀ i ≤ n, isUsed (slot region i) = true := by
  rw [h.lt_length_iff]
  simp only [slots, List.length_map, List.length_range, List.getElem_map, List.getElem_range,
    exists_prop]

theorem size_slot {i : Nat} (inside : (i + 1) * Geometry.recordSize ≤ region.size) :
    (slot region i).size = 32 := by
  rw [Nat.succ_mul] at inside
  unfold Geometry.recordSize at inside
  rw [slot, ByteArray.size_extract, Geometry.recordSize]
  omega

theorem collect_leading (count first : Nat) (found : List Record)
    (inside : (first + count) * Geometry.recordSize ≤ region.size) :
    ∃ records, Leading ((List.range' first count).map (slot region)) records ∧
      collect region count (first * Geometry.recordSize) found = records.reverse ++ found := by
  induction count generalizing first found with
  | zero => exact ⟨[], rfl, rfl⟩
  | succ count ih =>
    have size : (slot region first).size = 32 := by
      apply size_slot
      exact Nat.le_trans (Nat.mul_le_mul_right _ (by omega)) inside
    rw [List.range'_succ, List.map_cons, collect]
    cases read : ofBytes? (slot region first) with
    | none =>
      have here := read
      rw [slot] at here
      rw [here]
      refine ⟨[], ?_, rfl⟩
      rw [Leading, List.takeWhile_cons_of_neg (by simpa using (ofBytes?_unused_iff size).1 read)]
      rfl
    | some r =>
      have here := read
      rw [slot] at here
      rw [here]
      have used : isUsed (slot region first) = true := by
        rw [← Bool.not_eq_false, ← ofBytes?_unused_iff size, read]
        exact Option.some_ne_none r
      obtain ⟨records, leading, collected⟩ := ih (first + 1) (r :: found)
        (by rw [show first + 1 + count = first + (count + 1) by omega]; exact inside)
      refine ⟨r :: records, ?_, ?_⟩
      · rw [Leading, List.takeWhile_cons_of_pos used, List.map_cons, leading, read]
        rfl
      · rw [Nat.succ_mul] at collected
        rw [List.reverse_cons, List.append_assoc]
        exact collected

theorem leading_allIn :
    Leading (slots region (region.size / Geometry.recordSize)) (allIn region) := by
  obtain ⟨records, leading, collected⟩ := collect_leading region
    (region.size / Geometry.recordSize) 0 [] (by rw [Nat.zero_add]; exact Nat.div_mul_le_self _ _)
  rw [Nat.zero_mul] at collected
  rw [slots, List.range_eq_range', allIn, collected, List.append_nil, List.reverse_reverse]
  exact leading

end Region

end BootDisk.Record
