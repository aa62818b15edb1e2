import BootDisk.Bytes

set_option autoImplicit false

namespace BootDisk

namespace Bytes

theorem toList_length (b : ByteArray) : (toList b).length = b.size := by
  rw [toList, Array.length_toList, ByteArray.size_data]

theorem toList_ofList (l : List UInt8) : toList (ofList l) = l := rfl

theorem ofList_toList (b : ByteArray) : ofList (toList b) = b := by
  apply ByteArray.ext
  exact Array.toArray_toList

theorem toList_inj {a b : ByteArray} : toList a = toList b ↔ a = b := by
  constructor
  · intro h
    rw [← ofList_toList a, h, ofList_toList]
  · exact congrArg toList

theorem toList_append (a b : ByteArray) : toList (a ++ b) = toList a ++ toList b := by
  simp [toList]

theorem toList_empty : toList ByteArray.empty = [] := rfl

theorem toList_zeros (n : Nat) : toList (zeros n) = List.replicate n 0 := by
  simp [toList, zeros]

theorem toList_extract (b : ByteArray) (i j : Nat) :
    toList (b.extract i j) = ((toList b).take j).drop i := by
  rw [toList, ByteArray.data_extract, Array.toList_extract, List.extract_eq_take_drop,
    List.drop_take]
  rfl

theorem getElem?_toList (b : ByteArray) (i : Nat) (h : i < b.size) :
    (toList b)[i]? = some b[i] := by
  rw [List.getElem?_eq_getElem (by rw [toList_length]; exact h)]
  rfl

theorem byte?_eq (b : ByteArray) (i : Nat) : byte? b i = (toList b)[i]? := by
  unfold byte?
  split
  · rename_i h
    rw [getElem?_toList b i h]
  · rename_i h
    rw [List.getElem?_eq_none (by rw [toList_length]; omega)]

theorem toList_set (b : ByteArray) (i : Nat) (x : UInt8) (h : i < b.size) :
    toList (b.set i x h) = (toList b).set i x := by
  rw [toList, ByteArray.data_set, Array.toList_set]
  rfl

section Split
variable {b new : ByteArray} {start len : Nat} {left old middle right : List UInt8}

theorem extract_of_toList (h : toList b = left ++ middle ++ right) (hs : start = left.length)
    (hl : len = middle.length) : b.extract start (start + len) = ofList middle := by
  rw [← toList_inj, toList_extract, toList_ofList, h, hs, hl, ← List.length_append,
    List.take_left, List.drop_left]

theorem slice?_of_toList (h : toList b = left ++ middle ++ right) (hs : start = left.length)
    (hl : len = middle.length) : slice? b start len = some (ofList middle) := by
  have size := toList_length b
  rw [h, List.length_append, List.length_append] at size
  rw [slice?, if_pos (by omega), extract_of_toList h hs hl]

theorem splice?_of_toList (h : toList b = left ++ old ++ right) (hs : start = left.length)
    (hn : new.size = old.length) :
    splice? b start new = some (ofList (left ++ toList new ++ right)) := by
  have size := toList_length b
  rw [h, List.length_append, List.length_append] at size
  rw [splice?, if_pos (by omega)]
  congr 1
  rw [← toList_inj, toList_append, toList_append, toList_extract, toList_extract, toList_ofList, h,
    hs, hn, ← List.length_append, List.drop_zero, List.append_assoc left, List.take_left,
    ← List.append_assoc left, List.take_of_length_le (by simp; omega), List.drop_left]

theorem writeAt_of_splice? {r : ByteArray} (h : splice? b start new = some r) :
    writeAt b start new = r := by
  unfold splice? at h
  split at h
  · rename_i room
    cases h
    rw [← toList_inj, writeAt, show start - b.size = 0 by omega]
    simp [toList_append, toList_zeros]
  · cases h

end Split

theorem slice?_eq_some_iff {b s : ByteArray} {start len : Nat} :
    slice? b start len = some s ↔
      start + len ≤ b.size ∧ toList s = ((toList b).drop start).take len := by
  unfold slice?
  split
  · rename_i h
    rw [Option.some_inj, ← toList_inj, toList_extract, List.drop_take,
      Nat.add_sub_cancel_left]
    exact ⟨fun e => ⟨h, e.symm⟩, fun e => e.2.symm⟩
  · rename_i h
    simp [h]

theorem extract_of_slice? {b s : ByteArray} {start len : Nat} (h : slice? b start len = some s) :
    b.extract start (start + len) = s := by
  unfold slice? at h
  split at h
  · exact Option.some_inj.1 h
  · cases h

theorem slice?_isSome {b : ByteArray} {start len : Nat} (h : start + len ≤ b.size) :
    ∃ s, slice? b start len = some s := by
  rw [slice?, if_pos h]
  exact ⟨_, rfl⟩

section Bytewise
variable {a b new r : ByteArray} {start len : Nat}

theorem byte?_of_le {i : Nat} (h : b.size ≤ i) : byte? b i = none := by
  rw [byte?, dif_neg (by omega)]

theorem byte?_of_lt {i : Nat} (h : i < b.size) : ∃ x, byte? b i = some x := ⟨_, dif_pos h⟩

theorem le_size_of_byte? {i : Nat} (inside : i < a.size) (same : byte? a i = byte? b i) :
    i < b.size := by
  obtain ⟨x, here⟩ := byte?_of_lt inside
  refine Nat.lt_of_not_le fun past => ?_
  rw [here, byte?_of_le past] at same
  cases same

theorem byte?_append_left (b : ByteArray) {i : Nat} (h : i < a.size) :
    byte? (a ++ b) i = byte? a i := by
  rw [byte?_eq, byte?_eq, toList_append, List.getElem?_append_left (by rw [toList_length]; exact h)]

theorem byte?_set_other {i j : Nat} (x : UInt8) (h : i < b.size) (other : i ≠ j) :
    byte? (b.set i x h) j = byte? b j := by
  rw [byte?_eq, byte?_eq, toList_set, List.getElem?_set_ne other]

theorem ext_byte? (size : a.size = b.size) (same : ∀ i, i < a.size → byte? a i = byte? b i) :
    a = b := by
  rw [← toList_inj]
  apply List.ext_getElem?
  intro i
  rw [← byte?_eq, ← byte?_eq]
  by_cases inside : i < a.size
  · exact same i inside
  · rw [byte?_of_le (by omega), byte?_of_le (by omega)]

theorem byte?_slice? {s : ByteArray} (h : slice? b start len = some s) {i : Nat} (hi : i < len) :
    byte? s i = byte? b (start + i) := by
  rw [byte?_eq, byte?_eq, (slice?_eq_some_iff.1 h).2, List.getElem?_take_of_lt hi,
    List.getElem?_drop]

theorem byte?_of_zeros {i : Nat} (h : slice? b start len = some (ofList (List.replicate len 0)))
    (first : start ≤ i) (last : i < start + len) : byte? b i = some 0 := by
  have here := byte?_slice? h (show i - start < len by omega)
  rw [show start + (i - start) = i by omega] at here
  rw [← here, byte?_eq, toList_ofList, List.getElem?_replicate, if_pos (by omega)]

theorem slice?_of_room (roomA : start + len ≤ a.size) (roomB : start + len ≤ b.size)
    (same : ∀ i, start ≤ i → i < start + len → byte? a i = byte? b i) :
    slice? a start len = slice? b start len := by
  obtain ⟨s, hs⟩ := slice?_isSome roomA
  obtain ⟨t, ht⟩ := slice?_isSome roomB
  rw [hs, ht, Option.some_inj]
  apply ext_byte? ((slice?_size hs).trans (slice?_size ht).symm)
  intro i hi
  rw [slice?_size hs] at hi
  rw [byte?_slice? hs hi, byte?_slice? ht hi, same _ (by omega) (by omega)]

theorem slice?_congr (size : a.size = b.size)
    (same : ∀ i, start ≤ i → i < start + len → byte? a i = byte? b i) :
    slice? a start len = slice? b start len := by
  by_cases room : start + len ≤ b.size
  · exact slice?_of_room (by omega) room same
  · rw [slice?, slice?, if_neg room, if_neg (by omega)]

theorem slice?_of_same (nonempty : 0 < len)
    (same : ∀ i, start ≤ i → i < start + len → byte? a i = byte? b i) :
    slice? a start len = slice? b start len := by
  have last := same (start + len - 1) (by omega) (by omega)
  by_cases room : start + len ≤ a.size
  · have other := le_size_of_byte? (show start + len - 1 < a.size by omega) last
    exact slice?_of_room room (by omega) same
  · have other : ¬ start + len ≤ b.size := by
      intro fits
      have := le_size_of_byte? (show start + len - 1 < b.size by omega) last.symm
      omega
    rw [slice?, slice?, if_neg room, if_neg other]

theorem splice?_isSome (room : start + new.size ≤ b.size) : ∃ r, splice? b start new = some r := by
  rw [splice?, if_pos room]
  exact ⟨_, rfl⟩

theorem splice?_room (h : splice? b start new = some r) : start + new.size ≤ b.size := by
  unfold splice? at h
  split at h
  · assumption
  · cases h

theorem byte?_splice? (h : splice? b start new = some r) (i : Nat) : byte? r i =
    if start ≤ i ∧ i < start + new.size then byte? new (i - start) else byte? b i := by
  have room := splice?_room h
  have sizeB := toList_length b
  have sizeNew := toList_length new
  have whole : (toList b).take b.size = toList b := List.take_of_length_le (Nat.le_of_eq sizeB)
  rw [splice?, if_pos room] at h
  cases h
  rw [byte?_eq, byte?_eq, byte?_eq, toList_append, toList_append, toList_extract, toList_extract,
    List.drop_zero, whole]
  have front : ((toList b).take start).length = start := by
    rw [List.length_take]
    omega
  by_cases before : i < start
  · rw [if_neg (by omega), List.append_assoc, List.getElem?_append_left (by omega),
      List.getElem?_take_of_lt before]
  · by_cases inside : i < start + new.size
    · rw [if_pos (by omega), List.append_assoc, List.getElem?_append_right (by omega), front,
        List.getElem?_append_left (by omega)]
    · rw [if_neg (by omega), List.getElem?_append_right (by rw [List.length_append]; omega),
        List.length_append, front, List.getElem?_drop]
      congr 1
      omega

theorem slice?_splice?_apart (h : splice? b start new = some r) {other : Nat}
    (apart : other + len ≤ start ∨ start + new.size ≤ other) :
    slice? r other len = slice? b other len := by
  apply slice?_congr (splice?_size h)
  intro i first last
  rw [byte?_splice? h, if_neg (by omega)]

theorem slice?_splice?_self (h : splice? b start new = some r) :
    slice? r start new.size = some new := by
  have room := splice?_room h
  obtain ⟨s, hs⟩ : ∃ s, slice? r start new.size = some s :=
    slice?_isSome (by rw [splice?_size h]; exact room)
  rw [hs, Option.some_inj]
  apply ext_byte? (slice?_size hs)
  intro i hi
  rw [slice?_size hs] at hi
  rw [byte?_slice? hs hi, byte?_splice? h, if_pos (by omega), Nat.add_sub_cancel_left]

theorem splice?_comm {other s : ByteArray} {place : Nat} (first : splice? b start new = some r)
    (second : splice? r place other = some s)
    (apart : ∀ i, start ≤ i → i < start + new.size → i < place ∨ place + other.size ≤ i) :
    ∃ q, splice? b place other = some q ∧ splice? q start new = some s := by
  have room := splice?_room first
  have roomOther := splice?_room second
  rw [splice?_size first] at roomOther
  obtain ⟨q, early⟩ := splice?_isSome roomOther
  obtain ⟨t, late⟩ : ∃ t, splice? q start new = some t :=
    splice?_isSome (by rw [splice?_size early]; exact room)
  refine ⟨q, early, late.trans (congrArg some (ext_byte? ?_ fun i _ => ?_))⟩
  · rw [splice?_size late, splice?_size early, splice?_size second, splice?_size first]
  · rw [byte?_splice? late, byte?_splice? early, byte?_splice? second, byte?_splice? first]
    by_cases here : start ≤ i ∧ i < start + new.size
    · have outside : ¬ (place ≤ i ∧ i < place + other.size) := by
        have := apart i here.1 here.2
        omega
      rw [if_pos here, if_neg outside, if_pos here]
    · rw [if_neg here, if_neg here]

end Bytewise

end Bytes

namespace LittleEndian

theorem decode_encode_of_lt {w n : Nat} (h : n < 1 <<< (8 * w)) : decode (encode w n) = n := by
  rw [decode_encode, Nat.mod_eq_of_lt h]

theorem decode_lt (l : List UInt8) : decode l < 1 <<< (8 * l.length) := by
  induction l with
  | nil => decide
  | cons b l ih =>
    have byte := b.toNat_lt
    have wider : 1 <<< (8 * (b :: l).length) = 256 * 1 <<< (8 * l.length) := by
      rw [List.length_cons, Nat.shiftLeft_eq, Nat.shiftLeft_eq, Nat.mul_add, Nat.pow_add]
      omega
    rw [decode, wider]
    omega

theorem encode_decode (l : List UInt8) : encode l.length (decode l) = l := by
  induction l with
  | nil => rfl
  | cons b l ih =>
    have byte := b.toNat_lt
    have low : (b.toNat + 256 * decode l) % 256 = b.toNat := by omega
    have high : (b.toNat + 256 * decode l) / 256 = decode l := by omega
    rw [List.length_cons, decode, encode, low, high, ih, UInt8.ofNat_toNat]

theorem ofNat_decode_encode16 (x : UInt16) : UInt16.ofNat (decode (encode 2 x.toNat)) = x := by
  rw [decode_encode_of_lt x.toNat_lt, UInt16.ofNat_toNat]

theorem ofNat_decode_encode32 (x : UInt32) : UInt32.ofNat (decode (encode 4 x.toNat)) = x := by
  rw [decode_encode_of_lt x.toNat_lt, UInt32.ofNat_toNat]

theorem encode_ofNat_decode16 (a b : UInt8) :
    encode 2 (UInt16.ofNat (decode [a, b])).toNat = [a, b] := by
  rw [UInt16.toNat_ofNat_of_lt' (decode_lt [a, b])]
  exact encode_decode [a, b]

theorem encode_ofNat_decode32 (a b c d : UInt8) :
    encode 4 (UInt32.ofNat (decode [a, b, c, d])).toNat = [a, b, c, d] := by
  rw [UInt32.toNat_ofNat_of_lt' (decode_lt [a, b, c, d])]
  exact encode_decode [a, b, c, d]

end LittleEndian

end BootDisk
