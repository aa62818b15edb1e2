import BootDisk.Directory.Record
import BootDisk.Proofs.Bytes

set_option autoImplicit false

namespace BootDisk.Record

def firstByte (name : Vector UInt8 8) : UInt8 := name.get ⟨0, Nat.zero_lt_succ 7⟩

def letter (byte : UInt8) (cluster : UInt16) : Record where
  name := #v[byte, 0x20, 0x20, 0x20, 0x20, 0x20, 0x20, 0x20]
  ext := #v[0x20, 0x20, 0x20]
  attributes := archive
  firstCluster := cluster
  size := 1

theorem decode_encode (r : Record) :
    decode (fun i => r.encode.get (Fin.cast r.encode_length.symm i)) = r := by
  rcases r with ⟨⟨⟨n⟩, hn⟩, ⟨⟨e⟩, he⟩, a, c, s⟩
  -- With the bytes of both halves named, every offset of the encoding computes.
  match n, hn, e, he with
  | [_, _, _, _, _, _, _, _], _, [_, _, _], _ =>
    have word := LittleEndian.ofNat_decode_encode16 c
    have long := LittleEndian.ofNat_decode_encode32 s
    unfold decode
    congr 1

/-- Of 32 bytes a record keeps those of its fields; the others are written as zeros. -/
theorem encode_decode (byte : Fin 32 → UInt8) : (decode byte).encode =
    (List.ofFn byte).take 12 ++ List.replicate 14 0 ++ (List.ofFn byte).drop 26 := by
  unfold encode decode
  dsimp only
  rw [LittleEndian.encode_ofNat_decode16, LittleEndian.encode_ofNat_decode32]
  rfl

theorem toBytes_inj {r s : Record} : r.toBytes = s.toBytes ↔ r = s := by
  constructor
  · intro same
    rw [toBytes, toBytes, ← Bytes.toList_inj, Bytes.toList_ofList, Bytes.toList_ofList] at same
    rw [← decode_encode r, ← decode_encode s]
    simp only [List.get_eq_getElem, same]
    rfl
  · exact congrArg toBytes

theorem size_toBytes (r : Record) : r.toBytes.size = Geometry.recordSize := by
  rw [toBytes, Bytes.size_ofList, encode_length]
  rfl

def front (r : Record) : List UInt8 :=
  r.name.toList ++ r.ext.toList ++ [r.attributes] ++ List.replicate 14 0

def clusterField : Nat := 26

def sizeField : Nat := 28

theorem length_front (r : Record) : r.front.length = clusterField := by
  simp [front, clusterField]

theorem encode_eq (r : Record) : r.encode = r.front ++
    LittleEndian.encode 2 r.firstCluster.toNat ++ LittleEndian.encode 4 r.size.toNat := rfl

theorem encode_head (r : Record) : r.encode[0]? = some (firstByte r.name) := by
  rcases r with ⟨⟨⟨n⟩, hn⟩, e, a, c, s⟩
  match n, hn with
  | [_, _, _, _, _, _, _, _], _ => rfl

theorem ofBytes?_encode (r : Record) (used : firstByte r.name ≠ 0) :
    ofBytes? (Bytes.ofList r.encode) = some r := by
  have size : 32 ≤ (Bytes.ofList r.encode).size := by
    rw [Bytes.size_ofList]
    exact Nat.le_of_eq r.encode_length.symm
  have head : (Bytes.ofList r.encode)[0] = firstByte r.name := by
    rw [← Option.some_inj, ← Bytes.getElem?_toList, Bytes.toList_ofList, encode_head]
  rw [ofBytes?, dif_pos size]
  change (if (Bytes.ofList r.encode)[0] = 0 then none else some _) = _
  rw [head, if_neg used]
  exact congrArg some (decode_encode r)

theorem ofBytes?_eq_none_iff {raw : ByteArray} :
    ofBytes? raw = none ↔ raw.size < 32 ∨ Bytes.byte? raw 0 = some 0 := by
  unfold ofBytes?
  by_cases size : 32 ≤ raw.size
  · have first : Bytes.byte? raw 0 = some raw[0] := dif_pos (by omega)
    rw [dif_pos size, first]
    change (if raw[0] = 0 then none else some _) = none ↔ _
    by_cases zero : raw[0] = 0
    · simp [zero]
    · simp [zero, size]
  · rw [dif_neg size, eq_self, true_iff]
    exact .inl (by omega)

theorem ofBytes?_zeros (n : Nat) : ofBytes? (Bytes.ofList (List.replicate n 0)) = none := by
  rw [ofBytes?_eq_none_iff, Bytes.size_ofList, List.length_replicate, Bytes.byte?_eq,
    Bytes.toList_ofList, List.getElem?_replicate]
  by_cases short : n < 32
  · exact .inl short
  · exact .inr (if_pos (by omega))

theorem collect_of_toList {region : ByteArray} (left : List UInt8) {records : List Record}
    {blank slots start : Nat} {found : List Record}
    (bytes : Bytes.toList region = left ++ records.flatMap encode ++ List.replicate blank 0)
    (at_left : start = left.length) (used : ∀ r ∈ records, firstByte r.name ≠ 0)
    (enough : records.length ≤ slots) :
    collect region slots start found = records.reverse ++ found := by
  -- `left` holds the bytes of the records already read.
  induction records generalizing left slots start found with
  | nil =>
    cases slots with
    | zero => rfl
    | succ slots =>
      have chunk : Bytes.toList (region.extract start (start + Geometry.recordSize)) =
          List.replicate (min Geometry.recordSize blank) 0 := by
        rw [Bytes.toList_extract, bytes, at_left, List.flatMap_nil, List.append_nil,
          List.drop_take, List.drop_left, Nat.add_sub_cancel_left, List.take_replicate]
      rw [collect, ← Bytes.ofList_toList (region.extract _ _), chunk, ofBytes?_zeros]
      rfl
  | cons r records ih =>
    cases slots with
    | zero => simp at enough
    | succ slots =>
      have split : Bytes.toList region =
          left ++ r.encode ++ (records.flatMap encode ++ List.replicate blank 0) := by
        rw [bytes, List.flatMap_cons]
        simp only [List.append_assoc]
      have chunk : region.extract start (start + Geometry.recordSize) = Bytes.ofList r.encode :=
        Bytes.extract_of_toList split at_left (encode_length r).symm
      rw [collect, chunk, ofBytes?_encode r (used r (by simp))]
      change collect region slots (start + Geometry.recordSize) (r :: found) = _
      rw [ih (left ++ r.encode) (by rw [split]; simp only [List.append_assoc])
        (by rw [List.length_append, encode_length, at_left]; rfl)
        (fun s hs => used s (by simp [hs])) (by simpa using enough), List.reverse_cons,
        List.append_assoc]
      rfl

theorem length_flatMap_encode (records : List Record) :
    (records.flatMap encode).length = records.length * Geometry.recordSize := by
  induction records with
  | nil => rfl
  | cons r records ih =>
    rw [List.flatMap_cons, List.length_append, encode_length, ih, List.length_cons, Nat.succ_mul,
      Nat.add_comm]
    rfl

theorem allIn_of_toList {region : ByteArray} {records : List Record} {blank : Nat}
    (bytes : Bytes.toList region = records.flatMap encode ++ List.replicate blank 0)
    (used : ∀ r ∈ records, firstByte r.name ≠ 0) : allIn region = records := by
  have size := Bytes.toList_length region
  rw [bytes, List.length_append, length_flatMap_encode] at size
  have enough : records.length ≤ region.size / Geometry.recordSize := by
    rw [Nat.le_div_iff_mul_le (by decide)]
    omega
  have collected : collect region (region.size / Geometry.recordSize) 0 [] =
      records.reverse ++ [] := collect_of_toList [] bytes rfl used enough
  rw [allIn, collected, List.append_nil, List.reverse_reverse]

theorem flatMap_encode_split (before after : List Record) (r : Record) (tail : List UInt8) :
    (before ++ r :: after).flatMap encode ++ tail =
      before.flatMap encode ++ r.encode ++ (after.flatMap encode ++ tail) := by
  rw [List.flatMap_append, List.flatMap_cons]
  simp only [List.append_assoc]

end BootDisk.Record
