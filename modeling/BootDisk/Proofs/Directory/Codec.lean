import BootDisk.Proofs.Directory.Records

set_option autoImplicit false

namespace BootDisk.Record

def unusedField : Nat := 12

def unusedSize : Nat := clusterField - unusedField

section Read
variable {raw : ByteArray} {r : Record}

def frontByte (raw : ByteArray) (i : Fin 32) : UInt8 := (Bytes.byte? raw i.val).getD 0

theorem byte?_front (size : 32 ≤ raw.size) (i : Fin 32) :
    Bytes.byte? raw i.val = some (frontByte raw i) := by
  obtain ⟨x, here⟩ := Bytes.byte?_of_lt (Nat.lt_of_lt_of_le i.isLt size)
  rw [frontByte, here, Option.getD_some]

theorem toList_extract_front (size : 32 ≤ raw.size) :
    Bytes.toList (raw.extract 0 32) = List.ofFn (frontByte raw) := by
  rw [Bytes.toList_extract, List.drop_zero]
  apply List.ext_getElem?
  intro i
  by_cases inside : i < 32
  · rw [List.getElem?_take_of_lt inside, ← Bytes.byte?_eq, byte?_front size ⟨i, inside⟩,
      List.getElem?_ofFn, dif_pos inside]
  · rw [List.getElem?_eq_none (by rw [List.length_take]; omega),
      List.getElem?_eq_none (by rw [List.length_ofFn]; omega)]

theorem cleared_eq (size : 32 ≤ raw.size) :
    Bytes.splice? (raw.extract 0 32) unusedField (Bytes.zeros unusedSize) =
      some (decode (frontByte raw)).toBytes := by
  have bytes := toList_extract_front size
  have split : Bytes.toList (raw.extract 0 32) =
      (Bytes.toList (raw.extract 0 32)).take unusedField ++
      ((Bytes.toList (raw.extract 0 32)).drop unusedField).take unusedSize ++
      (Bytes.toList (raw.extract 0 32)).drop clusterField := by
    rw [List.append_assoc, show clusterField = unusedField + unusedSize from rfl,
      ← List.drop_drop, List.take_append_drop, List.take_append_drop]
  rw [Bytes.splice?_of_toList split]
  · rw [toBytes, encode_decode, ← bytes, Bytes.toList_zeros]
    rfl
  · rw [bytes]
    rfl
  · rw [bytes, Bytes.size_zeros]
    rfl

theorem ofBytes?_eq_decode (size : 32 ≤ raw.size) (used : Bytes.byte? raw 0 ≠ some 0) :
    ofBytes? raw = some (decode (frontByte raw)) := by
  have here : ∀ i : Fin 32, raw.get i.val (Nat.lt_of_lt_of_le i.isLt size) = frontByte raw i :=
    fun i => Option.some.inj ((dif_pos _).symm.trans (byte?_front size i))
  have first : frontByte raw 0 ≠ 0 := by
    intro zero
    exact used ((byte?_front size 0).trans (congrArg some zero))
  rw [← here 0] at first
  rw [ofBytes?, dif_pos size]
  exact (if_neg first).trans (congrArg (fun byte => some (decode byte)) (funext here))

theorem ofBytes?_eq_some_iff : ofBytes? raw = some r ↔ Bytes.byte? raw 0 ≠ some 0 ∧
    Bytes.splice? (raw.extract 0 32) unusedField (Bytes.zeros unusedSize) = some r.toBytes := by
  constructor
  · intro read
    have present : ofBytes? raw ≠ none := by
      rw [read]
      exact Option.some_ne_none r
    rw [Ne, ofBytes?_eq_none_iff, not_or, Nat.not_lt] at present
    obtain ⟨size, used⟩ := present
    rw [ofBytes?_eq_decode size used] at read
    rw [cleared_eq size, Option.some.inj read]
    exact ⟨used, rfl⟩
  · rintro ⟨used, written⟩
    -- What is written has the size of a record, so there were 32 bytes to write over.
    have size := Bytes.splice?_size written
    rw [size_toBytes, ByteArray.size_extract, Geometry.recordSize] at size
    have enough : 32 ≤ raw.size := by omega
    rw [cleared_eq enough, Option.some_inj, toBytes_inj] at written
    rw [ofBytes?_eq_decode enough used, written]

theorem ofBytes?_toBytes (r : Record) :
    ofBytes? r.toBytes = if firstByte r.name = 0 then none else some r := by
  by_cases zero : firstByte r.name = 0
  · rw [if_pos zero, ofBytes?_eq_none_iff, Bytes.byte?_eq, toBytes, Bytes.toList_ofList,
      encode_head, zero]
    exact .inr rfl
  · rw [if_neg zero]
    exact ofBytes?_encode r zero

end Read

/-- Reading undoes writing on every record but those that look unused. Bytes are read as a record
when there are enough of them and they do not look unused, and then the record is the one that is
written as these bytes with zeros in place of those that no field covers. -/
theorem ofBytes?_inverse :
    (∀ r : Record, ofBytes? r.toBytes = if firstByte r.name = 0 then none else some r) ∧
    ∀ raw : ByteArray, (ofBytes? raw = none ↔ raw.size < 32 ∨ Bytes.byte? raw 0 = some 0) ∧
      ∀ r : Record, ofBytes? raw = some r ↔ Bytes.byte? raw 0 ≠ some 0 ∧
        Bytes.splice? (raw.extract 0 32) unusedField (Bytes.zeros unusedSize) =
          some r.toBytes :=
  ⟨ofBytes?_toBytes, fun _ => ⟨ofBytes?_eq_none_iff, fun _ => ofBytes?_eq_some_iff⟩⟩

end BootDisk.Record
