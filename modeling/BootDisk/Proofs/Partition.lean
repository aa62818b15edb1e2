import BootDisk.Partition
import BootDisk.Proofs.Bytes
import BootDisk.Proofs.Step

set_option autoImplicit false

namespace BootDisk.Partition

def patchedBytes (p : Partition) (loader : List UInt8) : List UInt8 :=
  loader.take startOffset ++ LittleEndian.encode 4 p.startSector.toNat ++
    LittleEndian.encode 4 p.sectorCount.toNat ++ loader.drop (countOffset + 4)

def patched (p : Partition) (loader : ByteArray) : ByteArray :=
  Bytes.ofList (p.patchedBytes (Bytes.toList loader))

theorem size_field (value : UInt32) : (field value).size = 4 := by
  rw [field, Bytes.size_ofList, LittleEndian.encode_length]

theorem number_of_field {b : ByteArray} {start : Nat} {value : UInt32}
    (h : Bytes.slice? b start 4 = some (field value)) :
    LittleEndian.field? b start 4 = some value.toNat := by
  rw [LittleEndian.field?, h, Option.map_some, field, Bytes.toList_ofList,
    LittleEndian.decode_encode_of_lt value.toNat_lt]

theorem checkSize_ok {size : Nat} (room : Geometry.bootSectorSize ≤ size) : checkSize size = .ok () :=
  if_neg (Nat.not_lt.2 room)

theorem checkSize_short {size : Nat} (short : size < Geometry.bootSectorSize) :
    checkSize size = .error (.error (.bootLoaderTooSmall size)) := if_pos short

theorem patch_short (p : Partition) {loader : ByteArray}
    (short : loader.size < Geometry.bootSectorSize) :
    p.patch loader = (.error (.error (.bootLoaderTooSmall loader.size)), loader) := by
  rw [patch, Step.get_bind, Step.lift_bind_error (checkSize_short short)]

section Patch
variable (p : Partition) {loader : ByteArray} (room : Geometry.bootSectorSize ≤ loader.size)
include room

theorem length_front : ((Bytes.toList loader).take startOffset).length = startOffset := by
  unfold Geometry.bootSectorSize at room
  rw [List.length_take, Bytes.toList_length, startOffset]
  omega

theorem length_fields : ((Bytes.toList loader).take startOffset ++
    LittleEndian.encode 4 p.startSector.toNat ++
    LittleEndian.encode 4 p.sectorCount.toNat).length = countOffset + 4 := by
  rw [List.length_append, List.length_append, length_front room, LittleEndian.encode_length,
    LittleEndian.encode_length]
  rfl

theorem patched_size : (p.patched loader).size = loader.size := by
  unfold Geometry.bootSectorSize at room
  rw [patched, Bytes.size_ofList, patchedBytes]
  simp only [List.length_append, List.length_take, List.length_drop, LittleEndian.encode_length,
    Bytes.toList_length, startOffset, countOffset]
  omega

theorem byte?_patched {i : Nat} (outside : i < startOffset ∨ countOffset + 4 ≤ i) :
    Bytes.byte? (p.patched loader) i = Bytes.byte? loader i := by
  have front := length_front room
  have fields := p.length_fields room
  rw [Bytes.byte?_eq, Bytes.byte?_eq, patched, Bytes.toList_ofList, patchedBytes]
  rcases outside with before | behind
  · rw [List.append_assoc, List.append_assoc, List.getElem?_append_left (by omega),
      List.getElem?_take_of_lt before]
  · rw [List.getElem?_append_right (by omega), fields, List.getElem?_drop,
      Nat.add_sub_cancel' behind]

theorem patched_patched (q : Partition) : q.patched (p.patched loader) = q.patched loader := by
  have front : (Bytes.toList (p.patched loader)).take startOffset =
      (Bytes.toList loader).take startOffset := by
    rw [patched, Bytes.toList_ofList, patchedBytes, List.append_assoc, List.append_assoc]
    exact List.take_left' (length_front room)
  have back : (Bytes.toList (p.patched loader)).drop (countOffset + 4) =
      (Bytes.toList loader).drop (countOffset + 4) := by
    rw [patched, Bytes.toList_ofList, patchedBytes]
    exact List.drop_left' (p.length_fields room)
  have same : q.patchedBytes (Bytes.toList (p.patched loader)) =
      q.patchedBytes (Bytes.toList loader) := by
    rw [patchedBytes, patchedBytes, front, back]
  exact congrArg Bytes.ofList same

theorem splice_fields : ∃ middle,
    Bytes.splice? loader startOffset (field p.startSector) = some middle ∧
    Bytes.splice? middle countOffset (field p.sectorCount) = some (p.patched loader) := by
  have front := length_front room
  unfold Geometry.bootSectorSize at room
  have length := Bytes.toList_length loader
  have first : Bytes.toList loader = (Bytes.toList loader).take startOffset ++
      ((Bytes.toList loader).drop startOffset).take 4 ++
      (Bytes.toList loader).drop countOffset := by
    rw [List.append_assoc, show countOffset = startOffset + 4 from rfl, ← List.drop_drop,
      List.take_append_drop, List.take_append_drop]
  have second : (Bytes.toList loader).drop countOffset =
      ((Bytes.toList loader).drop countOffset).take 4 ++
      (Bytes.toList loader).drop (countOffset + 4) := by
    rw [← List.drop_drop, List.take_append_drop]
  have middle : Bytes.toList (Bytes.ofList ((Bytes.toList loader).take startOffset ++
      Bytes.toList (field p.startSector) ++ (Bytes.toList loader).drop countOffset)) =
      ((Bytes.toList loader).take startOffset ++ LittleEndian.encode 4 p.startSector.toNat) ++
        ((Bytes.toList loader).drop countOffset).take 4 ++
        (Bytes.toList loader).drop (countOffset + 4) := by
    rw [Bytes.toList_ofList, field, Bytes.toList_ofList, List.append_assoc _ (List.take 4 _),
      ← second]
  refine ⟨_, Bytes.splice?_of_toList first front.symm ?_, Bytes.splice?_of_toList middle ?_ ?_⟩
  · rw [size_field, List.length_take, List.length_drop, length, startOffset]
    omega
  · rw [List.length_append, front, LittleEndian.encode_length]
    rfl
  · rw [size_field, List.length_take, List.length_drop, length, countOffset]
    omega

theorem patch_eq_ok : p.patch loader = (.ok (), p.patched loader) := by
  obtain ⟨middle, first, second⟩ := p.splice_fields room
  rw [patch, Step.get_bind, Step.lift_bind_ok (checkSize_ok room), Step.get_bind,
    Step.lift_bind_ok (Outcome.orFault_some first)]
  change (liftM (orFault .outOfBounds (Bytes.splice? middle countOffset (field p.sectorCount))) >>=
    set : Step ByteArray Unit) middle = _
  rw [Step.lift_bind_ok (Outcome.orFault_some second)]
  rfl

theorem writeAt_fields :
    [(startOffset, field p.startSector), (countOffset, field p.sectorCount)].foldl
      (fun b piece => Bytes.writeAt b piece.1 piece.2) loader = p.patched loader := by
  obtain ⟨middle, first, second⟩ := p.splice_fields room
  rw [List.foldl_cons, List.foldl_cons, List.foldl_nil]
  dsimp only
  rw [Bytes.writeAt_of_splice? first, Bytes.writeAt_of_splice? second]

theorem read_patched : read (p.patched loader) = .ok p := by
  obtain ⟨middle, first, second⟩ := p.splice_fields room
  have count : Bytes.slice? (p.patched loader) countOffset 4 = some (field p.sectorCount) := by
    rw [← size_field p.sectorCount]
    exact Bytes.slice?_splice?_self second
  have start : Bytes.slice? (p.patched loader) startOffset 4 = some (field p.startSector) := by
    rw [Bytes.slice?_splice?_apart second (.inl (Nat.le_refl _)), ← size_field p.startSector]
    exact Bytes.slice?_splice?_self first
  have whole : Geometry.bootSectorSize ≤ (p.patched loader).size := by
    rw [p.patched_size room]
    exact room
  rw [read, Outcome.bind_ok (checkSize_ok whole),
    Outcome.bind_ok (Outcome.orFault_some (number_of_field start)),
    Outcome.bind_ok (Outcome.orFault_some (number_of_field count)), UInt32.ofNat_toNat,
    UInt32.ofNat_toNat]
  rfl

end Patch

end BootDisk.Partition
