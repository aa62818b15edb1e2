import BootDisk.BootSector
import BootDisk.Proofs.Bytes
import BootDisk.Proofs.Step

set_option autoImplicit false

/-!
# Reading back the boot sector

The sector is a list of pieces of fixed widths, so the offset of a piece is the sum of the widths
before it. Every piece is read back from any sector that starts with the fields, and so is the
geometry.
-/
namespace BootDisk

theorem Bytes.slice?_of_isPrefix {b : ByteArray} {start : Nat} (left : List UInt8)
    {middle : List UInt8} (h : left ++ middle <+: toList b) (hs : start = left.length) :
    slice? b start middle.length = some (ofList middle) := by
  obtain ⟨right, e⟩ := h
  exact slice?_of_toList e.symm hs rfl

theorem Bytes.byte?_of_isPrefix {b : ByteArray} {start : Nat} (left : List UInt8) {x : UInt8}
    (h : left ++ [x] <+: toList b) (hs : start = left.length) : byte? b start = some x := by
  obtain ⟨right, e⟩ := h
  rw [byte?_eq, ← e, hs, List.append_assoc, List.getElem?_append_right (Nat.le_refl _),
    Nat.sub_self]
  rfl

namespace BootSector

theorem word_of_isPrefix {sector : ByteArray} {start : Nat} (left : List UInt8) {x : UInt16}
    (h : left ++ LittleEndian.encode 2 x.toNat <+: Bytes.toList sector)
    (hs : start = left.length) : word sector start = .ok x := by
  have slice := Bytes.slice?_of_isPrefix left h hs
  rw [LittleEndian.encode_length] at slice
  have field : LittleEndian.field? sector start 2 =
      some (LittleEndian.decode (LittleEndian.encode 2 x.toNat)) := by
    rw [LittleEndian.field?, slice]
    rfl
  rw [word, Outcome.bind_ok (Outcome.orFault_some field), LittleEndian.ofNat_decode_encode16]
  rfl

theorem byte_of_isPrefix {sector : ByteArray} {start : Nat} (left : List UInt8) {x : UInt8}
    (h : left ++ [x] <+: Bytes.toList sector) (hs : start = left.length) :
    byte sector start = .ok x :=
  Outcome.orFault_some (Bytes.byte?_of_isPrefix left h hs)

/-- The fields one by one; the two bytes in front of the extended signature make one piece. -/
def pieces (p : Parameters) (g : Geometry) : List (List UInt8) :=
  [jump, p.systemName.toList, LittleEndian.encode 2 g.bytesPerSector.toNat, [g.sectorsPerCluster],
    LittleEndian.encode 2 g.reservedSectors.toNat, [g.tableCount],
    LittleEndian.encode 2 g.rootEntries.toNat, LittleEndian.encode 2 g.totalSectors.toNat,
    [p.media], LittleEndian.encode 2 g.sectorsPerTable.toNat,
    LittleEndian.encode 2 p.sectorsPerTrack.toNat, LittleEndian.encode 2 p.headCount.toNat,
    LittleEndian.encode 4 p.hiddenSectors.toNat, LittleEndian.encode 4 0,
    [p.driveNumber, 0], [extendedSignature], LittleEndian.encode 4 p.serial.toNat,
    p.label.toList, systemType]

def widths : List Nat := [3, 8, 2, 1, 2, 1, 2, 2, 1, 2, 2, 2, 4, 4, 2, 1, 4, 11, 8]

def pieceOffset (k : Nat) : Nat := (widths.take k).foldr (· + ·) 0

theorem fields_eq_pieces (p : Parameters) (g : Geometry) : fields p g = (pieces p g).flatten := by
  simp [fields, pieces]

theorem pieces_widths (p : Parameters) (g : Geometry) : (pieces p g).map List.length = widths := by
  simp [pieces, widths, LittleEndian.encode_length, jump, systemType]

section Pieces
variable {p : Parameters} {g : Geometry} {sector : ByteArray}
  (h : fields p g <+: Bytes.toList sector)
include h

theorem isPrefix_piece (k : Nat) {piece : List UInt8} (hk : (pieces p g)[k]? = some piece) :
    ((pieces p g).take k).flatten ++ piece <+: Bytes.toList sector := by
  obtain ⟨inside, e⟩ := List.getElem?_eq_some_iff.1 hk
  have split : pieces p g = (pieces p g).take k ++ piece :: (pieces p g).drop (k + 1) := by
    rw [← e, ← List.drop_eq_getElem_cons inside, List.take_append_drop]
  have flat : fields p g =
      ((pieces p g).take k).flatten ++ piece ++ ((pieces p g).drop (k + 1)).flatten := by
    rw [fields_eq_pieces, List.append_assoc, ← List.flatten_cons, ← List.flatten_append, ← split]
  rw [flat] at h
  exact (List.prefix_append _ _).trans h

omit h in
theorem pieceOffset_eq (k : Nat) : pieceOffset k = ((pieces p g).take k).flatten.length := by
  have length : ∀ l : List (List UInt8),
      (l.map List.length).foldr (· + ·) 0 = l.flatten.length := by
    intro l
    induction l with
    | nil => rfl
    | cons a l ih => rw [List.map_cons, List.foldr_cons, ih, List.flatten_cons, List.length_append]
  rw [pieceOffset, ← length, List.map_take, pieces_widths]

theorem word_of_piece (k : Nat) {x : UInt16}
    (hk : (pieces p g)[k]? = some (LittleEndian.encode 2 x.toNat)) :
    word sector (pieceOffset k) = .ok x :=
  word_of_isPrefix _ (isPrefix_piece h k hk) (pieceOffset_eq k)

theorem byte_of_piece (k : Nat) {x : UInt8} (hk : (pieces p g)[k]? = some [x]) :
    byte sector (pieceOffset k) = .ok x :=
  byte_of_isPrefix _ (isPrefix_piece h k hk) (pieceOffset_eq k)

theorem recorded_of_fields : recorded sector = .ok g := by
  have bytesPerSector : word sector Offset.bytesPerSector = _ := word_of_piece h 2 rfl
  have sectorsPerCluster : byte sector Offset.sectorsPerCluster = _ := byte_of_piece h 3 rfl
  have reservedSectors : word sector Offset.reservedSectors = _ := word_of_piece h 4 rfl
  have tableCount : byte sector Offset.tableCount = _ := byte_of_piece h 5 rfl
  have rootEntries : word sector Offset.rootEntries = _ := word_of_piece h 6 rfl
  have totalSectors : word sector Offset.totalSectors = _ := word_of_piece h 7 rfl
  have sectorsPerTable : word sector Offset.sectorsPerTable = _ := word_of_piece h 9 rfl
  rw [recorded, bytesPerSector, sectorsPerCluster, reservedSectors, tableCount, rootEntries,
    totalSectors, sectorsPerTable]
  rfl

theorem geometry_of_fields (valid : g.validate = .ok ()) : geometry sector = .ok g := by
  rw [geometry, Outcome.bind_ok (recorded_of_fields h), Outcome.bind_ok valid]
  rfl

end Pieces

section Encode
variable (p : Parameters) (g : Geometry)

theorem fields_isPrefix_encode : fields p g <+: Bytes.toList (encode p g) := by
  rw [encode, Bytes.toList_ofList, List.append_assoc]
  exact List.prefix_append _ _

theorem byte_jump : byte (encode p g) 0 = .ok 0xeb ∧ byte (encode p g) 1 = .ok 0x3c ∧
    byte (encode p g) 2 = .ok 0x90 := by
  obtain ⟨rest, split⟩ := isPrefix_piece (fields_isPrefix_encode p g) 0 rfl
  refine ⟨?_, ?_, ?_⟩ <;>
  · apply Outcome.orFault_some
    rw [Bytes.byte?_eq, ← split]
    rfl

theorem byte_signature : byte (encode p g) Offset.signature = .ok 0x55 ∧
    byte (encode p g) (Offset.signature + 1) = .ok 0xaa := by
  have front : (fields p g ++ List.replicate 448 0).length = Offset.signature := by
    rw [List.length_append, fields_length, List.length_replicate]
    rfl
  refine ⟨?_, ?_⟩ <;>
  · apply Outcome.orFault_some
    rw [Bytes.byte?_eq, encode, Bytes.toList_ofList, List.getElem?_append_right (by omega), front]
    rfl

theorem slice_systemType : Bytes.slice? (encode p g) Offset.systemType 8 =
    some (Bytes.ofList systemType) := by
  have piece := isPrefix_piece (fields_isPrefix_encode p g) 18 rfl
  have read := Bytes.slice?_of_isPrefix _ piece (pieceOffset_eq 18)
  exact read

end Encode

end BootSector

end BootDisk
