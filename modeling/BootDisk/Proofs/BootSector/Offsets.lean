import BootDisk.Proofs.BootSector

set_option autoImplicit false

/-!
# Where the boot sector holds its fields

Each field is read back at its offset, least significant byte first, and what lies between the
fields is zero. So a sector determines what it was made from. The geometry is read from twelve
bytes, and two sectors that agree on these have the same geometry or the same defect.
-/
namespace BootDisk.BootSector

section Pieces
variable {p : Parameters} {g : Geometry} {sector : ByteArray}
  (h : fields p g <+: Bytes.toList sector)
include h

theorem slice_of_piece (k : Nat) {piece : List UInt8} {width : Nat}
    (hk : (pieces p g)[k]? = some piece) (hw : widths[k]? = some width) :
    Bytes.slice? sector (pieceOffset k) width = some (Bytes.ofList piece) := by
  have length : piece.length = width := by
    rw [← pieces_widths p g, List.getElem?_map, hk] at hw
    exact Option.some_inj.1 hw
  rw [← length]
  exact Bytes.slice?_of_isPrefix _ (isPrefix_piece h k hk) (pieceOffset_eq k)

theorem number_of_piece (k : Nat) {width n : Nat}
    (hk : (pieces p g)[k]? = some (LittleEndian.encode width n)) (hw : widths[k]? = some width)
    (fits : n < 1 <<< (8 * width)) : LittleEndian.field? sector (pieceOffset k) width = some n := by
  rw [LittleEndian.field?, slice_of_piece h k hk hw, Option.map_some, Bytes.toList_ofList,
    LittleEndian.decode_encode_of_lt fits]

theorem byte?_of_piece (k : Nat) {x : UInt8} (rest : List UInt8)
    (hk : (pieces p g)[k]? = some (x :: rest)) : Bytes.byte? sector (pieceOffset k) = some x := by
  have whole := isPrefix_piece h k hk
  rw [← List.singleton_append, ← List.append_assoc] at whole
  exact Bytes.byte?_of_isPrefix _ ((List.prefix_append _ _).trans whole) (pieceOffset_eq k)

end Pieces

/-- The sector holds the parameters and the geometry at the offsets of their fields. -/
structure Holds (p : Parameters) (g : Geometry) (sector : ByteArray) : Prop where
  jump : Bytes.slice? sector 0x00 3 = some (Bytes.ofList jump)
  systemName : Bytes.slice? sector 0x03 8 = some (Bytes.ofList p.systemName.toList)
  bytesPerSector : LittleEndian.field? sector 0x0b 2 = some g.bytesPerSector.toNat
  sectorsPerCluster : Bytes.byte? sector 0x0d = some g.sectorsPerCluster
  reservedSectors : LittleEndian.field? sector 0x0e 2 = some g.reservedSectors.toNat
  tableCount : Bytes.byte? sector 0x10 = some g.tableCount
  rootEntries : LittleEndian.field? sector 0x11 2 = some g.rootEntries.toNat
  totalSectors : LittleEndian.field? sector 0x13 2 = some g.totalSectors.toNat
  media : Bytes.byte? sector 0x15 = some p.media
  sectorsPerTable : LittleEndian.field? sector 0x16 2 = some g.sectorsPerTable.toNat
  sectorsPerTrack : LittleEndian.field? sector 0x18 2 = some p.sectorsPerTrack.toNat
  headCount : LittleEndian.field? sector 0x1a 2 = some p.headCount.toNat
  hiddenSectors : LittleEndian.field? sector 0x1c 4 = some p.hiddenSectors.toNat
  driveNumber : Bytes.byte? sector 0x24 = some p.driveNumber
  extendedSignature : Bytes.byte? sector 0x26 = some extendedSignature
  serial : LittleEndian.field? sector 0x27 4 = some p.serial.toNat
  label : Bytes.slice? sector 0x2b 11 = some (Bytes.ofList p.label.toList)
  systemType : Bytes.slice? sector 0x36 8 = some (Bytes.ofList systemType)
  signature : Bytes.slice? sector 0x1fe 2 = some (Bytes.ofList signature)

/-- The bytes that belong to a field: all up to the head count and the hidden sectors, the drive
number, all from the extended signature to the system type, and the signature at the end. -/
def Covered (i : Nat) : Prop := i < 0x20 ∨ i = 0x24 ∨ 0x26 ≤ i ∧ i < 0x3e ∨ 0x1fe ≤ i ∧ i < 0x200

instance (i : Nat) : Decidable (Covered i) := inferInstanceAs (Decidable (_ ∨ _))

theorem toList_encode (p : Parameters) (g : Geometry) :
    Bytes.toList (encode p g) = fields p g ++ List.replicate 448 0 ++ signature := rfl

theorem holds_encode (p : Parameters) (g : Geometry) : Holds p g (encode p g) :=
  have h := fields_isPrefix_encode p g
  { jump := slice_of_piece h 0 rfl rfl
    systemName := slice_of_piece h 1 rfl rfl
    bytesPerSector := number_of_piece h 2 rfl rfl g.bytesPerSector.toNat_lt
    sectorsPerCluster := byte?_of_piece h 3 [] rfl
    reservedSectors := number_of_piece h 4 rfl rfl g.reservedSectors.toNat_lt
    tableCount := byte?_of_piece h 5 [] rfl
    rootEntries := number_of_piece h 6 rfl rfl g.rootEntries.toNat_lt
    totalSectors := number_of_piece h 7 rfl rfl g.totalSectors.toNat_lt
    media := byte?_of_piece h 8 [] rfl
    sectorsPerTable := number_of_piece h 9 rfl rfl g.sectorsPerTable.toNat_lt
    sectorsPerTrack := number_of_piece h 10 rfl rfl p.sectorsPerTrack.toNat_lt
    headCount := number_of_piece h 11 rfl rfl p.headCount.toNat_lt
    hiddenSectors := number_of_piece h 12 rfl rfl p.hiddenSectors.toNat_lt
    driveNumber := byte?_of_piece h 14 [0] rfl
    extendedSignature := byte?_of_piece h 15 [] rfl
    serial := number_of_piece h 16 rfl rfl p.serial.toNat_lt
    label := slice_of_piece h 17 rfl rfl
    systemType := slice_of_piece h 18 rfl rfl
    signature := by
      refine Bytes.slice?_of_toList ((toList_encode p g).trans (List.append_nil _).symm) ?_ rfl
      rw [List.length_append, fields_length, List.length_replicate] }

theorem byte?_uncovered (p : Parameters) (g : Geometry) {i : Nat} (inside : i < 512)
    (uncovered : ¬ Covered i) : Bytes.byte? (encode p g) i = some 0 := by
  have h := fields_isPrefix_encode p g
  have large : Bytes.slice? (encode p g) 0x20 4 = some (Bytes.ofList (List.replicate 4 0)) :=
    slice_of_piece h 13 rfl rfl
  have drive : Bytes.slice? (encode p g) 0x24 2 = some (Bytes.ofList [p.driveNumber, 0]) :=
    slice_of_piece h 14 rfl rfl
  have gap : Bytes.slice? (encode p g) 0x3e 448 = some (Bytes.ofList (List.replicate 448 0)) :=
    Bytes.slice?_of_toList (toList_encode p g) (fields_length p g).symm List.length_replicate.symm
  unfold Covered at uncovered
  by_cases first : i < 0x24
  · exact Bytes.byte?_of_zeros large (by omega) first
  · by_cases second : i = 0x25
    · rw [second]
      exact (Bytes.byte?_slice? drive (by decide : 1 < 2)).symm
    · exact Bytes.byte?_of_zeros gap (by omega) (by omega)

theorem ofList_toList_inj {n : Nat} {v w : Vector UInt8 n} :
    Bytes.ofList v.toList = Bytes.ofList w.toList ↔ v = w := by
  rw [← Bytes.toList_inj, Bytes.toList_ofList, Bytes.toList_ofList, Vector.toList_inj]

section Unique
variable {p p' : Parameters} {g g' : Geometry} {sector : ByteArray} (h : Holds p g sector)
  (h' : Holds p' g' sector)
include h h'

theorem Holds.parameters_unique : p = p' := by
  have systemName := Option.some.inj (h.systemName.symm.trans h'.systemName)
  have media := Option.some.inj (h.media.symm.trans h'.media)
  have sectorsPerTrack := Option.some.inj (h.sectorsPerTrack.symm.trans h'.sectorsPerTrack)
  have headCount := Option.some.inj (h.headCount.symm.trans h'.headCount)
  have hiddenSectors := Option.some.inj (h.hiddenSectors.symm.trans h'.hiddenSectors)
  have driveNumber := Option.some.inj (h.driveNumber.symm.trans h'.driveNumber)
  have serial := Option.some.inj (h.serial.symm.trans h'.serial)
  have label := Option.some.inj (h.label.symm.trans h'.label)
  rw [ofList_toList_inj] at systemName label
  rw [UInt16.toNat_inj] at sectorsPerTrack headCount
  rw [UInt32.toNat_inj] at hiddenSectors serial
  cases p
  cases p'
  simp_all only

theorem Holds.geometry_unique : g = g' := by
  have bytesPerSector := Option.some.inj (h.bytesPerSector.symm.trans h'.bytesPerSector)
  have totalSectors := Option.some.inj (h.totalSectors.symm.trans h'.totalSectors)
  have sectorsPerCluster := Option.some.inj (h.sectorsPerCluster.symm.trans h'.sectorsPerCluster)
  have reservedSectors := Option.some.inj (h.reservedSectors.symm.trans h'.reservedSectors)
  have tableCount := Option.some.inj (h.tableCount.symm.trans h'.tableCount)
  have rootEntries := Option.some.inj (h.rootEntries.symm.trans h'.rootEntries)
  have sectorsPerTable := Option.some.inj (h.sectorsPerTable.symm.trans h'.sectorsPerTable)
  rw [UInt16.toNat_inj] at bytesPerSector totalSectors reservedSectors rootEntries sectorsPerTable
  cases g
  cases g'
  simp_all only

end Unique

/-- The bytes of the seven fields of the geometry, which lie on both sides of the media byte. -/
def InGeometry (i : Nat) : Prop := 0x0b ≤ i ∧ i < 0x18 ∧ i ≠ 0x15

instance (i : Nat) : Decidable (InGeometry i) := inferInstanceAs (Decidable (_ ∧ _))

section Agree
variable {a b : ByteArray} (same : ∀ i, InGeometry i → Bytes.byte? a i = Bytes.byte? b i)
include same

theorem word_congr (start : Nat) (first : InGeometry start) (second : InGeometry (start + 1)) :
    word a start = word b start := by
  have slices : Bytes.slice? a start 2 = Bytes.slice? b start 2 := by
    apply Bytes.slice?_of_same (by decide)
    intro i lower upper
    obtain rfl | rfl : i = start ∨ i = start + 1 := by omega
    · exact same _ first
    · exact same _ second
  rw [word, word, LittleEndian.field?, LittleEndian.field?, slices]

theorem byte_congr (i : Nat) (h : InGeometry i) : byte a i = byte b i := by
  rw [byte, byte, same i h]

theorem recorded_congr : recorded a = recorded b := by
  unfold recorded
  rw [word_congr same Offset.bytesPerSector (by decide) (by decide),
    word_congr same Offset.totalSectors (by decide) (by decide),
    byte_congr same Offset.sectorsPerCluster (by decide),
    word_congr same Offset.reservedSectors (by decide) (by decide),
    byte_congr same Offset.tableCount (by decide),
    word_congr same Offset.rootEntries (by decide) (by decide),
    word_congr same Offset.sectorsPerTable (by decide) (by decide)]

theorem geometry_congr : geometry a = geometry b := by
  rw [geometry, geometry, recorded_congr same]

end Agree

theorem geometry_of_invalid {p : Parameters} {g : Geometry} {e : Failure}
    (h : g.validate = .error e) : geometry (encode p g) = .error e := by
  rw [geometry, Outcome.bind_ok (recorded_of_fields (fields_isPrefix_encode p g))]
  exact Outcome.bind_error h

/-- The sector gives back all that it was made from, and is zero elsewhere. Its geometry is read
back as it was, or refused for what is wrong with it, whatever the other bytes are. -/
theorem encode_lossless (p : Parameters) (g : Geometry) :
    (encode p g).size = 512 ∧ Holds p g (encode p g) ∧
    (∀ i < 512, ¬ Covered i → Bytes.byte? (encode p g) i = some 0) ∧
    (g.validate = .ok () → geometry (encode p g) = .ok g) ∧
    (∀ e, g.validate = .error e → geometry (encode p g) = .error e) ∧
    (∀ p' g', encode p g = encode p' g' → p = p' ∧ g = g') ∧
    (∀ tail, geometry (encode p g ++ tail) = geometry (encode p g)) ∧
    ∀ other, (∀ i, InGeometry i → Bytes.byte? other i = Bytes.byte? (encode p g) i) →
      geometry other = geometry (encode p g) := by
  refine ⟨encode_size p g, holds_encode p g, fun i => byte?_uncovered p g,
    geometry_of_fields (fields_isPrefix_encode p g), fun e => geometry_of_invalid, ?_, ?_,
    fun other => geometry_congr⟩
  · intro p' g' same
    have holds := holds_encode p' g'
    rw [← same] at holds
    exact ⟨(holds_encode p g).parameters_unique holds, (holds_encode p g).geometry_unique holds⟩
  · intro tail
    apply geometry_congr
    intro i inside
    apply Bytes.byte?_append_left
    have upper := inside.2.1
    rw [encode_size]
    omega

theorem floppy_lossless : ∃ refused : Failure,
    Bytes.byte? (encode {} .floppy) 0x25 = some 0 ∧ geometry (encode {} .floppy) = .ok .floppy ∧
    geometry (encode {} { Geometry.floppy with tableCount := 0 }) = .error refused ∧
    encode {} .floppy ≠ encode { media := 0xf0 } .floppy ∧
    geometry ((encode {} .floppy).set 0x15 0xf0 (by rw [encode_size]; decide)) = .ok .floppy := by
  obtain ⟨_, _, zero, valid, _, unique, _, congr⟩ := encode_lossless {} .floppy
  obtain ⟨_, _, _, _, invalid, _⟩ := encode_lossless {} { Geometry.floppy with tableCount := 0 }
  have read := valid rfl
  refine ⟨_, zero 0x25 (by decide) (by decide), read, invalid _ rfl, fun same => ?_, ?_⟩
  · cases (unique _ _ same).1
  · rw [congr _ fun i inside => Bytes.byte?_set_other _ _ fun here => inside.2.2 here.symm]
    exact read

end BootDisk.BootSector
