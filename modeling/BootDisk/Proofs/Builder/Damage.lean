import BootDisk.Proofs.Builder.Confinement
import BootDisk.Proofs.Builder.Regions

set_option autoImplicit false

namespace BootDisk.Builder

/-- The image with `value` stored as entry `n` in the copies of the table from number `copy` on. -/
def writeEntry (g : Geometry) (n value : Nat) : Nat → Nat → ByteArray → Outcome ByteArray
  | 0, _, image => pure image
  | left + 1, copy, image => do
    let bytes ← orFault .outOfBounds (Bytes.slice? image (g.tableOffset copy) g.tableSize)
    let (result, table) := AllocationTable.set n value ⟨bytes⟩
    result
    let image ← orFault .outOfBounds (Bytes.splice? image (g.tableOffset copy) table.bytes)
    writeEntry g n value left (copy + 1) image

theorem writeEntry_eq {g : Geometry} {table : AllocationTable}
    (size : table.bytes.size = g.tableSize) {n : Nat} (inside : n < table.capacity) (value : Nat)
    (left copy : Nat) {image : ByteArray} (room : g.tableOffset (copy + left) ≤ image.size)
    (copies : ∀ k, copy ≤ k → k < copy + left →
      Bytes.slice? image (g.tableOffset k) g.tableSize = some table.bytes) :
    writeEntry g n value left copy image =
      writeTables g (table.write n value inside).bytes left copy image := by
  induction left generalizing copy image with
  | zero => rfl
  | succ left ih =>
    have next : copy + 1 + left = copy + (left + 1) := by omega
    have own := g.stop_table_le (Nat.lt_add_one copy)
    have rest := g.tableOffset_mono (show copy + 1 ≤ copy + (left + 1) by omega)
    have same : (table.write n value inside).bytes.size = g.tableSize := by
      rw [AllocationTable.size_write, size]
    obtain ⟨middle, spliced⟩ : ∃ middle, Bytes.splice? image (g.tableOffset copy)
        (table.write n value inside).bytes = some middle :=
      Bytes.splice?_isSome (by rw [same]; omega)
    rw [writeEntry, Outcome.bind_ok (Outcome.orFault_some (copies copy (by omega) (by omega)))]
    rw [AllocationTable.set_eq_ok table n value inside]
    change orFault .outOfBounds (Bytes.splice? image (g.tableOffset copy)
      (table.write n value inside).bytes) >>= _ = _
    rw [writeTables, Outcome.bind_ok (Outcome.orFault_some spliced),
      Outcome.bind_ok (Outcome.orFault_some spliced)]
    apply ih
    · rw [next, Bytes.splice?_size spliced]
      exact room
    · -- The copies behind the one just written still hold the old table.
      intro k lower upper
      have apart := g.tableOffset_mono lower
      rw [Bytes.slice?_splice?_apart spliced (by omega)]
      exact copies k (by omega) (by omega)

section Damage
variable {g : Geometry} {s : Settings} {slots : List Slot} {b : Builder} (bounds : g.Bounds)
  (h : Holds g s slots b) (reserved : 1 ≤ g.reservedSectors.toNat)
  {image : ByteArray} (bytes : Bytes.toList image = finishedBytes g s slots b)
  (valid : g.validate = .ok ())
include bounds h reserved bytes valid

theorem mount_damaged {d : ByteArray} (size : d.size = image.size)
    (sector : Bytes.slice? d 0 Geometry.bootSectorSize =
      Bytes.slice? image 0 Geometry.bootSectorSize) {table : AllocationTable}
    (copy : Bytes.slice? d (g.tableOffset 0) g.tableSize = some table.bytes) :
    Volume.mount d = .ok ⟨d, g, table⟩ :=
  mount_of_slices s bounds valid (size.trans (size_finished bounds h reserved bytes))
    (sector.trans (sector_finished bytes)) copy

theorem mount_spliced {d new : ByteArray} {start : Nat}
    (spliced : Bytes.splice? image start new = some d) (behind : g.tableOffset 0 ≤ start)
    {table : AllocationTable}
    (copy : Bytes.slice? d (g.tableOffset 0) g.tableSize = some table.bytes) :
    Volume.mount d = .ok ⟨d, g, table⟩ := by
  have boot := bounds.bootSector_le_tableOffset reserved
  apply mount_damaged bounds h reserved bytes valid (Bytes.splice?_size spliced) _ copy
  exact Bytes.slice?_splice?_apart spliced (by omega)

end Damage

/-- The image `d` reads as before but for entry `c` of the table. -/
structure EntryWritten (g : Geometry) (s : Settings) (slots : List Slot) (b : Builder)
    (c value : Nat) (d : ByteArray) (table : AllocationTable) : Prop where
  mounted : Volume.mount d = .ok ⟨d, g, table⟩
  sector : Bytes.slice? d 0 Geometry.bootSectorSize = some (BootSector.encode (.ofSettings s) g)
  copy : Bytes.slice? d (g.tableOffset 0) g.tableSize = some table.bytes
  records : (⟨d, g, table⟩ : Volume).records = .ok (slots.map Slot.record)
  capacity : table.capacity = g.tableCapacity
  entries : ∀ m, table.entry m = if m = c then value else b.table.entry m

section Entry
variable {g : Geometry} {s : Settings} {slots : List Slot} {b : Builder} (bounds : g.Bounds)
  (h : Holds g s slots b) (reserved : 1 ≤ g.reservedSectors.toNat)
  {image : ByteArray} (bytes : Bytes.toList image = finishedBytes g s slots b)
  (valid : g.validate = .ok ())
include bounds h reserved bytes valid

theorem entry_written {c value : Nat} (used : c < b.allocator.next) (small : value < 0x1000) :
    ∃ d table, writeEntry g c value g.tableCount.toNat 0 image = .ok d ∧
      EntryWritten g s slots b c value d table := by
  have size := size_finished bounds h reserved bytes
  have last := bounds.dataOffset_lt_imageSize
  have data := g.dataOffset_eq
  have capacity := h.table.capacity
  have inside : c < b.table.capacity := by
    have := h.plan.next_le_capacity bounds
    omega
  have room : g.tableOffset (0 + g.tableCount.toNat) ≤ image.size := by
    rw [Nat.zero_add, g.tableOffset_count]
    omega
  let table := b.table.write c value inside
  have equal := writeEntry_eq h.table.size inside value g.tableCount.toNat 0 room
    fun k _ upper => tableCopy_finished bounds h reserved bytes (by omega)
  have same : table.bytes.size = g.tableSize := by rw [AllocationTable.size_write, h.table.size]
  obtain ⟨d, run, written⟩ := writeTables_written same g.tableCount.toNat 0 image room
  rw [Nat.zero_add] at written
  have sector := written.frame 0 Geometry.bootSectorSize (.inl (by
    rw [Nat.zero_add]
    exact bounds.bootSector_le_tableOffset reserved))
  have copy := written.copies 0 (Nat.le_refl _) bounds.tables
  have root := written.frame g.rootOffset g.rootSize (.inr (Nat.le_of_eq g.tableOffset_count))
  have region := root_finished bounds h reserved bytes
  refine ⟨d, table, equal.trans run, {
    mounted := mount_damaged bounds h reserved bytes valid written.size sector copy
    sector := sector.trans (sector_finished bytes)
    copy := copy
    records := ?_
    capacity := by rw [AllocationTable.capacity_write, capacity]
    entries := ?_ }⟩
  · rw [records_of_slice bounds table (root.trans region), ← records_of_slice bounds b.table region]
    exact records_finished bounds h reserved bytes
  · intro m
    rw [AllocationTable.entry_write, Nat.mod_eq_of_lt small]

end Entry

section Field
variable {g : Geometry} {s : Settings} {before after : List Slot} {t : Slot} {b : Builder}
  (bounds : g.Bounds) (h : Holds g s (before ++ t :: after) b)
  (reserved : 1 ≤ g.reservedSectors.toNat) {image : ByteArray}
  (bytes : Bytes.toList image = finishedBytes g s (before ++ t :: after) b)
include bounds h reserved bytes

theorem records_changed {left old new right : List UInt8}
    (own : t.record.encode = left ++ old ++ right) (width : new.length = old.length) {r : Record}
    (changed : r.encode = left ++ new ++ right) (name : r.name = t.record.name) :
    ∃ d, Bytes.splice? image (g.rootOffset + before.length * Geometry.recordSize + left.length)
        (Bytes.ofList new) = some d ∧
      ∀ table, (⟨d, g, table⟩ : Volume).records =
        .ok (before.map Slot.record ++ r :: after.map Slot.record) := by
  have front : (bootRegion g s ++ tableRegion b.table.bytes g.tableCount.toNat).length =
      g.rootOffset := by
    rw [List.length_append, length_bootRegion bounds reserved, length_tableRegion, h.table.size,
      g.rootOffset_eq]
  let blank := g.rootSize - (before ++ t :: after).length * Geometry.recordSize
  let head := (before.map Slot.record).flatMap Record.encode
  let rest := (after.map Slot.record).flatMap Record.encode ++ List.replicate blank 0
  let data := dataRegion g (before ++ t :: after) b.allocator.next
  have length : head.length = before.length * Geometry.recordSize := by
    rw [Record.length_flatMap_encode, List.length_map]
  have root : rootRegion g (before ++ t :: after) = head ++ t.record.encode ++ rest := by
    rw [rootRegion, List.map_append, List.map_cons, Record.flatMap_encode_split]
  have split : Bytes.toList image = bootRegion g s ++
      tableRegion b.table.bytes g.tableCount.toNat ++ head ++ left ++ old ++
        (right ++ rest ++ data) := by
    rw [bytes, finishedBytes, root, own]
    simp only [List.append_assoc]
    rfl
  refine ⟨_, Bytes.splice?_of_toList split ?_ ?_, ?_⟩
  · rw [List.length_append, List.length_append, front, length]
  · rw [Bytes.size_ofList, width]
  · intro table
    have replaced : Bytes.toList (Bytes.ofList (bootRegion g s ++
        tableRegion b.table.bytes g.tableCount.toNat ++ head ++ left ++
        Bytes.toList (Bytes.ofList new) ++ (right ++ rest ++ data))) = bootRegion g s ++
        tableRegion b.table.bytes g.tableCount.toNat ++ (head ++ r.encode ++ rest) ++ data := by
      rw [Bytes.toList_ofList, Bytes.toList_ofList, changed]
      simp only [List.append_assoc]
    have size : g.rootSize = (head ++ r.encode ++ rest).length := by
      rw [← h.plan.length_rootRegion bounds, root]
      simp only [List.length_append, Record.encode_length]
    have listed : Bytes.toList (Bytes.ofList (head ++ r.encode ++ rest)) =
        (before.map Slot.record ++ r :: after.map Slot.record).flatMap Record.encode ++
          List.replicate blank 0 := by
      rw [Bytes.toList_ofList, Record.flatMap_encode_split]
    rw [records_of_slice bounds table (Bytes.slice?_of_toList replaced front.symm size),
      Record.allIn_of_toList listed]
    intro q hq
    rcases List.mem_append.1 hq with earlier | here
    · obtain ⟨u, hu, rfl⟩ := List.mem_map.1 earlier
      exact h.plan.head_ne_zero (List.mem_append_left _ hu)
    · rcases List.mem_cons.1 here with same | later
      · rw [same, name]
        exact h.plan.head_ne_zero (by simp)
      · obtain ⟨u, hu, rfl⟩ := List.mem_map.1 later
        exact h.plan.head_ne_zero (by simp [hu])

end Field

end BootDisk.Builder
