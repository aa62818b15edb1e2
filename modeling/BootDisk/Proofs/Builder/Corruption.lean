import BootDisk.Proofs.Audit.Completion
import BootDisk.Proofs.Builder.Damage

set_option autoImplicit false

/-!
# A changed field is caught

An image that was built tells each of its facts in more than one place: a run by its chain, by the
first cluster and by the size, the first two entries of the table beside the media byte, and the
table in every copy. After a change of one field the audit still ends, and finds that these places
disagree.
-/
namespace BootDisk.Builder

section Table
variable {g : Geometry} {s : Settings} {slots : List Slot} {b : Builder} (bounds : g.Bounds)
  (h : Holds g s slots b) (reserved : 1 ≤ g.reservedSectors.toNat)
  {image : ByteArray} (bytes : Bytes.toList image = finishedBytes g s slots b)
  (valid : g.validate = .ok ())
include bounds h reserved bytes valid

/-- Wherever the value points, the chain of some file no longer fits its record. -/
theorem caught_linked {c value : Nat} (lower : Geometry.firstCluster ≤ c)
    (used : c < b.allocator.next) (small : value < 0x1000) (differs : value ≠ b.table.entry c)
    (marks : ¬ (AllocationTable.isEndMark value = true ∧
      AllocationTable.isEndMark (b.table.entry c) = true)) :
    ∃ d, writeEntry g c value g.tableCount.toNat 0 image = .ok d ∧ Audit.Caught d := by
  obtain ⟨d, table, run, written⟩ := entry_written bounds h reserved bytes valid used small
  refine ⟨d, run, Audit.caught_of_mount written.mounted ?_⟩
  intro records _ listed orderly
  cases listed.symm.trans written.records
  obtain ⟨t, ht, first, last⟩ := h.plan.exists_run lower used
  obtain ⟨before, after, rfl⟩ := List.append_of_mem ht
  rw [List.map_append, List.map_cons] at orderly
  rcases entry_settled bounds h written.capacity first last
    (by rw [written.entries, if_pos rfl]) (fun m other => by rw [written.entries, if_neg other])
    orderly with same | both
  · exact differs same
  · exact marks both

theorem caught_reserved {c value : Nat} (upper : c < Geometry.firstCluster)
    (small : value < 0x1000) (differs : value ≠ b.table.entry c) :
    ∃ d, writeEntry g c value g.tableCount.toNat 0 image = .ok d ∧ Audit.Caught d := by
  have lower := h.plan.first_le
  obtain ⟨d, table, run, written⟩ :=
    entry_written bounds h reserved bytes valid (c := c) (by omega) small
  refine ⟨d, run, Audit.caught_of_mount written.mounted ?_⟩
  intro records tables _ _
  obtain ⟨first, media, here, recorded, b₀, b₁, b₂⟩ := Audit.reserved_of_tables tables
  cases here.symm.trans (Outcome.orFault_some written.copy)
  -- The media byte that the audit goes by is that of the boot sector, which is still in place.
  have front := Bytes.extract_of_slice? written.sector
  rw [Nat.zero_add] at front
  have expected : BootSector.byte (d.extract 0 Geometry.bootSectorSize)
      (BootSector.pieceOffset 8) = .ok 0xf8 := by
    rw [front]
    exact BootSector.byte_of_piece (BootSector.fields_isPrefix_encode _ _) 8 rfl
  cases recorded.symm.trans expected
  obtain ⟨zero, one⟩ := AllocationTable.entry_of_reserved_bytes b₀ b₁ b₂
  rw [written.entries] at zero one
  unfold Geometry.firstCluster at upper
  by_cases low : c = 0
  · subst low
    rw [if_pos rfl] at zero
    exact differs (zero.trans h.table.media.symm)
  · have high : c = 1 := by omega
    subst high
    rw [if_pos rfl] at one
    exact differs (one.trans h.table.ones.symm)

theorem caught_copy {copy i : Nat} {x : UInt8} (several : 2 ≤ g.tableCount.toNat)
    (inside : copy < g.tableCount.toNat) (within : i < g.tableSize)
    (differs : Bytes.byte? image (g.tableOffset copy + i) ≠ some x) :
    ∃ d, Bytes.splice? image (g.tableOffset copy + i) (Bytes.ofList [x]) = some d ∧
      Audit.Caught d := by
  have size := size_finished bounds h reserved bytes
  have stop := g.stop_table_le_root inside
  have data := g.dataOffset_eq
  have last := bounds.dataOffset_lt_imageSize
  have front := g.tableOffset_mono (Nat.zero_le copy)
  have one : (Bytes.ofList [x]).size = 1 := rfl
  obtain ⟨d, spliced⟩ : ∃ d,
      Bytes.splice? image (g.tableOffset copy + i) (Bytes.ofList [x]) = some d :=
    Bytes.splice?_isSome (by omega)
  have same := Bytes.splice?_size spliced
  have zero := g.stop_table_le_root bounds.tables
  obtain ⟨table, held⟩ : ∃ table, Bytes.slice? d (g.tableOffset 0) g.tableSize = some table :=
    Bytes.slice?_isSome (by omega)
  have mounted : Volume.mount d = .ok ⟨d, g, ⟨table⟩⟩ :=
    mount_spliced bounds h reserved bytes valid spliced (by omega) held
  refine ⟨d, spliced, Audit.caught_of_mount mounted ?_⟩
  intro records tables _ _
  obtain ⟨first, equal⟩ := Audit.tableCopy_of_tables tables
  have here := Outcome.orFault_eq_ok_iff.1 (equal copy inside)
  -- For the audit the copies agree, and another one still holds the byte as it was.
  obtain ⟨other, another, apart⟩ := g.exists_other_table several copy
  have there := Outcome.orFault_eq_ok_iff.1 (equal other another)
  dsimp only at here there
  rw [Bytes.slice?_splice?_apart spliced (by omega),
    tableCopy_finished bounds h reserved bytes another, Option.some_inj] at there
  subst there
  apply differs
  rw [← Bytes.byte?_slice? (tableCopy_finished bounds h reserved bytes inside) within,
    Bytes.byte?_slice? here within, Bytes.byte?_splice? spliced, if_pos (by omega),
    Nat.sub_self]
  rfl

end Table

section Fields
variable {g : Geometry} {s : Settings} {before after : List Slot} {t : Slot} {b : Builder}
  (bounds : g.Bounds) (h : Holds g s (before ++ t :: after) b)
  (reserved : 1 ≤ g.reservedSectors.toNat) {image : ByteArray}
  (bytes : Bytes.toList image = finishedBytes g s (before ++ t :: after) b)
  (valid : g.validate = .ok ())
include bounds h reserved bytes valid

theorem caught_field {left old new right : List UInt8}
    (own : t.record.encode = left ++ old ++ right) (width : new.length = old.length) {r : Record}
    (changed : r.encode = left ++ new ++ right) (name : r.name = t.record.name)
    (disorder : ∀ d, ¬ Audit.Orderly ⟨d, g, b.table⟩
      (before.map Slot.record ++ r :: after.map Slot.record)) :
    ∃ d, Bytes.splice? image (g.rootOffset + before.length * Geometry.recordSize + left.length)
        (Bytes.ofList new) = some d ∧ Audit.Caught d := by
  obtain ⟨d, spliced, records⟩ := records_changed bounds h reserved bytes own width changed name
  have zero := g.stop_table_le_root bounds.tables
  have copy : Bytes.slice? d (g.tableOffset 0) g.tableSize = some b.table.bytes := by
    rw [Bytes.slice?_splice?_apart spliced (by omega)]
    exact tableCopy_finished bounds h reserved bytes bounds.tables
  refine ⟨d, spliced, Audit.caught_of_mount
    (mount_spliced bounds h reserved bytes valid spliced (by omega) copy) ?_⟩
  intro listed _ run orderly
  cases run.symm.trans (records b.table)
  exact disorder d orderly

theorem caught_start {start : UInt16} (differs : start ≠ t.record.firstCluster) :
    ∃ d, Bytes.splice? image
        (g.rootOffset + before.length * Geometry.recordSize + Record.clusterField)
        (Bytes.ofList (LittleEndian.encode 2 start.toNat)) = some d ∧ Audit.Caught d := by
  rw [← t.record.length_front]
  refine caught_field bounds h reserved bytes valid (r := { t.record with firstCluster := start })
    t.record.encode_eq ?_ (Record.encode_eq _) rfl fun d orderly => ?_
  · rw [LittleEndian.encode_length, LittleEndian.encode_length]
  · exact differs (start_settled bounds h orderly)

theorem caught_size {size : UInt32} (nonempty : size ≠ 0)
    (differs : clustersExact size.toNat g.clusterSize ≠
      clustersExact t.record.size.toNat g.clusterSize) :
    ∃ d, Bytes.splice? image
        (g.rootOffset + before.length * Geometry.recordSize + Record.sizeField)
        (Bytes.ofList (LittleEndian.encode 4 size.toNat)) = some d ∧ Audit.Caught d := by
  have front : (t.record.front ++ LittleEndian.encode 2 t.record.firstCluster.toNat).length =
      Record.sizeField := by
    rw [List.length_append, t.record.length_front, LittleEndian.encode_length]
    rfl
  have own : t.record.encode = t.record.front ++
      LittleEndian.encode 2 t.record.firstCluster.toNat ++
      LittleEndian.encode 4 t.record.size.toNat ++ [] := by
    rw [List.append_nil, t.record.encode_eq]
  have changed : { t.record with size }.encode = t.record.front ++
      LittleEndian.encode 2 t.record.firstCluster.toNat ++
      LittleEndian.encode 4 size.toNat ++ [] := by
    rw [List.append_nil, Record.encode_eq]
    rfl
  rw [← front]
  refine caught_field bounds h reserved bytes valid own ?_ changed rfl fun d orderly => ?_
  · rw [LittleEndian.encode_length, LittleEndian.encode_length]
  · exact differs (size_settled bounds h nonempty orderly)

end Fields

/-- The changes of one field that an audit of the volume finds. Clusters from `next` on are free. -/
structure Guarded (v : Volume) (records : List Record) (next : Nat) : Prop where
  /-- Another value for a cluster in use, in every copy, unless it ends the chain as before. -/
  linked : ∀ c value, Geometry.firstCluster ≤ c → c < next → value < 0x1000 →
    value ≠ v.table.entry c →
    ¬ (AllocationTable.isEndMark value = true ∧
      AllocationTable.isEndMark (v.table.entry c) = true) →
    ∃ d, writeEntry v.geometry c value v.geometry.tableCount.toNat 0 v.image = .ok d ∧
      Audit.Caught d
  reserved : ∀ c value, c < Geometry.firstCluster → value < 0x1000 → value ≠ v.table.entry c →
    ∃ d, writeEntry v.geometry c value v.geometry.tableCount.toNat 0 v.image = .ok d ∧
      Audit.Caught d
  start : ∀ (i : Nat) r (start : UInt16), records[i]? = some r → start ≠ r.firstCluster →
    ∃ d, Bytes.splice? v.image
        (v.geometry.rootOffset + i * Geometry.recordSize + Record.clusterField)
        (Bytes.ofList (LittleEndian.encode 2 start.toNat)) = some d ∧ Audit.Caught d
  size : ∀ (i : Nat) r (size : UInt32), records[i]? = some r → size ≠ 0 →
    clustersExact size.toNat v.geometry.clusterSize ≠
      clustersExact r.size.toNat v.geometry.clusterSize →
    ∃ d, Bytes.splice? v.image
        (v.geometry.rootOffset + i * Geometry.recordSize + Record.sizeField)
        (Bytes.ofList (LittleEndian.encode 4 size.toNat)) = some d ∧ Audit.Caught d
  copy : ∀ copy i x, 2 ≤ v.geometry.tableCount.toNat → copy < v.geometry.tableCount.toNat →
    i < v.geometry.tableSize →
    Bytes.byte? v.image (v.geometry.tableOffset copy + i) ≠ some x →
    ∃ d, Bytes.splice? v.image (v.geometry.tableOffset copy + i) (Bytes.ofList [x]) = some d ∧
      Audit.Caught d

theorem exists_split {slots : List Slot} {i : Nat} {r : Record}
    (h : (slots.map Slot.record)[i]? = some r) : ∃ before t after,
      slots = before ++ t :: after ∧ before.length = i ∧ t.record = r := by
  rw [List.getElem?_map, Option.map_eq_some_iff] at h
  obtain ⟨t, here, recorded⟩ := h
  obtain ⟨inside, found⟩ := List.getElem?_eq_some_iff.1 here
  refine ⟨slots.take i, t, slots.drop (i + 1), ?_, ?_, recorded⟩
  · rw [← found, ← List.drop_eq_getElem_cons inside, List.take_append_drop]
  · rw [List.length_take]
    omega

theorem Holds.guarded {g : Geometry} {s : Settings} {slots : List Slot} {b : Builder}
    (bounds : g.Bounds) (h : Holds g s slots b) (reserved : 1 ≤ g.reservedSectors.toNat)
    {image : ByteArray} (bytes : Bytes.toList image = finishedBytes g s slots b)
    (valid : g.validate = .ok ()) :
    Guarded ⟨image, g, b.table⟩ (slots.map Slot.record) b.allocator.next where
  linked := fun _ _ => caught_linked bounds h reserved bytes valid
  reserved := fun _ _ => caught_reserved bounds h reserved bytes valid
  start := by
    intro i r start listed
    obtain ⟨before, t, after, rfl, rfl, rfl⟩ := exists_split listed
    exact caught_start bounds h reserved bytes valid
  size := by
    intro i r size listed
    obtain ⟨before, t, after, rfl, rfl, rfl⟩ := exists_split listed
    exact caught_size bounds h reserved bytes valid
  copy := fun _ _ _ => caught_copy bounds h reserved bytes valid

/-- In every image that was built, a change of one field is caught. -/
theorem addAll_guarded (g : Geometry) (s : Settings) (valid : g.validate = .ok ())
    (reserved : 1 ≤ g.reservedSectors.toNat) :
    ∃ first, start g s = .ok first ∧ ∀ files b, addAll files first = (.ok (), b) →
      ∃ image v records, b.finish = .ok image ∧ Volume.mount image.bytes = .ok v ∧
        v.image = image.bytes ∧ v.geometry = g ∧ v.records = .ok records ∧
        records.length = files.length ∧ Guarded v records b.allocator.next := by
  have bounds := Geometry.bounds_of_validate valid
  obtain ⟨first, run, fresh⟩ := start_holds s valid
  refine ⟨first, run, fun files b added => ?_⟩
  obtain ⟨slots, rfl, h⟩ := addAll_holds bounds files fresh added
  rw [List.nil_append] at h
  obtain ⟨image, finished, _, bytes⟩ := finish_eq_ok bounds h reserved
  exact ⟨image, ⟨image.bytes, g, b.table⟩, slots.map Slot.record, finished,
    mount_finished bounds h reserved bytes valid, rfl, rfl,
    records_finished bounds h reserved bytes, by rw [List.length_map, List.length_map],
    h.guarded bounds reserved bytes valid⟩

/-- The record of the only file is given the cluster behind its own. -/
theorem floppy_guarded : ∃ first b image v d, start Geometry.floppy {} = .ok first ∧
    addAll [letter] first = (.ok (), b) ∧ b.finish = .ok image ∧
    Volume.mount image.bytes = .ok v ∧
    Bytes.splice? image.bytes (Geometry.floppy.rootOffset + Record.clusterField)
      (Bytes.ofList [3, 0]) = some d ∧ Audit.Caught d := by
  have valid : Geometry.floppy.validate = .ok () := rfl
  have bounds := Geometry.bounds_of_validate valid
  have reserved : 1 ≤ Geometry.floppy.reservedSectors.toNat := by decide
  obtain ⟨first, run, guarded⟩ := addAll_guarded Geometry.floppy {} valid reserved
  obtain ⟨same, t, b, again, added, file, holds⟩ := floppy_takes_letter
  cases run.symm.trans again
  obtain ⟨image, v, records, finished, mounted, whole, layout, listed, _, guard⟩ :=
    guarded [letter] b added
  obtain ⟨other, repeated, _, bytes⟩ := finish_eq_ok bounds holds reserved
  cases finished.symm.trans repeated
  cases mounted.symm.trans (mount_finished bounds holds reserved bytes valid)
  cases listed.symm.trans (records_finished bounds holds reserved bytes)
  have differs : (3 : UInt16) ≠ t.record.firstCluster := by
    intro moved
    have start := holds.plan.toNat_firstCluster bounds (t := t) (by simp)
    rw [← moved, show t.start = 2 from holds.plan.tile.1] at start
    cases start
  obtain ⟨d, spliced, caught⟩ := guard.start 0 t.record 3 rfl differs
  have field : LittleEndian.encode 2 (3 : UInt16).toNat = [3, 0] := rfl
  rw [field, Nat.zero_mul, Nat.add_zero] at spliced
  exact ⟨first, b, image, _, d, run, added, finished, mounted, spliced, caught⟩

end BootDisk.Builder
