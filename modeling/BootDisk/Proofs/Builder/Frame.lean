import BootDisk.Proofs.Allocator
import BootDisk.Proofs.Builder.Plan
import BootDisk.Proofs.Directory.Root

set_option autoImplicit false

/-!
# What every attempt keeps

The parts of a builder have the sizes of the layout, its image starts with the boot sector, and the
cursor of its allocator stays in the data region. This decides in which way adding a file ends: it
fails and changes nothing; it places the file in the next clusters; or the number of clusters does
not fit 32 bits, and the step of the allocator stays. Each of them keeps the frame.
-/
namespace BootDisk.Builder

structure Framed (g : Geometry) (s : Settings) (b : Builder) : Prop where
  geometry : b.geometry = g
  image : b.image.size = g.imageSize
  sector : Bytes.slice? b.image 0 Geometry.bootSectorSize =
    some (BootSector.encode (.ofSettings s) g)
  table : b.table.bytes.size = g.tableSize
  root : b.root.bytes.size = g.rootSize
  slots : b.root.capacity = g.rootEntries
  maxCluster : b.allocator.maxCluster = g.maxCluster
  clusterSize : b.allocator.clusterSize = g.clusterSize
  lower : Geometry.firstCluster ≤ b.allocator.next
  upper : b.allocator.next ≤ g.maxCluster + 1

def advance (b : Builder) (count : Nat) : Builder :=
  { b with allocator := { b.allocator with next := b.allocator.next + count } }

theorem Framed.advance {g : Geometry} {s : Settings} {b : Builder} (h : Framed g s b) {count : Nat}
    (within : b.allocator.next + count ≤ g.maxCluster + 1) : Framed g s (b.advance count) :=
  { h with
    lower := Nat.le_trans h.lower (Nat.le_add_right _ _)
    upper := within }

section Refused
variable {b : Builder} {f : SourceFile}

theorem add_invalid {e : Failure} (invalid : Record.make f.name f.ext 0 0 = .error e) :
    add f b = (.error e, b) := by
  rw [add, Step.get_bind, Step.lift_bind_error invalid]

theorem add_refused {draft : Record} (made : Record.make f.name f.ext 0 0 = .ok draft)
    {e : Failure} (refused : b.root.check draft = .error e) : add f b = (.error e, b) := by
  rw [add, Step.get_bind, Step.lift_bind_ok made, Step.lift_bind_error refused]

theorem add_unallocated {draft : Record} (made : Record.make f.name f.ext 0 0 = .ok draft)
    (checked : b.root.check draft = .ok ()) {e : Failure}
    (refused : Allocator.allocate f.display f.size b.allocator = (.error e, b.allocator)) :
    add f b = (.error e, b) := by
  have same : onAllocator (Allocator.allocate f.display f.size) b = (.error e, b) :=
    Step.within_error refused
  rw [add, Step.get_bind, Step.lift_bind_ok made, Step.lift_bind_ok checked, Step.bind_error same]

end Refused

section Taken
variable {g : Geometry} {s : Settings} {b : Builder} (bounds : g.Bounds) (h : Framed g s b)
  {t : Slot} (nonempty : t.file.size ≠ 0) (start : t.start = b.allocator.next)
  (within : t.start + t.count g ≤ g.maxCluster + 1)
include bounds h nonempty start within

theorem allocate_next : onAllocator (Allocator.allocate t.file.display t.file.size) b =
    (.ok (t.extent g), b.advance (t.count g)) := by
  have needed : clustersNeeded t.file.size b.allocator.clusterSize = t.count g := by
    rw [h.clusterSize]
    rfl
  have extent : (⟨b.allocator.next, t.count g⟩ : Extent) = t.extent g := by
    rw [← start]
    rfl
  have run : Allocator.allocate t.file.display t.file.size b.allocator = _ :=
    Allocator.allocate_eq_ok (by rw [h.clusterSize]; exact bounds.clusterSize_pos) nonempty (by
      rw [needed, Allocator.remaining, h.maxCluster]
      omega)
  rw [needed, extent] at run
  exact Step.within_ok run

omit nonempty in
theorem extent_inside : Geometry.firstCluster ≤ (t.extent g).start ∧
    g.clusterOffset (t.extent g).start + (t.extent g).count * g.clusterSize ≤ b.image.size := by
  have lower : Geometry.firstCluster ≤ t.start := start ▸ h.lower
  have stop := bounds.clusterOffset_le within
  rw [g.clusterOffset_add lower, ← h.image] at stop
  exact ⟨lower, stop⟩

variable (made : Record.make t.file.name t.file.ext 0 0 = .ok t.draft)
  (checked : b.root.check t.draft = .ok ())
include made checked

theorem add_eq_copy {result : Except Failure Placement} {c : Builder}
    (rest : ((onImage (Extent.copy g (t.extent g) t.file.contents)) >>= fun _ => do
      onTable (AllocationTable.link t.start (t.count g))
      onRoot (RootDirectory.push t.record)
      modify fun b => { b with placed := b.placed.push (t.placement g) }
      return t.placement g : Step Builder Placement) (b.advance (t.count g)) = (result, c)) :
    add t.file b = (result, c) := by
  obtain ⟨lower, stop⟩ := extent_inside bounds h start within
  rw [add, Step.get_bind, Step.lift_bind_ok made, Step.lift_bind_ok checked,
    Step.bind_ok (allocate_next bounds h nonempty start within), h.geometry,
    Step.lift_bind_ok (bounds.checked_clusterOffset lower),
    Step.lift_bind_ok (Extent.range_eq_ok bounds lower)]
  dsimp only
  rw [if_neg (by omega)]
  exact rest

theorem add_truncated (long : t.count g * g.clusterSize < t.file.size) : add t.file b =
    (.error (.error (.transfer (.access (.tooLong t.file.size (t.count g))))),
      b.advance (t.count g)) := by
  obtain ⟨lower, stop⟩ := extent_inside bounds h start within
  have copied : onImage (Extent.copy g (t.extent g) t.file.contents) (b.advance (t.count g)) =
      (.error _, b.advance (t.count g)) :=
    Step.within_error (Extent.copy_too_long bounds lower stop long)
  apply add_eq_copy bounds h nonempty start within made checked
  rw [Step.bind_error copied]
  rfl

end Taken

/-- `c` is `b` after the file of the slot has been placed in the next clusters. -/
structure Placed (g : Geometry) (b : Builder) (t : Slot) (c : Builder) : Prop where
  fits : t.Fits g
  start : t.start = b.allocator.next
  within : t.start + t.count g ≤ g.maxCluster + 1
  checked : b.root.check t.draft = .ok ()
  run : add t.file b = (.ok (t.placement g), c)
  geometry : c.geometry = b.geometry
  image : Extent.copy g (t.extent g) t.file.contents b.image = (.ok (), c.image)
  table : AllocationTable.link t.start (t.count g) b.table = (.ok (), c.table)
  root : RootDirectory.push t.record b.root = (.ok (), c.root)
  allocator : c.allocator = (b.advance (t.count g)).allocator
  placed : c.placed = b.placed.push (t.placement g)

section Ends
variable {g : Geometry} {s : Settings} {b : Builder} (bounds : g.Bounds) (h : Framed g s b)
include bounds h

theorem Framed.place {t : Slot} (fits : t.Fits g) (start : t.start = b.allocator.next)
    (within : t.start + t.count g ≤ g.maxCluster + 1) (checked : b.root.check t.draft = .ok ()) :
    ∃ c, Placed g b t c ∧ Framed g s c := by
  obtain ⟨lower, stop⟩ := extent_inside bounds h start within
  have enough : t.file.contents.size ≤ (t.extent g).count * g.clusterSize := fits.enough
  obtain ⟨image, spliced⟩ : ∃ image,
      Bytes.splice? b.image (g.clusterOffset (t.extent g).start) t.file.contents = some image :=
    Bytes.splice?_isSome (by omega)
  have copied := Extent.copy_of_splice bounds lower stop enough spliced
  have capacity : b.table.capacity = g.tableCapacity :=
    AllocationTable.capacity_eq_tableCapacity h.table
  obtain ⟨table, linked, size, _⟩ := AllocationTable.link_eq_ok t.start (t.count g) b.table
    fits.count_pos (by rw [capacity]; exact Nat.le_trans within bounds.capacity)
    (le_badMark bounds within)
  have room := (RootDirectory.check_eq_ok_iff.1 checked).1
  rw [h.slots] at room
  have fit := bounds.records_fit
  have slot := Nat.mul_le_mul_right Geometry.recordSize (Nat.succ_le_of_lt room)
  rw [Nat.succ_mul] at slot
  obtain ⟨bytes, pushed⟩ : ∃ bytes, Bytes.splice? b.root.bytes
      (b.root.length * Geometry.recordSize) t.record.toBytes = some bytes :=
    Bytes.splice?_isSome (by rw [Record.size_toBytes, h.root]; omega)
  have listed := RootDirectory.push_of_splice (r := t.record) checked pushed
  let root : RootDirectory := { b.root with bytes, records := b.root.records.push t.record }
  have copyStep : onImage (Extent.copy g (t.extent g) t.file.contents) (b.advance (t.count g)) =
      (.ok (), { b.advance (t.count g) with image }) := Step.within_ok copied
  have linkStep : onTable (AllocationTable.link t.start (t.count g))
      { b.advance (t.count g) with image } =
      (.ok (), { b.advance (t.count g) with image, table }) := Step.within_ok linked
  have pushStep : onRoot (RootDirectory.push t.record)
      { b.advance (t.count g) with image, table } =
      (.ok (), { b.advance (t.count g) with image, table, root }) := Step.within_ok listed
  refine ⟨{ b.advance (t.count g) with image, table, root, placed := b.placed.push (t.placement g) }, {
    fits, start, within, checked
    run := ?_
    geometry := rfl
    image := copied
    table := linked
    root := listed
    allocator := rfl
    placed := rfl }, ?_⟩
  · apply add_eq_copy bounds h (Nat.ne_of_gt fits.nonempty) start within fits.made checked
    rw [Step.bind_ok copyStep, Step.bind_ok linkStep, Step.bind_ok pushStep]
    rfl
  · have front : Geometry.bootSectorSize ≤ g.clusterOffset (t.extent g).start :=
      Nat.le_trans bounds.bootSector_le_dataOffset (g.dataOffset_le_clusterOffset _)
    exact { h.advance (start ▸ within : b.allocator.next + t.count g ≤ g.maxCluster + 1) with
      image := (Bytes.splice?_size spliced).trans h.image
      sector := by
        rw [← h.sector]
        exact Bytes.slice?_splice?_apart spliced (by omega)
      table := size.trans h.table
      root := (Bytes.splice?_size pushed).trans h.root }

/-- The clusters of a file are counted in 32 bits. A file is too long for its clusters only when
this count is cut. -/
theorem Framed.add_cases (f : SourceFile) :
    (∃ e, add f b = (.error e, b)) ∨
    (∃ t c, t.file = f ∧ Placed g b t c ∧ Framed g s c) ∨
    (∃ e, add f b = (.error e, b.advance (clustersNeeded f.size g.clusterSize)) ∧
      clustersNeeded f.size g.clusterSize * g.clusterSize < f.size ∧
      b.allocator.next + clustersNeeded f.size g.clusterSize ≤ g.maxCluster + 1) := by
  have positive : 0 < b.allocator.clusterSize := h.clusterSize ▸ bounds.clusterSize_pos
  cases made : Record.make f.name f.ext 0 0 with
  | error e => exact .inl ⟨e, add_invalid made⟩
  | ok draft =>
    rcases b.root.check_eq_error_or draft with ⟨_, refused⟩ | ⟨_, _, checked⟩
    · exact .inl ⟨_, add_refused made refused⟩
    · by_cases empty : f.size = 0
      · exact .inl ⟨_, add_unallocated made checked (by rw [empty]; exact Allocator.allocate_empty)⟩
      · by_cases exceeds : b.allocator.remaining < clustersNeeded f.size b.allocator.clusterSize
        · exact .inl ⟨_, add_unallocated made checked
            (Allocator.allocate_exceeded positive empty exceeds)⟩
        · let t : Slot := ⟨f, draft, b.allocator.next⟩
          have upper := h.upper
          have within : t.start + t.count g ≤ g.maxCluster + 1 := by
            rw [Allocator.remaining, h.maxCluster, h.clusterSize] at exceeds
            change b.allocator.next + clustersNeeded f.size g.clusterSize ≤ _
            omega
          by_cases long : t.count g * g.clusterSize < t.file.size
          · have run := add_truncated bounds h (t := t) empty rfl within made checked long
            exact .inr (.inr ⟨_, run, long, within⟩)
          · have fits : t.Fits g := ⟨made, Nat.pos_of_ne_zero empty, Nat.le_of_not_lt long⟩
            obtain ⟨c, placed, framed⟩ := h.place bounds fits rfl within checked
            exact .inr (.inl ⟨t, c, rfl, placed, framed⟩)

theorem Framed.after_add (f : SourceFile) : Framed g s (b.add f).2 := by
  rcases h.add_cases bounds f with ⟨e, run⟩ | ⟨t, c, rfl, placed, framed⟩ | ⟨e, run, _, within⟩
  · rw [run]
    exact h
  · rw [placed.run]
    exact framed
  · rw [run]
    exact h.advance within

/-- Below this size a count that is cut is zero, so that nothing is taken. -/
theorem Framed.add_short_cases {f : SourceFile} (short : f.size < 0x100000000 * g.clusterSize) :
    (∃ e, add f b = (.error e, b)) ∨ (∃ t c, t.file = f ∧ Placed g b t c ∧ Framed g s c) := by
  have positive := bounds.clusterSize_pos
  rcases h.add_cases bounds f with refused | placed | ⟨e, run, long, _⟩
  · exact .inl refused
  · exact .inr placed
  · have whole : clustersExact f.size g.clusterSize ≤ 0x100000000 :=
      (clustersExact_le_iff positive).2 (Nat.le_of_lt short)
    have zero : clustersNeeded f.size g.clusterSize = 0 := by
      rcases Nat.lt_or_eq_of_le whole with below | limit
      · have enough : f.size ≤ _ := size_le_clustersExact positive
        rw [clustersNeeded_eq, Nat.mod_eq_of_lt below] at long
        exact absurd enough (Nat.not_le_of_lt long)
      · rw [clustersNeeded_eq, limit]
    rw [zero] at run
    exact .inl ⟨e, run⟩

end Ends

end BootDisk.Builder
