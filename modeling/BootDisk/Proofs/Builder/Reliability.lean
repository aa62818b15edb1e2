import BootDisk.Proofs.Builder.Admission
import BootDisk.Proofs.Builder.Regions

set_option autoImplicit false

/-!
# Checks of a builder that never fail

Adding a file and finishing write at computed places. Behind the conditions on the file stand checks
of these places: the number of a table entry, a range of a buffer, the end of the image. Every
attempt keeps what validation promises about them, so that only a condition on the file refuses it.
There is one exception: a size whose clusters 32 bits cannot count passes the allocator and is refused
by the copy of its bytes.
-/
namespace BootDisk.Builder

/-- The buffers have room for the regions of the layout, and the placed files and their records lie in
their regions. -/
structure Contained (g : Geometry) (b : Builder) : Prop where
  image : ∀ r : Geometry.Region, r.InLayout g → r.stop g ≤ b.image.size
  table : b.table.bytes.size = g.tableSize
  root : b.root.bytes.size = g.rootSize
  clusters : ∀ p ∈ b.placed.toList, ∀ c ∈ p.extent.clusters,
    (Geometry.Region.cluster c).InLayout g ∧ c < b.table.capacity
  extents : ∀ p ∈ b.placed.toList, p.offset = g.clusterOffset p.extent.start ∧
    p.offset + p.extent.count * g.clusterSize ≤ b.image.size
  records : b.root.length * Geometry.recordSize ≤ b.root.bytes.size

/-- Each file has a placement and a record, and their fields are wide enough for its numbers. -/
structure Uncut (files : List SourceFile) (b : Builder) : Prop where
  placements : b.placed.size = files.length
  records : b.root.records.size = files.length
  start : ∀ (i : Nat) p r, b.placed[i]? = some p → b.root.records[i]? = some r →
    r.firstCluster.toNat = p.extent.start
  size : ∀ (i : Nat) f p r, files[i]? = some f → b.placed[i]? = some p →
    b.root.records[i]? = some r → r.size.toNat = f.size ∧ p.size.toNat = f.size

theorem Refused.not_placed {g : Geometry} {before : List SourceFile} {f : SourceFile} {d : DiskError}
    (h : Refused g before f d) : (∀ file offset size, d ≠ .outOfSpace file offset size) ∧
      ∀ cause, d ≠ .transfer cause := by
  cases h with
  | name _ => exact ⟨nofun, nofun⟩
  | full _ _ => exact ⟨nofun, nofun⟩
  | duplicate _ _ _ => exact ⟨nofun, nofun⟩
  | empty _ _ _ _ => exact ⟨nofun, nofun⟩
  | large _ _ _ _ _ => exact ⟨nofun, nofun⟩

section Held
variable {g : Geometry} {s : Settings} {slots : List Slot} {b : Builder} (bounds : g.Bounds)
  (h : Holds g s slots b)
include bounds h

theorem Holds.contained : Contained g b where
  image := by
    intro r inLayout
    rw [h.image_size bounds]
    exact bounds.stop_le_imageSize inLayout
  table := h.table.size
  root := (h.framed bounds).root
  clusters := by
    intro p hp c hc
    rw [h.placed] at hp
    obtain ⟨t, ht, rfl⟩ := List.mem_map.1 hp
    have slot := h.plan.slot_bounds ht
    have within := h.plan.within
    have room := h.plan.next_le_capacity bounds
    obtain ⟨first, last⟩ : t.start ≤ c ∧ c < t.start + t.count g := List.mem_range'_1.1 hc
    rw [h.table.capacity]
    exact ⟨⟨by omega, by omega⟩, by omega⟩
  extents := by
    intro p hp
    rw [h.placed] at hp
    obtain ⟨t, ht, rfl⟩ := List.mem_map.1 hp
    have slot := h.plan.slot_bounds ht
    have within := h.plan.within
    have stop := bounds.clusterOffset_le (c := t.start + t.count g) (by omega)
    rw [g.clusterOffset_add slot.1, ← h.image_size bounds] at stop
    exact ⟨rfl, stop⟩
  records := by
    have room := Nat.mul_le_mul_right Geometry.recordSize h.plan.room
    have fit := bounds.records_fit
    rw [h.root.length, (h.framed bounds).root]
    omega

theorem Holds.uncut : Uncut (slots.map Slot.file) b where
  placements := by rw [← Array.length_toList, h.placed, List.length_map, List.length_map]
  records := by rw [← Array.length_toList, h.root.records, List.length_map, List.length_map]
  start := by
    intro i p r placement record
    rw [← Array.getElem?_toList, h.placed, List.getElem?_map, Option.map_eq_some_iff] at placement
    rw [← Array.getElem?_toList, h.root.records] at record
    obtain ⟨t, here, rfl⟩ := placement
    rw [List.getElem?_map, here] at record
    cases record
    exact h.plan.toNat_firstCluster bounds (List.mem_of_getElem? here)
  size := by
    intro i f p r file placement record
    rw [← Array.getElem?_toList, h.placed] at placement
    rw [← Array.getElem?_toList, h.root.records] at record
    obtain ⟨t, ht, rfl, rfl, rfl⟩ := exists_slot file placement record
    exact ⟨h.plan.toNat_size bounds ht, h.plan.toNat_size bounds ht⟩

/-- With its count of clusters cut to zero a file passes the allocator, and its bytes do not fit. -/
theorem Holds.add_uncounted {f : SourceFile} (uncounted : Uncounted g (slots.map Slot.file) f)
    (short : f.size < 0x100000000 * g.clusterSize) :
    add f b = (.error (.error (.transfer (.access (.tooLong f.size 0)))), b) := by
  obtain ⟨named, room, new, large⟩ := uncounted
  obtain ⟨draft, made⟩ := Record.make_of_sound (Record.defect?_eq_none_iff.2 named) 0 0
  have positive := bounds.clusterSize_pos
  have nonempty : 0 < f.size := by omega
  have whole : clustersExact f.size g.clusterSize = 0x100000000 := by
    have most := (clustersExact_le_iff positive).2 (Nat.le_of_lt short)
    have least := mt (clustersExact_le_iff positive).1 (Nat.not_le_of_lt large)
    omega
  let t : Slot := ⟨f, draft, b.allocator.next⟩
  have count : t.count g = 0 := by
    change clustersNeeded f.size g.clusterSize = 0
    rw [clustersNeeded_eq, whole]
  have late := add_truncated bounds (h.framed bounds) (t := t) (Nat.ne_of_gt nonempty) rfl
    (by rw [count]; exact h.plan.within) made (h.check_new made room new)
    (by rw [count, Nat.zero_mul]; exact nonempty)
  rw [count] at late
  exact late

theorem Holds.add_error {f : SourceFile} (short : f.size < 0x100000000 * g.clusterSize) {e : Failure}
    {c : Builder} (run : add f b = (.error e, c)) :
    (Uncounted g (slots.map Slot.file) f ∧
      e = .error (.transfer (.access (.tooLong f.size 0)))) ∨
    (¬ Uncounted g (slots.map Slot.file) f ∧
      ∃ d, e = .error d ∧ refusal? g (slots.map Slot.file) f = some d) := by
  by_cases uncounted : Uncounted g (slots.map Slot.file) f
  · have late := h.add_uncounted bounds uncounted short
    cases late.symm.trans run
    exact .inl ⟨uncounted, rfl⟩
  · cases refused : refusal? g (slots.map Slot.file) f with
    | none =>
      obtain ⟨t, d, _, added, _⟩ := h.add_admitted bounds refused
      cases added.symm.trans run
    | some d =>
      have early := h.add_refusal bounds refused uncounted
      cases early.symm.trans run
      exact .inr ⟨uncounted, d, rfl, rfl⟩

end Held

/-- Whatever files are attempted, finishing succeeds, every place that is written lies in its buffer,
and no number is cut on its way into a record. An attempt that fails breaks no promise and does not
run out of the image. The copy of the bytes refuses only a file whose clusters cannot be counted. -/
theorem addEach_reliable (g : Geometry) (s : Settings) (valid : g.validate = .ok ()) :
    ∃ first, start g s = .ok first ∧ ∀ files : List SourceFile,
      (∀ f ∈ files, f.size < 0x100000000 * g.clusterSize) →
        (∃ image, (addEach files first).2.finish = .ok image) ∧
        Contained g (addEach files first).2 ∧
        Uncut (addEach files first).1 (addEach files first).2 ∧
        ∀ f : SourceFile, f.size < 0x100000000 * g.clusterSize →
          ∀ (e : Failure) (c : Builder), add f (addEach files first).2 = (.error e, c) →
            ∃ d, e = .error d ∧ (∀ file offset size, d ≠ .outOfSpace file offset size) ∧
              ∀ cause, d = .transfer cause ↔
                cause = .access (.tooLong f.size 0) ∧ Uncounted g (addEach files first).1 f := by
  have bounds := Geometry.bounds_of_validate valid
  obtain ⟨first, run, fresh⟩ := start_holds s valid
  refine ⟨first, run, fun files short => ?_⟩
  obtain ⟨slots, placed, h⟩ := addEach_holds bounds files short fresh
  rw [List.nil_append] at h
  rw [← placed]
  obtain ⟨image, done, _⟩ := (h.framed bounds).finished bounds
  refine ⟨⟨image, done⟩, h.contained bounds, h.uncut bounds, ?_⟩
  intro f shorter e c failed
  rcases h.add_error bounds shorter failed with ⟨uncounted, rfl⟩ | ⟨counted, d, rfl, refused⟩
  · refine ⟨_, rfl, nofun, fun cause => ⟨fun same => ?_, fun ⟨same, _⟩ => by rw [same]⟩⟩
    exact ⟨(DiskError.transfer.inj same).symm, uncounted⟩
  · obtain ⟨space, transfer⟩ := (refused_of_refusal? refused).not_placed
    exact ⟨d, rfl, space, fun cause => ⟨fun same => absurd same (transfer cause),
      fun ⟨_, uncounted⟩ => absurd uncounted counted⟩⟩

theorem floppy_reliable : ∃ first image c, start Geometry.floppy {} = .ok first ∧
    (addEach [letter] first).2.finish = .ok image ∧
    Contained Geometry.floppy (addEach [letter] first).2 ∧
    Uncut [letter] (addEach [letter] first).2 ∧
    add letter (addEach [letter] first).2 = (.error (.error (.duplicateName "LETTER.TXT")), c) ∧
    ¬ Uncounted Geometry.floppy [letter] letter := by
  have valid : Geometry.floppy.validate = .ok () := rfl
  have bounds := Geometry.bounds_of_validate valid
  obtain ⟨first, run, reliable⟩ := addEach_reliable Geometry.floppy {} valid
  obtain ⟨fresh, again, holds⟩ := start_holds {} valid
  cases run.symm.trans again
  obtain ⟨t, b, _, added, _, refused⟩ := floppy_letters holds
  have each : addEach [letter] first = ([letter], b) := addEach_cons_ok added
  obtain ⟨⟨image, done⟩, contained, uncut, errors⟩ := reliable [letter] (by decide)
  rw [each] at done contained uncut errors
  obtain ⟨d, same, _, transfer⟩ := errors letter (by decide) _ _ refused
  cases same
  refine ⟨first, image, b, run, ?_⟩
  rw [each]
  refine ⟨done, contained, uncut, refused, fun uncounted => ?_⟩
  cases (transfer _).2 ⟨rfl, uncounted⟩

/-- The clusters of this file cannot be counted, and the copy of its bytes refuses it. -/
theorem huge_transferred : huge.size < 0x100000000 * Geometry.floppy.clusterSize ∧
    ∃ first, Geometry.floppy.validate = .ok () ∧ start Geometry.floppy {} = .ok first ∧
      add huge first = (.error (.error (.transfer (.access (.tooLong 0x1ffffffffff 0)))), first) := by
  have valid : Geometry.floppy.validate = .ok () := rfl
  have bounds := Geometry.bounds_of_validate valid
  have short : huge.size < 0x100000000 * Geometry.floppy.clusterSize := by
    rw [huge_size]
    decide
  have uncounted : Uncounted Geometry.floppy [] huge := {
    named := Record.defect?_eq_none_iff.1 (by decide)
    room := by decide
    new := by simp
    large := by
      rw [huge_size]
      decide }
  obtain ⟨first, run, fresh⟩ := start_holds {} valid
  have late := fresh.add_uncounted bounds uncounted short
  rw [huge_size] at late
  exact ⟨short, first, valid, run, late⟩

end BootDisk.Builder
