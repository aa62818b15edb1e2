import BootDisk.Proofs.Directory.Root
import BootDisk.Proofs.Directory.Slots

set_option autoImplicit false

/-!
# Pushing records one after another

The bytes of a root directory and its list of records stay in step: after any attempts the bytes are
those of the accepted records, and reading them slot by slot gives these records back. The region is
rounded up to whole sectors, so that it may have more slots than the directory takes records.
-/
namespace BootDisk.RootDirectory

/-- Pushes each of the records that the directory takes: these records, and the directory after
them. -/
def pushEach : List Record → RootDirectory → List Record × RootDirectory :=
  Step.each fun r => do
    push r
    return r

/-- A directory with these records, all of them in use and no two of one name. -/
structure Accepted (g : Geometry) (records : List Record) (d : RootDirectory) : Prop
    extends Filled g records d where
  room : records.length ≤ g.rootEntries.toNat
  distinct : records.Pairwise fun r s => ¬ (r.name = s.name ∧ r.ext = s.ext)
  used : ∀ r ∈ records, Record.firstByte r.name ≠ 0

structure InStep (g : Geometry) (records : List Record) (d : RootDirectory) : Prop
    extends Accepted g records d where
  size : d.bytes.size = g.rootSize
  leading : Record.Leading (Record.slots d.bytes (d.bytes.size / Geometry.recordSize)) records
  readBack : Record.allIn d.bytes = records

/-- How the next push to the directory ends. -/
structure Predicted (g : Geometry) (records : List Record) (d : RootDirectory) : Prop where
  result : ∀ r, (push r d).1 = d.check r
  taken : ∀ r, d.check r = .ok () ↔
    records.length < g.rootEntries.toNat ∧ ∀ s ∈ records, ¬ (s.name = r.name ∧ s.ext = r.ext)
  refused : ∀ r e, (push r d).1 = .error e → (∃ cause, e = .error cause) ∧ (push r d).2 = d

section Accepted
variable {g : Geometry} {records : List Record} {d : RootDirectory} {r : Record}

theorem Accepted.check_iff (h : Accepted g records d) : d.check r = .ok () ↔
    records.length < g.rootEntries.toNat ∧ ∀ s ∈ records, ¬ (s.name = r.name ∧ s.ext = r.ext) := by
  rw [check_eq_ok_iff, contains_eq_false_iff, h.length, h.capacity, h.list]
  simp only [← Record.sameName_iff, Bool.not_eq_true]

theorem accepted_blank (sectors : g.bytesPerSector ≠ 0) :
    ∃ first, blank g = .ok first ∧ Accepted g [] first := by
  refine ⟨⟨Bytes.zeros g.rootSize, #[], g.rootEntries⟩, ?_, ?_⟩
  · exact Outcome.bind_ok (Geometry.withSectors_eq_ok sectors g.rootSize)
  · refine ⟨⟨rfl, ?_, rfl⟩, Nat.zero_le _, List.Pairwise.nil, fun _ h => nomatch h⟩
    simp [Bytes.toList_zeros]

variable (sectors : g.bytesPerSector ≠ 0)
include sectors

theorem Accepted.push (h : Accepted g records d) (checked : d.check r = .ok ())
    (used : Record.firstByte r.name ≠ 0) :
    ∃ e, push r d = (.ok (), e) ∧ Accepted g (records ++ [r]) e := by
  obtain ⟨room, new⟩ := h.check_iff.1 checked
  obtain ⟨e, run, filled⟩ := h.toFilled.push sectors checked
  refine ⟨e, run, filled, ?_, ?_, ?_⟩
  · rw [List.length_append]
    exact room
  · rw [List.pairwise_append]
    exact ⟨h.distinct, List.pairwise_singleton _ _, by simpa using new⟩
  · intro s hs
    rcases List.mem_append.1 hs with old | last
    · exact h.used s old
    · rw [List.mem_singleton.1 last]
      exact used

theorem Accepted.push_check (h : Accepted g records d) :
    (RootDirectory.push r d).1 = d.check r := by
  cases checked : d.check r with
  | ok =>
    obtain ⟨e, run, _⟩ := h.toFilled.push sectors checked
    rw [run]
  | error e => rw [push_refused checked]

theorem Accepted.pushEach (h : Accepted g records d) (more : List Record)
    (used : ∀ r ∈ more, Record.firstByte r.name ≠ 0) :
    Accepted g (records ++ (pushEach more d).1) (pushEach more d).2 := by
  refine Step.each_keeps (fun r hr records d h => ?_) h
  cases checked : d.check r with
  | ok =>
    obtain ⟨e, run, accepted⟩ := h.push sectors checked (used r hr)
    exact .inl ⟨r, e, Step.bind_ok run, accepted⟩
  | error e => exact .inr ⟨e, d, Step.bind_error (push_refused checked), h⟩

theorem Accepted.inStep (h : Accepted g records d) : InStep g records d := by
  have fit := Geometry.records_le_rootSize sectors
  have held := Nat.mul_le_mul_right Geometry.recordSize h.room
  have readBack := Record.allIn_of_toList h.bytes h.used
  have leading := Record.leading_allIn d.bytes
  rw [readBack] at leading
  refine ⟨h, ?_, leading, readBack⟩
  rw [← Bytes.toList_length, h.bytes, List.length_append, Record.length_flatMap_encode,
    List.length_replicate]
  omega

theorem Accepted.predicted (h : Accepted g records d) : Predicted g records d where
  result r := h.push_check sectors
  taken r := h.check_iff
  refused r e failed := by
    rw [h.push_check sectors] at failed
    rcases d.check_eq_error_or r with ⟨cause, refused⟩ | ⟨_, _, checked⟩
    · exact ⟨⟨cause, Except.error.inj (failed.symm.trans refused)⟩, by rw [push_refused refused]⟩
    · cases failed.symm.trans checked

end Accepted

/-- Whatever is pushed to a blank directory, its bytes and its records stay in step, and `check`
tells how the next push ends. -/
theorem pushEach_inStep (g : Geometry) (sectors : g.bytesPerSector ≠ 0) :
    ∃ first, blank g = .ok first ∧ ∀ records : List Record,
      (∀ r ∈ records, Record.firstByte r.name ≠ 0) →
      InStep g (pushEach records first).1 (pushEach records first).2 ∧
      Predicted g (pushEach records first).1 (pushEach records first).2 := by
  obtain ⟨first, fresh, empty⟩ := accepted_blank sectors
  refine ⟨first, fresh, fun records used => ?_⟩
  have accepted := empty.pushEach sectors records used
  rw [List.nil_append] at accepted
  exact ⟨accepted.inStep sectors, accepted.predicted sectors⟩

def pair : Geometry := { Geometry.floppy with bytesPerSector := 100, rootEntries := 2 }

/-- Pushes of a record, of another one with its name, of a second record and of a third. -/
theorem pair_inStep : ∃ first d, blank pair = .ok first ∧
    pushEach [.letter 0x41 2, .letter 0x41 3, .letter 0x42 3, .letter 0x43 4] first =
      ([.letter 0x41 2, .letter 0x42 3], d) ∧
    d.bytes.size = 100 ∧ InStep pair [.letter 0x41 2, .letter 0x42 3] d ∧
    Predicted pair [.letter 0x41 2, .letter 0x42 3] d := by
  obtain ⟨first, fresh, inStep⟩ := pushEach_inStep pair (by decide)
  cases fresh
  have taken : (pushEach [.letter 0x41 2, .letter 0x41 3, .letter 0x42 3, .letter 0x43 4]
      ⟨Bytes.zeros pair.rootSize, #[], pair.rootEntries⟩).1 = [.letter 0x41 2, .letter 0x42 3] := by
    decide +kernel
  obtain ⟨step, predicted⟩ :=
    inStep [.letter 0x41 2, .letter 0x41 3, .letter 0x42 3, .letter 0x43 4] (by decide)
  rw [taken] at step predicted
  exact ⟨_, _, rfl, Prod.ext taken rfl, step.size, step, predicted⟩

end BootDisk.RootDirectory
