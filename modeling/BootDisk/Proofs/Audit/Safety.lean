import BootDisk.Proofs.Audit.Completion
import BootDisk.Proofs.Builder.Audited

set_option autoImplicit false

/-!
# Reading is safe on every image

An image may be cut short, its boot sector may record any seven numbers, and its chains may loop or
leave the data region. Mounting refuses a layout whose offsets cannot be trusted, and what it accepts
can be read at every offset that is computed from it: no access leaves a buffer, no difference goes
below zero, and nothing is divided by zero.

Where a definition computes on plain naturals, a checked form has a fault at each operation that can
leave its domain, in the order in which the operations are run, and the two are equal.
-/
namespace BootDisk

namespace Checked

def difference (a b : Nat) : Outcome Nat := if a < b then fault .belowZero else pure (a - b)

theorem difference_eq_ok {a b : Nat} (h : b ≤ a) : difference a b = .ok (a - b) := by
  rw [difference, if_neg (by omega)]
  rfl

end Checked

namespace Geometry

namespace Checked

/-- The first defect, with a derived number computed only where the checks before it have passed. -/
def layoutDefect? (g : Geometry) : Outcome (Option GeometryDefect) := do
  if g.bytesPerSector = 0 ∨ g.sectorsPerCluster = 0 ∨ g.tableCount = 0 ∨ g.rootEntries = 0 ∨
      g.sectorsPerTable = 0 then return some .zeroField
  if g.bytesPerSector.toNat < bootSectorSize then return some .smallSector
  if g.totalSectors.toNat ≤ (← dataStart g) then return some .noDataRegion
  if clusterLimit < (← dataClusters g) then return some .manyClusters
  return none

def validate (g : Geometry) : Outcome Unit := do
  match ← layoutDefect? g with
  | some d => g.refuse d
  | none => do
    let last ← maxCluster g
    if (← tableCapacity g) ≤ last then g.refuse .smallTable

variable {g : Geometry} (sectors : g.bytesPerSector ≠ 0)
include sectors

theorem dataStart_eq_ok : dataStart g = .ok g.dataStart :=
  withSectors_eq_ok sectors _

variable (clusters : g.sectorsPerCluster ≠ 0)
include clusters

theorem withClusters_eq_ok {α : Type} (value : α) : g.withClusters value = .ok value := by
  rw [withClusters, if_neg clusters]
  exact withSectors_eq_ok sectors _

end Checked

theorem checked_layoutDefect? (g : Geometry) :
    Checked.layoutDefect? g = .ok g.layoutDefect? := by
  unfold Checked.layoutDefect? layoutDefect?
  by_cases zero : g.bytesPerSector = 0 ∨ g.sectorsPerCluster = 0 ∨ g.tableCount = 0 ∨
      g.rootEntries = 0 ∨ g.sectorsPerTable = 0
  · rw [if_pos zero, if_pos zero]
    rfl
  · obtain ⟨sectors, clusters, _⟩ := not_or.1 zero |>.imp_right not_or.1
    rw [if_neg zero, if_neg zero]
    by_cases small : g.bytesPerSector.toNat < bootSectorSize
    · rw [if_pos small]
      simp only [if_pos small]
      rfl
    · rw [if_neg small]
      simp only [if_neg small]
      rw [Outcome.bind_ok (Checked.dataStart_eq_ok sectors)]
      by_cases full : g.totalSectors.toNat ≤ g.dataStart
      · rw [if_pos full, if_pos full]
        rfl
      · rw [if_neg full, if_neg full]
        have count : Checked.dataClusters g = .ok g.dataClusters :=
          Checked.withClusters_eq_ok sectors clusters _
        rw [Outcome.bind_ok count]
        by_cases many : clusterLimit < g.dataClusters
        · rw [if_pos many, if_pos many]
          rfl
        · rw [if_neg many, if_neg many]
          rfl

/-- Validation divides by nothing that it has not found to be non-zero. -/
theorem checked_validate (g : Geometry) : Checked.validate g = g.validate := by
  rw [Checked.validate, validate, Outcome.bind_ok (checked_layoutDefect? g)]
  cases clear : g.layoutDefect? with
  | some d => rfl
  | none =>
    obtain ⟨⟨⟨sectors, clusters, _⟩, _⟩, _⟩ := layoutDefect?_eq_none clear
    exact Outcome.bind_ok (Checked.withClusters_eq_ok sectors clusters g.maxCluster)

theorem validate_fault {g : Geometry} {f : Fault} (h : g.validate = .error (.fault f)) :
    f = .overflow := by
  unfold validate Checked.tableCapacity at h
  cases clear : g.layoutDefect? with
  | some d =>
    rw [clear] at h
    cases h
  | none =>
    rw [clear] at h
    by_cases wide : 0x100000000 ≤ g.tableSize * 2
    · rw [if_pos wide] at h
      cases h
      rfl
    · rw [if_neg wide] at h
      change (if g.tableCapacity ≤ g.maxCluster then g.refuse .smallTable else pure ()) = _ at h
      by_cases small : g.tableCapacity ≤ g.maxCluster
      · rw [if_pos small] at h
        cases h
      · rw [if_neg small] at h
        cases h

end Geometry

namespace Chain

namespace Checked

/-- Appends to `got` what is missing of `size` bytes, cluster by cluster. -/
def gather (image : ByteArray) (g : Geometry) (size : Nat) :
    List Nat → ByteArray → Outcome ByteArray
  | [], got => pure got
  | cluster :: rest, got =>
    if size ≤ got.size then pure got
    else do
      let chunk ← Extent.read image g ⟨cluster, 1⟩ g.clusterSize
      let missing ← BootDisk.Checked.difference size got.size
      let part ← orFault .outOfBounds (Bytes.slice? chunk 0 (min chunk.size missing))
      gather image g size rest (got ++ part)

end Checked

variable {image : ByteArray} {g : Geometry}

theorem checked_gather (clusters : List Nat) (size : Nat) (got : ByteArray) :
    Checked.gather image g size clusters got = gather image g clusters (size - got.size) got := by
  induction clusters generalizing got with
  | nil => rfl
  | cons cluster rest ih =>
    rw [Checked.gather, gather]
    by_cases done : size ≤ got.size
    · rw [if_pos done, if_pos (by omega)]
    · rw [if_neg done, if_neg (by omega)]
      cases read : Extent.read image g ⟨cluster, 1⟩ g.clusterSize with
      | error e => rfl
      | ok chunk =>
        have slice : Bytes.slice? chunk 0 (min chunk.size (size - got.size)) =
            some (chunk.extract 0 (min chunk.size (size - got.size))) := by
          rw [Bytes.slice?, if_pos (by omega), Nat.zero_add]
        change (BootDisk.Checked.difference size got.size >>= _) = gather _ _ _ _ _
        rw [Outcome.bind_ok (BootDisk.Checked.difference_eq_ok (by omega)),
          Outcome.bind_ok (Outcome.orFault_some slice), ih, ByteArray.size_append, Nat.sub_sub]

end Chain

/-- Every request to the volume stays inside its buffers. -/
structure Volume.Safe (v : Volume) : Prop where
  divisors : v.geometry.bytesPerSector ≠ 0 ∧ v.geometry.sectorsPerCluster ≠ 0
  sector : v.bootSector.size = Geometry.bootSectorSize
  copies : ∀ copy, copy < v.geometry.tableCount.toNat →
    ∃ bytes, v.tableCopy copy = .ok bytes ∧ bytes.size = v.geometry.tableSize
  records : ∃ records, v.records = .ok records
  find : ∀ name, ∃ found, v.find name = .ok found
  chain : ∀ start, ∀ c ∈ v.table.chain start,
    Geometry.firstCluster ≤ c ∧ AllocationTable.position c + 1 < v.table.bytes.size
  contents : ∀ r : Record,
    Outcome.Settles (fun bytes => bytes.size = r.size.toNat) (v.contents r)
  gather : ∀ clusters size got, Chain.Checked.gather v.image v.geometry size clusters got =
    Chain.gather v.image v.geometry clusters (size - got.size) got
  audit : ∃ a, Audit.ofVolume v = .ok a

namespace Audit

theorem contents_settles {v : Volume} (bounds : v.geometry.Bounds) (r : Record) :
    Outcome.Settles (fun bytes => bytes.size = r.size.toNat) (v.contents r) := by
  rw [Volume.contents]
  dsimp only
  by_cases short : (v.table.chain r.firstCluster.toNat).length * v.geometry.clusterSize <
      r.size.toNat
  · rw [if_pos short]
    trivial
  · rw [if_neg short]
    exact Chain.read_settles bounds _ _
      (Nat.lt_trans r.size.toNat_lt (by decide))

theorem Mounted.safe {image : ByteArray} {v : Volume} (h : Mounted image v) : v.Safe := by
  obtain ⟨rfl, valid, sector, data⟩ := h
  have bounds := Geometry.bounds_of_validate valid
  obtain ⟨region, _, listed⟩ := records_end bounds data
  exact {
    divisors := ⟨bounds.bytesPerSector_ne_zero, bounds.sectorsPerCluster_ne_zero⟩
    sector := size_bootSector sector
    copies := by
      intro copy inside
      obtain ⟨bytes, here⟩ := tableCopy_ends data inside
      exact ⟨bytes, here, Bytes.slice?_size (Outcome.orFault_eq_ok_iff.1 here)⟩
    records := ⟨Record.allIn region, listed⟩
    find := fun name => ⟨_, by rw [Volume.find, Outcome.bind_ok listed]; rfl⟩
    chain := fun start c hc => ⟨(AllocationTable.mem_chain hc).1,
      AllocationTable.position_lt_of_lt_capacity (AllocationTable.mem_chain hc).2⟩
    contents := contents_settles bounds
    gather := Chain.checked_gather
    audit := ofVolume_ends bounds sector data }

theorem recorded_ends {sector : ByteArray} (size : sector.size = Geometry.bootSectorSize) :
    ∃ g, BootSector.recorded sector = .ok g := by
  have byte : ∀ i, i < Geometry.bootSectorSize → ∃ x, BootSector.byte sector i = .ok x :=
    fun i hi => byte_ends (size ▸ hi)
  have word : ∀ i, i + 2 ≤ Geometry.bootSectorSize → ∃ x, BootSector.word sector i = .ok x := by
    intro i hi
    obtain ⟨s, slice⟩ := Bytes.slice?_isSome (size ▸ hi)
    have field : LittleEndian.field? sector i 2 = some _ := congrArg (Option.map _) slice
    exact ⟨_, by rw [BootSector.word, Outcome.bind_ok (Outcome.orFault_some field)]; rfl⟩
  obtain ⟨_, h₁⟩ := word BootSector.Offset.bytesPerSector (by decide)
  obtain ⟨_, h₂⟩ := word BootSector.Offset.totalSectors (by decide)
  obtain ⟨_, h₃⟩ := byte BootSector.Offset.sectorsPerCluster (by decide)
  obtain ⟨_, h₄⟩ := word BootSector.Offset.reservedSectors (by decide)
  obtain ⟨_, h₅⟩ := byte BootSector.Offset.tableCount (by decide)
  obtain ⟨_, h₆⟩ := word BootSector.Offset.rootEntries (by decide)
  obtain ⟨_, h₇⟩ := word BootSector.Offset.sectorsPerTable (by decide)
  rw [BootSector.recorded, Outcome.bind_ok h₁, Outcome.bind_ok h₂, Outcome.bind_ok h₃,
    Outcome.bind_ok h₄, Outcome.bind_ok h₅, Outcome.bind_ok h₆, Outcome.bind_ok h₇]
  exact ⟨_, rfl⟩

theorem geometry_of_recorded {sector : ByteArray} {g : Geometry}
    (h : BootSector.recorded sector = .ok g) :
    BootSector.geometry sector = g.validate >>= fun _ => .ok g := by
  rw [BootSector.geometry, Outcome.bind_ok h]
  rfl

theorem validate_of_geometry {sector : ByteArray} {g : Geometry}
    (h : BootSector.geometry sector = .ok g) : g.validate = .ok () := by
  obtain ⟨_, _, h⟩ := Outcome.bind_eq_ok_iff.1 h
  obtain ⟨_, valid, h⟩ := Outcome.bind_eq_ok_iff.1 h
  cases h
  exact valid

/-- Only a geometry without an answer keeps mounting from having one. -/
theorem mount_fault_iff (image : ByteArray) (f : Fault) :
    Volume.mount image = .error (.fault f) ↔ Geometry.bootSectorSize ≤ image.size ∧
      BootSector.geometry (image.extract 0 Geometry.bootSectorSize) = .error (.fault f) := by
  unfold Volume.mount
  by_cases short : image.size < Geometry.bootSectorSize
  · rw [if_pos short]
    exact ⟨fun h => (nomatch h), fun h => absurd h.1 (Nat.not_le.2 short)⟩
  · rw [if_neg short]
    change BootSector.geometry _ >>= _ = _ ↔ _
    cases parsed : BootSector.geometry (image.extract 0 Geometry.bootSectorSize) with
    | error e =>
      rw [Outcome.bind_error rfl]
      exact ⟨fun h => ⟨Nat.le_of_not_lt short, congrArg _ (Except.error.inj h)⟩,
        fun h => congrArg _ (Except.error.inj h.2)⟩
    | ok g =>
      have bounds := Geometry.bounds_of_validate (validate_of_geometry parsed)
      refine ⟨fun h => ?_, fun h => (nomatch h.2)⟩
      change Geometry.Checked.dataOffset g >>= _ = _ at h
      rw [Outcome.bind_ok bounds.checked_dataOffset] at h
      by_cases cut : image.size < g.dataOffset
      · rw [if_pos cut] at h
        cases h
      · have stop := g.stop_table_le_root bounds.tables
        have root := g.dataOffset_eq
        obtain ⟨table, slice⟩ : ∃ table,
            Bytes.slice? image (g.tableOffset 0) g.tableSize = some table :=
          Bytes.slice?_isSome (by omega)
        rw [if_neg cut] at h
        change orFault _ _ >>= _ = _ at h
        rw [Outcome.bind_ok (Outcome.orFault_some slice)] at h
        cases h

theorem mount_fault {image : ByteArray} {f : Fault} (h : Volume.mount image = .error (.fault f)) :
    f = .overflow := by
  obtain ⟨sector, parsed⟩ := (mount_fault_iff image f).1 h
  obtain ⟨g, recorded⟩ : ∃ g,
      BootSector.recorded (image.extract 0 Geometry.bootSectorSize) = .ok g :=
    recorded_ends (by rw [ByteArray.size_extract]; omega)
  rw [geometry_of_recorded recorded] at parsed
  cases checked : g.validate with
  | error e =>
    rw [checked] at parsed
    cases parsed
    exact Geometry.validate_fault checked
  | ok _ =>
    rw [checked] at parsed
    cases parsed

/-- On any bytes the reader and the audit end with a result or an error, unless the capacity of the
recorded table outgrows its width; and what is mounted can be read without another check. -/
theorem safe_of_bytes (image : ByteArray) :
    (∀ g : Geometry, Geometry.Checked.validate g = g.validate) ∧
    (∀ f, Volume.mount image = .error (.fault f) → f = .overflow) ∧
    (∀ f, ofImage image = .error (.fault f) → f = .overflow) ∧
    ∀ v, Volume.mount image = .ok v → v.Safe := by
  refine ⟨Geometry.checked_validate, fun f h => mount_fault h, ?_,
    fun v h => (mounted_of_mount h).safe⟩
  intro f h
  rw [ofImage] at h
  cases mounted : Volume.mount image with
  | error e =>
    rw [mounted] at h
    cases h
    exact mount_fault mounted
  | ok v =>
    obtain ⟨a, ends⟩ := (mounted_of_mount mounted).safe.audit
    rw [Outcome.bind_ok mounted, ends] at h
    cases h

theorem floppy_safe : ∃ image v, Volume.mount image = .ok v ∧ v.Safe ∧
    ∃ r, v.records = .ok [r] := by
  have valid : Geometry.floppy.validate = .ok () := rfl
  have bounds := Geometry.bounds_of_validate valid
  have reserved : 1 ≤ Geometry.floppy.reservedSectors.toNat := by decide
  obtain ⟨first, t, b, run, added, _, holds⟩ := Builder.floppy_takes_letter
  obtain ⟨image, finished, _, bytes⟩ := Builder.finish_eq_ok bounds holds reserved
  have mounted := Builder.mount_finished bounds holds reserved bytes valid
  have listed := Builder.records_finished bounds holds reserved bytes
  exact ⟨image.bytes, _, mounted, (safe_of_bytes image.bytes).2.2.2 _ mounted, _, listed⟩

end Audit

end BootDisk
