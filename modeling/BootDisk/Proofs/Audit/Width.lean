import BootDisk.Proofs.Audit.Safety
import BootDisk.Proofs.Word32

set_option autoImplicit false

/-!
# Validation in 32 bits

The numbers of a layout are computed in 32 bits, on images of any origin. Each operation is written
here with a fault where its exact result does not fit, in the order in which validation runs them.
All results fit as soon as no field is zero, but for one: the size of a table is doubled before it is
divided, and a single table of more than 32768 sectors can be too large for that. On exactly these
layouts validation, and with it every reader, ends with an overflow in place of an answer.
-/
namespace BootDisk

namespace Geometry
open Word32

namespace Narrow

def rootSectors (g : Geometry) : Outcome Nat := do
  let records ← mul g.rootEntries.toNat recordSize
  let padded ← add records g.bytesPerSector.toNat
  div (← BootDisk.Checked.difference padded 1) g.bytesPerSector.toNat

def rootStart (g : Geometry) : Outcome Nat := do
  add g.tableStart (← mul g.tableCount.toNat g.sectorsPerTable.toNat)

def dataStart (g : Geometry) : Outcome Nat := do add (← rootStart g) (← rootSectors g)

def dataClusters (g : Geometry) : Outcome Nat := do
  div (g.totalSectors.toNat - (← dataStart g)) g.sectorsPerCluster.toNat

def maxCluster (g : Geometry) : Outcome Nat := do
  BootDisk.Checked.difference (← add (← dataClusters g) firstCluster) 1

def tableCapacity (g : Geometry) : Outcome Nat := do div (← mul (g.tableSize % limit) 2) 3

def validate (g : Geometry) : Outcome Unit :=
  if g.bytesPerSector = 0 ∨ g.sectorsPerCluster = 0 ∨ g.tableCount = 0 ∨ g.rootEntries = 0 ∨
      g.sectorsPerTable = 0 then g.refuse .zeroField
  else if g.bytesPerSector.toNat < bootSectorSize then g.refuse .smallSector
  else do
    if g.totalSectors.toNat ≤ (← dataStart g) then g.refuse .noDataRegion
    else if clusterLimit < (← dataClusters g) then g.refuse .manyClusters
    else
      let last ← maxCluster g
      if (← tableCapacity g) ≤ last then g.refuse .smallTable

end Narrow

/-- What validation checks before it computes anything. -/
structure Shaped (g : Geometry) : Prop where
  fields : ¬ (g.bytesPerSector = 0 ∨ g.sectorsPerCluster = 0 ∨ g.tableCount = 0 ∨
    g.rootEntries = 0 ∨ g.sectorsPerTable = 0)
  sector : bootSectorSize ≤ g.bytesPerSector.toNat

/-- The regions fit the disk, and the doubled size of a table does not fit its width. -/
structure Oversized (g : Geometry) : Prop where
  regions : g.layoutDefect? = none
  table : Word32.limit ≤ g.tableSize * 2

section Derived
variable {g : Geometry}

theorem Shaped.cluster (h : g.Shaped) : 0 < g.sectorsPerCluster.toNat :=
  UInt8.lt_iff_toNat_lt.1 (UInt8.pos_iff_ne_zero.2 fun e => h.fields (.inr (.inl e)))

theorem narrow_rootSectors (h : g.Shaped) : Narrow.rootSectors g = .ok g.rootSectors := by
  have records := g.rootEntries.toNat_lt
  have bytes := g.bytesPerSector.toNat_lt
  have sector := h.sector
  unfold bootSectorSize at sector
  have product : mul g.rootEntries.toNat recordSize = .ok _ :=
    fit_eq_ok (by unfold limit recordSize; omega)
  have sum : add (g.rootEntries.toNat * recordSize) g.bytesPerSector.toNat = .ok _ :=
    fit_eq_ok (by unfold limit recordSize; omega)
  rw [Narrow.rootSectors, Outcome.bind_ok product, Outcome.bind_ok sum,
    Outcome.bind_ok (Checked.difference_eq_ok (by omega)), div_eq_ok (by omega)]
  rfl

theorem rootSectors_lt (h : g.Shaped) : g.rootSectors < 0x1001 := by
  have records := g.rootEntries.toNat_lt
  have sector := h.sector
  unfold bootSectorSize at sector
  rw [rootSectors, Nat.div_lt_iff_lt_mul (by omega)]
  unfold recordSize
  omega

theorem rootStart_lt (g : Geometry) : g.rootStart < 0x1000000 := by
  have reserved := g.reservedSectors.toNat_lt
  have tables := Nat.le_of_lt_succ g.tableCount.toNat_lt
  have sectors := Nat.le_of_lt_succ g.sectorsPerTable.toNat_lt
  have := Nat.mul_le_mul tables sectors
  unfold rootStart tableStart
  omega

theorem narrow_dataStart (h : g.Shaped) : Narrow.dataStart g = .ok g.dataStart := by
  have start := g.rootStart_lt
  have root := rootSectors_lt h
  have product : mul g.tableCount.toNat g.sectorsPerTable.toNat = .ok _ :=
    fit_eq_ok (by unfold rootStart at start; unfold limit; omega)
  have tables : Narrow.rootStart g = .ok g.rootStart := by
    rw [Narrow.rootStart, Outcome.bind_ok product]
    exact fit_eq_ok (by unfold rootStart at start; unfold limit; omega)
  rw [Narrow.dataStart, Outcome.bind_ok tables, Outcome.bind_ok (narrow_rootSectors h)]
  exact fit_eq_ok (by unfold limit; omega)

theorem narrow_dataClusters (h : g.Shaped) : Narrow.dataClusters g = .ok g.dataClusters := by
  rw [Narrow.dataClusters, Outcome.bind_ok (narrow_dataStart h)]
  exact div_eq_ok h.cluster

theorem narrow_maxCluster (h : g.Shaped) : Narrow.maxCluster g = .ok g.maxCluster := by
  have sectors := g.totalSectors.toNat_lt
  have count : g.dataClusters ≤ g.totalSectors.toNat - g.dataStart := Nat.div_le_self _ _
  have sum : add g.dataClusters firstCluster = .ok _ :=
    fit_eq_ok (by unfold limit firstCluster; omega)
  rw [Narrow.maxCluster, Outcome.bind_ok (narrow_dataClusters h), Outcome.bind_ok sum]
  exact Checked.difference_eq_ok (by unfold firstCluster; omega)

theorem tableSize_lt (g : Geometry) : g.tableSize < limit :=
  Nat.mul_lt_mul'' g.sectorsPerTable.toNat_lt g.bytesPerSector.toNat_lt

/-- The one operation whose result can be too large is the one whose width the capacity checks. -/
theorem narrow_tableCapacity (g : Geometry) : Narrow.tableCapacity g = Checked.tableCapacity g := by
  rw [Narrow.tableCapacity, Nat.mod_eq_of_lt g.tableSize_lt, Checked.tableCapacity]
  by_cases wide : 0x100000000 ≤ g.tableSize * 2
  · rw [if_pos wide, mul, fit_eq_overflow wide]
    rfl
  · rw [if_neg wide, mul, Outcome.bind_ok (fit_eq_ok (Nat.lt_of_not_le wide)),
      div_eq_ok (by decide)]
    rfl

theorem narrow_tableCapacity_eq_ok_iff (g : Geometry) :
    Narrow.tableCapacity g = .ok g.tableCapacity ↔ g.tableSize * 2 < limit := by
  rw [narrow_tableCapacity, Checked.tableCapacity]
  by_cases wide : 0x100000000 ≤ g.tableSize * 2
  · rw [if_pos wide]
    exact ⟨fun h => (nomatch h), fun h => absurd h (Nat.not_lt.2 wide)⟩
  · rw [if_neg wide]
    exact ⟨fun _ => Nat.lt_of_not_le wide, fun _ => rfl⟩

end Derived

theorem narrow_validate (g : Geometry) : Narrow.validate g = g.validate := by
  unfold Narrow.validate validate layoutDefect?
  by_cases zero : g.bytesPerSector = 0 ∨ g.sectorsPerCluster = 0 ∨ g.tableCount = 0 ∨
      g.rootEntries = 0 ∨ g.sectorsPerTable = 0
  · simp only [if_pos zero]
  · by_cases small : g.bytesPerSector.toNat < bootSectorSize
    · simp only [if_neg zero, if_pos small]
    · have shaped : g.Shaped := ⟨zero, Nat.le_of_not_lt small⟩
      simp only [if_neg zero, if_neg small]
      rw [Outcome.bind_ok (narrow_dataStart shaped)]
      by_cases full : g.totalSectors.toNat ≤ g.dataStart
      · simp only [if_pos full]
      · simp only [if_neg full]
        rw [Outcome.bind_ok (narrow_dataClusters shaped)]
        by_cases many : clusterLimit < g.dataClusters
        · simp only [if_pos many]
        · simp only [if_neg many]
          rw [Outcome.bind_ok (narrow_maxCluster shaped), narrow_tableCapacity]

section Answers
variable {g : Geometry}

theorem Oversized.validate (h : g.Oversized) : g.validate = .error (.fault .overflow) := by
  have table : 0x100000000 ≤ g.tableSize * 2 := h.table
  rw [Geometry.validate, h.regions]
  change Checked.tableCapacity g >>= _ = _
  rw [Checked.tableCapacity, if_pos table]
  rfl

theorem oversized_of_fault {f : Fault} (h : g.validate = .error (.fault f)) : g.Oversized := by
  unfold Geometry.validate at h
  cases regions : g.layoutDefect? with
  | some d =>
    rw [regions] at h
    cases h
  | none =>
    refine ⟨regions, Nat.le_of_not_lt fun narrow => ?_⟩
    have capacity : Checked.tableCapacity g = .ok g.tableCapacity := if_neg (Nat.not_le.2 narrow)
    rw [regions] at h
    change Checked.tableCapacity g >>= _ = _ at h
    rw [Outcome.bind_ok capacity] at h
    split at h
    · cases h
    · cases h

theorem validate_fault_iff (g : Geometry) (f : Fault) :
    g.validate = .error (.fault f) ↔ f = .overflow ∧ g.Oversized := by
  constructor
  · exact fun h => ⟨validate_fault h, oversized_of_fault h⟩
  · rintro ⟨rfl, oversized⟩
    exact oversized.validate

/-- Only one table fits the disk, and it has more than half of all sectors that can be counted. -/
theorem Oversized.bounds (h : g.Oversized) : g.tableCount = 1 ∧
    0x8000 < g.sectorsPerTable.toNat ∧ 0x8000 < g.bytesPerSector.toNat := by
  obtain ⟨⟨⟨_, _, tables, _⟩, _⟩, room, _⟩ := layoutDefect?_eq_none h.regions
  have table : Word32.limit ≤ g.sectorsPerTable.toNat * g.bytesPerSector.toNat * 2 := h.table
  have bytes := Nat.le_of_lt_succ g.bytesPerSector.toNat_lt
  have total := g.totalSectors.toNat_lt
  have one : 0 < g.tableCount.toNat :=
    UInt8.lt_iff_toNat_lt.1 (UInt8.pos_iff_ne_zero.2 tables)
  have start : g.tableCount.toNat * g.sectorsPerTable.toNat ≤ g.dataStart := by
    unfold dataStart rootStart
    omega
  have single : g.sectorsPerTable.toNat ≤ g.tableCount.toNat * g.sectorsPerTable.toNat :=
    Nat.le_mul_of_pos_left _ one
  have sectors : 0x8000 < g.sectorsPerTable.toNat := by
    refine Nat.lt_of_not_le fun few => ?_
    have := Nat.mul_le_mul few bytes
    unfold Word32.limit at table
    omega
  refine ⟨?_, sectors, ?_⟩
  · rw [← UInt8.toNat_inj]
    refine Nat.le_antisymm (Nat.le_of_not_lt fun two => ?_) one
    have := Nat.mul_le_mul_right g.sectorsPerTable.toNat (Nat.succ_le_of_lt two)
    change 2 * _ ≤ _ at this
    omega
  · refine Nat.lt_of_not_le fun few => ?_
    have := Nat.mul_le_mul (show g.sectorsPerTable.toNat ≤ 0xffff by omega) few
    unfold Word32.limit at table
    omega

end Answers

end Geometry

namespace Audit

theorem geometry_fault_iff {sector : ByteArray} {g : Geometry}
    (recorded : BootSector.recorded sector = .ok g) (f : Fault) :
    BootSector.geometry sector = .error (.fault f) ↔ f = .overflow ∧ g.Oversized := by
  rw [geometry_of_recorded recorded, ← g.validate_fault_iff f]
  cases g.validate with
  | ok _ => exact ⟨fun h => (nomatch h), fun h => (nomatch h)⟩
  | error e =>
    rw [Outcome.bind_error rfl]
    exact ⟨fun h => congrArg _ (Except.error.inj h), fun h => congrArg _ (Except.error.inj h)⟩

theorem mount_overflow_iff (image : ByteArray) (f : Fault) :
    Volume.mount image = .error (.fault f) ↔ f = .overflow ∧
      Geometry.bootSectorSize ≤ image.size ∧
      ∃ g, BootSector.recorded (image.extract 0 Geometry.bootSectorSize) = .ok g ∧ g.Oversized := by
  rw [mount_fault_iff]
  constructor
  · rintro ⟨sector, parsed⟩
    obtain ⟨g, recorded⟩ : ∃ g,
        BootSector.recorded (image.extract 0 Geometry.bootSectorSize) = .ok g :=
      recorded_ends (by rw [ByteArray.size_extract]; omega)
    obtain ⟨overflow, oversized⟩ := (geometry_fault_iff recorded f).1 parsed
    exact ⟨overflow, sector, g, recorded, oversized⟩
  · rintro ⟨overflow, sector, g, recorded, oversized⟩
    exact ⟨sector, (geometry_fault_iff recorded f).2 ⟨overflow, oversized⟩⟩

/-- Every number that validation computes fits 32 bits, except for the doubled size of a table. This
one keeps exactly the oversized layouts from having an answer, in a boot sector and in any image. -/
theorem validation_width (g : Geometry) (sector image : ByteArray) :
    Geometry.Narrow.validate g = g.validate ∧
    (g.Shaped →
      Geometry.Narrow.rootSectors g = .ok g.rootSectors ∧
      Geometry.Narrow.dataStart g = .ok g.dataStart ∧
      Geometry.Narrow.dataClusters g = .ok g.dataClusters ∧
      Geometry.Narrow.maxCluster g = .ok g.maxCluster ∧
      (Geometry.Narrow.tableCapacity g = .ok g.tableCapacity ↔ g.tableSize * 2 < Word32.limit)) ∧
    (∀ f : Fault, g.validate = .error (.fault f) ↔ f = .overflow ∧ g.Oversized) ∧
    (g.Oversized → g.tableCount = 1 ∧ 0x8000 < g.sectorsPerTable.toNat ∧
      0x8000 < g.bytesPerSector.toNat) ∧
    (sector.size = Geometry.bootSectorSize → ∃ r, BootSector.recorded sector = .ok r ∧
      ∀ f : Fault, BootSector.geometry sector = .error (.fault f) ↔ f = .overflow ∧ r.Oversized) ∧
    ∀ f : Fault, Volume.mount image = .error (.fault f) ↔ f = .overflow ∧
      Geometry.bootSectorSize ≤ image.size ∧
      ∃ r, BootSector.recorded (image.extract 0 Geometry.bootSectorSize) = .ok r ∧ r.Oversized := by
  refine ⟨Geometry.narrow_validate g, fun shaped => ?_, g.validate_fault_iff,
    fun oversized => oversized.bounds, fun size => ?_, mount_overflow_iff image⟩
  · exact ⟨Geometry.narrow_rootSectors shaped, Geometry.narrow_dataStart shaped,
      Geometry.narrow_dataClusters shaped, Geometry.narrow_maxCluster shaped,
      Geometry.narrow_tableCapacity_eq_ok_iff g⟩
  · obtain ⟨r, recorded⟩ := recorded_ends size
    exact ⟨r, recorded, geometry_fault_iff recorded⟩

/-- One table of 32769 sectors of 65535 bytes: twice its size needs 33 bits. -/
def wide : Geometry where
  bytesPerSector := 65535
  totalSectors := 65535
  sectorsPerCluster := 9
  reservedSectors := 1
  tableCount := 1
  rootEntries := 1
  sectorsPerTable := 32769

theorem wide_oversized : wide.Oversized := ⟨by decide, by decide⟩

theorem floppy_width : Geometry.Narrow.maxCluster .floppy = .ok 2848 ∧
    Geometry.Narrow.tableCapacity .floppy = .ok 3072 ∧ wide.tableCount = 1 ∧
    (BootSector.encode {} wide).size = Geometry.bootSectorSize ∧
    BootSector.geometry (BootSector.encode {} wide) = .error (.fault .overflow) := by
  obtain ⟨_, exact, _⟩ := validation_width .floppy .empty .empty
  obtain ⟨_, _, _, last, capacity⟩ := exact ⟨by decide, by decide⟩
  obtain ⟨_, _, _, bounds, sectors, _⟩ :=
    validation_width wide (BootSector.encode {} wide) .empty
  obtain ⟨g, recorded, fault⟩ := sectors (BootSector.encode_size _ _)
  cases recorded.symm.trans
    (BootSector.recorded_of_fields (BootSector.fields_isPrefix_encode {} wide))
  exact ⟨last, capacity.2 (by decide), (bounds wide_oversized).1, BootSector.encode_size _ _,
    (fault .overflow).2 ⟨rfl, wide_oversized⟩⟩

/-- The fields of this layout are set and its sectors hold a boot sector, but neither validation nor
a reader of its boot sector has an answer. -/
theorem wide_unanswered : wide.Shaped ∧ Word32.limit ≤ wide.tableSize * 2 ∧
    wide.validate = .error (.fault .overflow) ∧
    BootSector.geometry (BootSector.encode {} wide) = .error (.fault .overflow) ∧
    Volume.mount (BootSector.encode {} wide) = .error (.fault .overflow) := by
  have recorded : BootSector.recorded (BootSector.encode {} wide) = .ok wide :=
    BootSector.recorded_of_fields (BootSector.fields_isPrefix_encode {} wide)
  have whole : (BootSector.encode {} wide).extract 0 Geometry.bootSectorSize =
      BootSector.encode {} wide := by
    have size : Geometry.bootSectorSize = (BootSector.encode {} wide).size :=
      (BootSector.encode_size {} wide).symm
    rw [size, ByteArray.extract_zero_size]
  refine ⟨⟨by decide, by decide⟩, wide_oversized.table, wide_oversized.validate,
    (geometry_fault_iff recorded _).2 ⟨rfl, wide_oversized⟩, ?_⟩
  refine (mount_overflow_iff _ _).2 ⟨rfl, ?_, wide, ?_, wide_oversized⟩
  · rw [BootSector.encode_size]
    decide
  · rw [whole, recorded]

end Audit

end BootDisk
