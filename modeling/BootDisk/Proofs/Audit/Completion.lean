import BootDisk.Proofs.Audit.Regions
import BootDisk.Proofs.Geometry.Regions

set_option autoImplicit false

/-!
# The audit of a volume ends

An image that can be mounted holds a boot sector and all that lies in front of the data region, and
the audit reads nothing else from it. So it ends with its findings, whatever the bytes are. To see
that an image is caught, it is enough to refute what an audit without defects would have seen.
-/
namespace BootDisk.Audit

structure Mounted (image : ByteArray) (v : Volume) : Prop where
  whole : v.image = image
  valid : v.geometry.validate = .ok ()
  sector : Geometry.bootSectorSize ≤ image.size
  data : v.geometry.dataOffset ≤ image.size

theorem mounted_of_mount {image : ByteArray} {v : Volume} (h : Volume.mount image = .ok v) :
    Mounted image v := by
  unfold Volume.mount at h
  by_cases short : image.size < Geometry.bootSectorSize
  · rw [if_pos short] at h
    cases h
  · rw [if_neg short] at h
    obtain ⟨g, boot, h⟩ := Outcome.bind_eq_ok_iff.1 h
    obtain ⟨start, checked, h⟩ := Outcome.bind_eq_ok_iff.1 h
    obtain ⟨_, _, recorded⟩ := Outcome.bind_eq_ok_iff.1 boot
    obtain ⟨_, valid, recorded⟩ := Outcome.bind_eq_ok_iff.1 recorded
    cases recorded
    have bounds := Geometry.bounds_of_validate valid
    cases checked.symm.trans bounds.checked_dataOffset
    by_cases cut : image.size < g.dataOffset
    · rw [if_pos cut] at h
      cases h
    · rw [if_neg cut] at h
      obtain ⟨table, _, h⟩ := Outcome.bind_eq_ok_iff.1 h
      cases h
      exact ⟨rfl, valid, Nat.le_of_not_lt short, Nat.le_of_not_lt cut⟩

section Ends
variable {v : Volume} (bounds : v.geometry.Bounds)

theorem byte_ends {b : ByteArray} {i : Nat} (h : i < b.size) :
    ∃ x, orFault .outOfBounds (Bytes.byte? b i) = .ok x := by
  obtain ⟨x, here⟩ := Bytes.byte?_of_lt h
  exact ⟨x, Outcome.orFault_some here⟩

theorem size_bootSector (sector : Geometry.bootSectorSize ≤ v.image.size) :
    v.bootSector.size = Geometry.bootSectorSize := by
  rw [Volume.bootSector, ByteArray.size_extract]
  omega

theorem bootSector_ends (sector : Geometry.bootSectorSize ≤ v.image.size) :
    ∃ defects warnings, bootSector v = .ok (defects, warnings) := by
  have size := size_bootSector sector
  have byte : ∀ i, i < Geometry.bootSectorSize → ∃ x, BootSector.byte v.bootSector i = .ok x :=
    fun i hi => byte_ends (size ▸ hi)
  obtain ⟨b₀, h₀⟩ := byte 0 (by decide)
  obtain ⟨b₁, h₁⟩ := byte 1 (by decide)
  obtain ⟨b₂, h₂⟩ := byte 2 (by decide)
  obtain ⟨s₀, h₃⟩ := byte BootSector.Offset.signature (by decide)
  obtain ⟨s₁, h₄⟩ := byte (BootSector.Offset.signature + 1) (by decide)
  obtain ⟨extended, h₅⟩ := byte BootSector.Offset.extendedSignature (by decide)
  obtain ⟨type, h₆⟩ : ∃ type, Bytes.slice? v.bootSector BootSector.Offset.systemType 8 = some type :=
    Bytes.slice?_isSome (by rw [size]; decide)
  unfold bootSector
  dsimp only
  rw [Outcome.bind_ok h₀, Outcome.bind_ok h₁, Outcome.bind_ok h₂, Outcome.bind_ok h₃,
    Outcome.bind_ok h₄, Outcome.bind_ok h₅, Outcome.bind_ok (Outcome.orFault_some h₆)]
  exact ⟨_, _, rfl⟩

theorem tableCopy_ends (data : v.geometry.dataOffset ≤ v.image.size) {copy : Nat}
    (inside : copy < v.geometry.tableCount.toNat) : ∃ bytes, v.tableCopy copy = .ok bytes := by
  have stop := v.geometry.stop_table_le_root inside
  have root := v.geometry.dataOffset_eq
  obtain ⟨bytes, slice⟩ : ∃ bytes,
      Bytes.slice? v.image (v.geometry.tableOffset copy) v.geometry.tableSize = some bytes :=
    Bytes.slice?_isSome (by omega)
  exact ⟨bytes, Outcome.orFault_some slice⟩

theorem differingCopies_ends (data : v.geometry.dataOffset ≤ v.image.size) (first : ByteArray)
    (left copy : Nat) (inside : copy + left ≤ v.geometry.tableCount.toNat) :
    ∃ defects, differingCopies v first left copy = .ok defects := by
  induction left generalizing copy with
  | zero => exact ⟨[], rfl⟩
  | succ left ih =>
    obtain ⟨bytes, here⟩ := tableCopy_ends data (show copy < v.geometry.tableCount.toNat by omega)
    obtain ⟨rest, tail⟩ := ih (copy + 1) (by omega)
    rw [differingCopies, Outcome.bind_ok here, Outcome.bind_ok tail]
    exact ⟨_, rfl⟩

include bounds

theorem tables_ends (sector : Geometry.bootSectorSize ≤ v.image.size)
    (data : v.geometry.dataOffset ≤ v.image.size) : ∃ defects, tables v = .ok defects := by
  have room := bounds.sector_le_tableSize
  have some := bounds.tables
  obtain ⟨first, here⟩ := tableCopy_ends data some
  have size : first.size = v.geometry.tableSize :=
    Bytes.slice?_size (Outcome.orFault_eq_ok_iff.1 here)
  obtain ⟨copies, others⟩ := differingCopies_ends data first (v.geometry.tableCount.toNat - 1) 1
    (by omega)
  obtain ⟨media, recorded⟩ : ∃ x, BootSector.byte v.bootSector BootSector.Offset.media = .ok x :=
    byte_ends (by rw [size_bootSector sector]; decide)
  have byte : ∀ i, i < Geometry.bootSectorSize →
      ∃ x, orFault .outOfBounds (Bytes.byte? first i) = .ok x := fun i hi => byte_ends (by omega)
  obtain ⟨b₀, h₀⟩ := byte 0 (by decide)
  obtain ⟨b₁, h₁⟩ := byte 1 (by decide)
  obtain ⟨b₂, h₂⟩ := byte 2 (by decide)
  rw [tables, Outcome.bind_ok here, Outcome.bind_ok others, Outcome.bind_ok recorded,
    Outcome.bind_ok h₀, Outcome.bind_ok h₁, Outcome.bind_ok h₂]
  exact ⟨_, rfl⟩

theorem records_end (data : v.geometry.dataOffset ≤ v.image.size) :
    ∃ region, Bytes.slice? v.image v.geometry.rootOffset v.geometry.rootSize = some region ∧
      v.records = .ok (Record.allIn region) := by
  obtain ⟨region, slice⟩ : ∃ region,
      Bytes.slice? v.image v.geometry.rootOffset v.geometry.rootSize = some region :=
    Bytes.slice?_isSome (by rw [← v.geometry.dataOffset_eq]; exact data)
  refine ⟨region, slice, ?_⟩
  rw [Volume.records, Outcome.bind_ok bounds.checked_rootSize,
    Outcome.bind_ok (Outcome.orFault_some slice)]
  rfl

theorem ofVolume_ends (sector : Geometry.bootSectorSize ≤ v.image.size)
    (data : v.geometry.dataOffset ≤ v.image.size) : ∃ a, ofVolume v = .ok a := by
  obtain ⟨_, _, boot⟩ := bootSector_ends sector
  obtain ⟨_, table⟩ := tables_ends bounds sector data
  obtain ⟨region, _, listed⟩ := records_end bounds data
  obtain ⟨p, run, _⟩ := records_from_empty bounds (Record.allIn region)
  rw [ofVolume, Outcome.bind_ok boot]
  dsimp only
  rw [Outcome.bind_ok table, Outcome.bind_ok listed, Outcome.bind_ok run]
  exact ⟨_, rfl⟩

end Ends

/-- The audit of the image ends with a defect. -/
def Caught (image : ByteArray) : Prop := ∃ a, ofImage image = .ok a ∧ a.isValid = false

theorem caught_of_mount {image : ByteArray} {v : Volume} (h : Volume.mount image = .ok v)
    (defective : ∀ records, tables v = .ok [] → v.records = .ok records → ¬ Orderly v records) :
    Caught image := by
  obtain ⟨rfl, valid, sector, data⟩ := mounted_of_mount h
  have bounds := Geometry.bounds_of_validate valid
  obtain ⟨a, ends⟩ := ofVolume_ends bounds sector data
  refine ⟨a, by rw [ofImage, Outcome.bind_ok h, ends], ?_⟩
  cases clear : a.isValid with
  | false => rfl
  | true =>
    obtain ⟨_, table, records, p, listed, run, none⟩ := parts_of_ofVolume ends clear
    obtain ⟨q, same, clean, _⟩ := records_from_empty bounds records
    cases same.symm.trans run
    exact absurd (clean.1 none) (defective records table listed)

end BootDisk.Audit
