import BootDisk.Geometry

set_option autoImplicit false

namespace BootDisk.Geometry

/-- The promises of a validated geometry. -/
structure Bounds (g : Geometry) : Prop where
  sector : bootSectorSize ≤ g.bytesPerSector.toNat
  cluster : 0 < g.sectorsPerCluster.toNat
  tables : 0 < g.tableCount.toNat
  records : 0 < g.rootEntries.toNat
  table : 0 < g.sectorsPerTable.toNat
  data : g.dataStart < g.totalSectors.toNat
  clusters : g.dataClusters ≤ clusterLimit
  width : g.tableSize * 2 < 0x100000000
  capacity : g.maxCluster < g.tableCapacity

theorem layoutDefect?_eq_none {g : Geometry} (h : g.layoutDefect? = none) :
    ((g.bytesPerSector ≠ 0 ∧ g.sectorsPerCluster ≠ 0 ∧ g.tableCount ≠ 0 ∧ g.rootEntries ≠ 0 ∧
      g.sectorsPerTable ≠ 0) ∧ bootSectorSize ≤ g.bytesPerSector.toNat) ∧
      g.dataStart < g.totalSectors.toNat ∧ g.dataClusters ≤ clusterLimit := by
  unfold layoutDefect? at h
  split at h
  · cases h
  · rename_i fields
    split at h
    · cases h
    · split at h
      · cases h
      · split at h
        · cases h
        · simp only [not_or] at fields
          exact ⟨⟨fields, by omega⟩, by omega, by omega⟩

theorem Valid.bounds {g : Geometry} (h : g.Valid) : g.Bounds := by
  obtain ⟨defect, width, capacity⟩ := h
  obtain ⟨⟨⟨_, cluster, tables, records, table⟩, sector⟩, data, clusters⟩ :=
    layoutDefect?_eq_none defect
  exact {
    sector, data, clusters, width, capacity
    cluster := UInt8.lt_iff_toNat_lt.1 (UInt8.pos_iff_ne_zero.2 cluster)
    tables := UInt8.lt_iff_toNat_lt.1 (UInt8.pos_iff_ne_zero.2 tables)
    records := UInt16.lt_iff_toNat_lt.1 (UInt16.pos_iff_ne_zero.2 records)
    table := UInt16.lt_iff_toNat_lt.1 (UInt16.pos_iff_ne_zero.2 table) }

theorem bounds_of_validate {g : Geometry} (h : g.validate = .ok ()) : g.Bounds :=
  ((validate_eq_ok_iff g).1 h).bounds

theorem tableOffset_eq (g : Geometry) (copy : Nat) :
    g.tableOffset copy = g.tableOffset 0 + copy * g.tableSize := by
  simp only [tableOffset, tableSize, Nat.add_mul, Nat.zero_mul, Nat.add_zero, Nat.mul_assoc]

theorem rootOffset_eq (g : Geometry) :
    g.rootOffset = g.tableOffset 0 + g.tableCount.toNat * g.tableSize := by
  simp only [rootOffset, rootStart, tableOffset, tableSize, Nat.add_mul, Nat.zero_mul,
    Nat.add_zero, Nat.mul_assoc]

theorem dataOffset_eq (g : Geometry) : g.dataOffset = g.rootOffset + g.rootSize := by
  simp only [dataOffset, dataStart, rootOffset, rootSize, Nat.add_mul]

theorem clusterOffset_first (g : Geometry) : g.clusterOffset firstCluster = g.dataOffset := by
  rw [clusterOffset, Nat.sub_self, Nat.zero_mul, Nat.add_zero]

theorem dataOffset_le_clusterOffset (g : Geometry) (c : Nat) : g.dataOffset ≤ g.clusterOffset c :=
  Nat.le_add_right _ _

theorem clusterOffset_add (g : Geometry) {c : Nat} (lower : firstCluster ≤ c) (count : Nat) :
    g.clusterOffset (c + count) = g.clusterOffset c + count * g.clusterSize := by
  have e : c + count - firstCluster = c - firstCluster + count := by omega
  rw [clusterOffset, clusterOffset, e, Nat.add_mul, Nat.add_assoc]

theorem clusterOffset_mono (g : Geometry) {c later : Nat} (h : c ≤ later) :
    g.clusterOffset c ≤ g.clusterOffset later :=
  Nat.add_le_add_left (Nat.mul_le_mul_right _ (Nat.sub_le_sub_right h _)) _

theorem stop_cluster_le (g : Geometry) {c later : Nat} (lower : firstCluster ≤ c) (h : c < later) :
    g.clusterOffset c + g.clusterSize ≤ g.clusterOffset later := by
  have next := g.clusterOffset_mono (Nat.succ_le_of_lt h)
  rw [Nat.succ_eq_add_one, g.clusterOffset_add lower 1, Nat.one_mul] at next
  exact next

theorem imageSize_lt (g : Geometry) : g.imageSize < 0x100000000 := by
  have sectors := g.totalSectors.toNat_lt
  have bytes := g.bytesPerSector.toNat_lt
  have := Nat.mul_lt_mul'' sectors bytes
  unfold imageSize
  omega

theorem tableCapacity_lt (g : Geometry) : g.tableCapacity < 0x100000000 := by
  have sectors := g.sectorsPerTable.toNat_lt
  have bytes := g.bytesPerSector.toNat_lt
  have := Nat.mul_lt_mul'' sectors bytes
  unfold tableCapacity tableSize
  omega

theorem maxCluster_eq (g : Geometry) : g.maxCluster = g.dataClusters + 1 := rfl

section Sectors
variable {g : Geometry} (sectors : g.bytesPerSector ≠ 0)
include sectors

theorem withSectors_eq_ok {α : Type} (value : α) : g.withSectors value = .ok value := by
  rw [withSectors, if_neg sectors]
  rfl

theorem records_le_rootSize : g.rootEntries.toNat * recordSize ≤ g.rootSize := by
  have pos : 0 < g.bytesPerSector.toNat :=
    UInt16.lt_iff_toNat_lt.1 (UInt16.pos_iff_ne_zero.2 sectors)
  have rounded := Nat.lt_div_mul_add pos (a := g.rootEntries.toNat * recordSize +
    g.bytesPerSector.toNat - 1)
  unfold rootSize rootSectors
  omega

theorem rootSize_of_dvd (aligned : g.bytesPerSector.toNat ∣ g.rootEntries.toNat * recordSize) :
    g.rootSize = g.rootEntries.toNat * recordSize := by
  obtain ⟨count, full⟩ := aligned
  have pos : 0 < g.bytesPerSector.toNat :=
    UInt16.lt_iff_toNat_lt.1 (UInt16.pos_iff_ne_zero.2 sectors)
  have rounded : g.rootSectors = count := by
    rw [rootSectors, full, Nat.add_sub_assoc pos, Nat.mul_add_div pos,
      Nat.div_eq_of_lt (Nat.sub_lt pos Nat.one_pos), Nat.add_zero]
  rw [rootSize, rounded, full, Nat.mul_comm]

end Sectors

namespace Bounds
variable {g : Geometry} (h : g.Bounds)
include h

theorem sector_pos : 0 < g.bytesPerSector.toNat := Nat.lt_of_lt_of_le (by decide) h.sector

theorem bytesPerSector_ne_zero : g.bytesPerSector ≠ 0 := by
  intro e
  have := h.sector_pos
  rw [e] at this
  exact absurd this (by decide)

theorem sectorsPerCluster_ne_zero : g.sectorsPerCluster ≠ 0 := by
  intro e
  have := h.cluster
  rw [e] at this
  exact absurd this (by decide)

theorem clusterSize_pos : 0 < g.clusterSize := Nat.mul_pos h.cluster h.sector_pos

theorem sector_le_tableSize : bootSectorSize ≤ g.tableSize :=
  Nat.le_trans h.sector (Nat.le_mul_of_pos_left _ h.table)

theorem records_fit : g.rootEntries.toNat * recordSize ≤ g.rootSize :=
  records_le_rootSize h.bytesPerSector_ne_zero

theorem sector_le_clusterSize : bootSectorSize ≤ g.clusterSize :=
  Nat.le_trans h.sector (Nat.le_mul_of_pos_left _ h.cluster)

theorem sector_le_rootSize : bootSectorSize ≤ g.rootSize := by
  have nonempty : 0 < g.rootSectors * g.bytesPerSector.toNat :=
    Nat.lt_of_lt_of_le (Nat.mul_pos h.records (by decide)) h.records_fit
  have sectors := (Nat.mul_pos_iff_of_pos_right h.sector_pos).1 nonempty
  exact Nat.le_trans h.sector (Nat.le_mul_of_pos_left _ sectors)

theorem sectors_le_dataOffset : bootSectorSize + bootSectorSize ≤ g.dataOffset := by
  have one : g.tableSize ≤ g.tableCount.toNat * g.tableSize :=
    Nat.le_mul_of_pos_left _ h.tables
  have := h.sector_le_tableSize
  have := h.sector_le_rootSize
  rw [dataOffset_eq, rootOffset_eq]
  omega

theorem bootSector_le_dataOffset : bootSectorSize ≤ g.dataOffset :=
  Nat.le_trans (Nat.le_add_left _ _) h.sectors_le_dataOffset

theorem bootSector_le_tableOffset (reserved : 1 ≤ g.reservedSectors.toNat) :
    bootSectorSize ≤ g.tableOffset 0 := by
  have one : g.bytesPerSector.toNat ≤ g.reservedSectors.toNat * g.bytesPerSector.toNat :=
    Nat.le_mul_of_pos_left _ reserved
  have := h.sector
  rw [tableOffset, tableStart, Nat.zero_mul, Nat.add_zero]
  omega

theorem clusters_fit : g.dataOffset + g.dataClusters * g.clusterSize ≤ g.imageSize := by
  have floor : g.dataClusters * g.sectorsPerCluster.toNat ≤ g.totalSectors.toNat - g.dataStart :=
    Nat.div_mul_le_self _ _
  have room := h.data
  rw [dataOffset, clusterSize, imageSize, ← Nat.mul_assoc, ← Nat.add_mul]
  exact Nat.mul_le_mul_right _ (by omega)

theorem dataOffset_lt_imageSize : g.dataOffset < g.imageSize :=
  Nat.mul_lt_mul_of_pos_right h.data h.sector_pos

theorem clusterOffset_le {c : Nat} (upper : c ≤ g.maxCluster + 1) :
    g.clusterOffset c ≤ g.imageSize := by
  have last := h.clusters_fit
  have below : (c - firstCluster) * g.clusterSize ≤ g.dataClusters * g.clusterSize := by
    apply Nat.mul_le_mul_right
    rw [maxCluster_eq g] at upper
    unfold firstCluster
    omega
  unfold clusterOffset
  omega

theorem checked_rootSize : Checked.rootSize g = .ok g.rootSize :=
  withSectors_eq_ok h.bytesPerSector_ne_zero _

theorem checked_dataOffset : Checked.dataOffset g = .ok g.dataOffset :=
  withSectors_eq_ok h.bytesPerSector_ne_zero _

theorem checked_maxCluster : Checked.maxCluster g = .ok g.maxCluster := by
  rw [Checked.maxCluster, withClusters, if_neg h.sectorsPerCluster_ne_zero]
  exact withSectors_eq_ok h.bytesPerSector_ne_zero _

theorem checked_clusterOffset {c : Nat} (lower : firstCluster ≤ c) :
    Checked.clusterOffset g c = .ok (g.clusterOffset c) := by
  rw [Checked.clusterOffset, if_neg (by omega)]
  exact withSectors_eq_ok h.bytesPerSector_ne_zero _

end Bounds

end BootDisk.Geometry
