import BootDisk.Proofs.Geometry.Bounds

set_option autoImplicit false

/-!
# The regions of a layout

The boot sector, the copies of the table, the root directory and the clusters are ranges of bytes.
All but the boot sector follow one another by construction. The boot sector is out of the way of
the first table exactly when a sector is reserved for it, which validation does not ask for.
-/
namespace BootDisk.Geometry

inductive Region where
  | bootSector
  | table (copy : Nat)
  | root
  | cluster (c : Nat)
deriving DecidableEq, Repr

namespace Region

def InLayout (g : Geometry) : Region → Prop
  | bootSector => True
  | table copy => copy < g.tableCount.toNat
  | root => True
  | cluster c => firstCluster ≤ c ∧ c ≤ g.maxCluster

def start (g : Geometry) : Region → Nat
  | bootSector => 0
  | table copy => g.tableOffset copy
  | root => g.rootOffset
  | cluster c => g.clusterOffset c

def size (g : Geometry) : Region → Nat
  | bootSector => bootSectorSize
  | table _ => g.tableSize
  | root => g.rootSize
  | cluster _ => g.clusterSize

def stop (g : Geometry) (r : Region) : Nat := r.start g + r.size g

def Apart (g : Geometry) (r t : Region) : Prop := r.stop g ≤ t.start g ∨ t.stop g ≤ r.start g

def Before : Region → Region → Prop
  | bootSector, t => t ≠ bootSector
  | table copy, table later => copy < later
  | table _, root => True
  | table _, cluster _ => True
  | root, cluster _ => True
  | cluster c, cluster later => c < later
  | _, _ => False

theorem before_or {r t : Region} (different : r ≠ t) : r.Before t ∨ t.Before r := by
  cases r <;> cases t
  case table.table copy later => exact Nat.lt_or_gt_of_ne (by simpa using different)
  case cluster.cluster c later => exact Nat.lt_or_gt_of_ne (by simpa using different)
  all_goals simp_all [Before]

end Region

theorem stop_table_le (g : Geometry) {copy later : Nat} (h : copy < later) :
    g.tableOffset copy + g.tableSize ≤ g.tableOffset later := by
  have grown := Nat.mul_le_mul_right g.tableSize (Nat.succ_le_of_lt h)
  rw [Nat.succ_mul] at grown
  rw [g.tableOffset_eq copy, g.tableOffset_eq later]
  omega

theorem tableOffset_mono (g : Geometry) {copy later : Nat} (h : copy ≤ later) :
    g.tableOffset copy ≤ g.tableOffset later := by
  rw [g.tableOffset_eq copy, g.tableOffset_eq later]
  exact Nat.add_le_add_left (Nat.mul_le_mul_right _ h) _

theorem tableOffset_count (g : Geometry) : g.tableOffset g.tableCount.toNat = g.rootOffset := by
  rw [g.tableOffset_eq, g.rootOffset_eq]

theorem stop_table_le_root (g : Geometry) {copy : Nat} (h : copy < g.tableCount.toNat) :
    g.tableOffset copy + g.tableSize ≤ g.rootOffset := by
  rw [← g.tableOffset_count]
  exact g.stop_table_le h

theorem exists_other_table (g : Geometry) (several : 2 ≤ g.tableCount.toNat) (copy : Nat) :
    ∃ other, other < g.tableCount.toNat ∧
      (g.tableOffset other + g.tableSize ≤ g.tableOffset copy ∨
        g.tableOffset copy + g.tableSize ≤ g.tableOffset other) := by
  by_cases first : copy = 0
  · exact ⟨1, several, .inr (g.stop_table_le (by omega))⟩
  · exact ⟨0, by omega, .inl (g.stop_table_le (by omega))⟩

theorem tableOffset_of_unreserved (g : Geometry) (none : g.reservedSectors.toNat = 0) :
    g.tableOffset 0 = 0 := by
  rw [tableOffset, tableStart, none, Nat.zero_mul, Nat.add_zero, Nat.zero_mul]

namespace Bounds
variable {g : Geometry} (h : g.Bounds)
include h

theorem stop_le_imageSize {r : Region} (inLayout : r.InLayout g) : r.stop g ≤ g.imageSize := by
  have data := h.dataOffset_lt_imageSize
  have root := g.dataOffset_eq
  cases r with
  | bootSector =>
    have := h.bootSector_le_dataOffset
    change 0 + bootSectorSize ≤ _
    omega
  | table copy =>
    have inside : copy < g.tableCount.toNat := inLayout
    have := g.stop_table_le_root inside
    change g.tableOffset copy + g.tableSize ≤ _
    omega
  | root =>
    change g.rootOffset + g.rootSize ≤ _
    omega
  | cluster c =>
    obtain ⟨lower, upper⟩ := inLayout
    exact Nat.le_trans (g.stop_cluster_le lower (Nat.lt_succ_self c))
      (h.clusterOffset_le (Nat.succ_le_succ upper))

omit h in
theorem tableOffset_le_start {r : Region} (inLayout : r.InLayout g) (behind : r ≠ .bootSector) :
    g.tableOffset 0 ≤ r.start g := by
  have root := g.rootOffset_eq
  have data := g.dataOffset_eq
  cases r with
  | bootSector => exact absurd rfl behind
  | table copy => exact g.tableOffset_mono (Nat.zero_le copy)
  | root =>
    change _ ≤ g.rootOffset
    omega
  | cluster c =>
    have := g.dataOffset_le_clusterOffset c
    change _ ≤ g.clusterOffset c
    omega

theorem stop_le_start (reserved : 1 ≤ g.reservedSectors.toNat) {r t : Region}
    (hr : r.InLayout g) (ht : t.InLayout g) (before : r.Before t) : r.stop g ≤ t.start g := by
  have data := g.dataOffset_eq
  cases r with
  | bootSector =>
    change 0 + bootSectorSize ≤ _
    rw [Nat.zero_add]
    exact Nat.le_trans (h.bootSector_le_tableOffset reserved) (tableOffset_le_start ht before)
  | table copy =>
    have stop := g.stop_table_le_root hr
    cases t with
    | bootSector => exact before.elim
    | table later => exact g.stop_table_le before
    | root => exact stop
    | cluster c =>
      have := g.dataOffset_le_clusterOffset c
      change g.tableOffset copy + g.tableSize ≤ g.clusterOffset c
      omega
  | root =>
    cases t with
    | cluster c =>
      have := g.dataOffset_le_clusterOffset c
      change g.rootOffset + g.rootSize ≤ g.clusterOffset c
      omega
    | _ => exact before.elim
  | cluster c =>
    cases t with
    | cluster later => exact g.stop_cluster_le hr.1 before
    | _ => exact before.elim

theorem regions_apart (reserved : 1 ≤ g.reservedSectors.toNat) {r t : Region}
    (hr : r.InLayout g) (ht : t.InLayout g) (different : r ≠ t) : r.Apart g t := by
  rcases Region.before_or different with before | behind
  · exact .inl (h.stop_le_start reserved hr ht before)
  · exact .inr (h.stop_le_start reserved ht hr behind)

theorem reserved_of_apart (apart : Region.Apart g .bootSector (.table 0)) :
    1 ≤ g.reservedSectors.toNat := by
  apply Nat.pos_of_ne_zero
  intro none
  have start := g.tableOffset_of_unreserved none
  have size := h.sector_le_tableSize
  change 0 + bootSectorSize ≤ g.tableOffset 0 ∨ g.tableOffset 0 + g.tableSize ≤ 0 at apart
  unfold bootSectorSize at *
  omega

end Bounds
end BootDisk.Geometry
