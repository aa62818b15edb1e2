import BootDisk.Proofs.Extents

set_option autoImplicit false

namespace BootDisk

namespace Extent

/-- The run starts in the data region and ends in an image of `size` bytes. -/
def Inside (g : Geometry) (size : Nat) (e : Extent) : Prop :=
  Geometry.firstCluster ≤ e.start ∧ g.clusterOffset e.start + e.count * g.clusterSize ≤ size

def defect? (g : Geometry) (size : Nat) (e : Extent) : Option AccessError :=
  if e.start < Geometry.firstCluster then some (.reserved e.start)
  else if size < g.clusterOffset e.start + e.count * g.clusterSize then
    some (.pastEnd (g.clusterOffset e.start) (g.clusterOffset e.start + e.count * g.clusterSize) size)
  else none

theorem defect?_eq_none_iff {g : Geometry} {size : Nat} {e : Extent} :
    e.defect? g size = none ↔ e.Inside g size := by
  unfold defect? Inside
  by_cases below : e.start < Geometry.firstCluster
  · rw [if_pos below]
    exact ⟨fun h => (nomatch h), fun h => absurd h.1 (Nat.not_le.2 below)⟩
  · rw [if_neg below]
    by_cases behind : size < g.clusterOffset e.start + e.count * g.clusterSize
    · rw [if_pos behind]
      exact ⟨fun h => (nomatch h), fun h => absurd h.2 (Nat.not_le.2 behind)⟩
    · rw [if_neg behind]
      exact ⟨fun _ => ⟨Nat.not_lt.1 below, Nat.not_lt.1 behind⟩, fun _ => rfl⟩

section Access
variable {g : Geometry} (bounds : g.Bounds) {image data : ByteArray} {size : Nat} {e : Extent}
include bounds

theorem rangeWithin_refused {cause : AccessError} (defect : e.defect? g size = some cause) :
    e.rangeWithin size g = .error (.error (.transfer (.access cause))) := by
  unfold defect? at defect
  rw [rangeWithin]
  by_cases below : e.start < Geometry.firstCluster
  · rw [if_pos below] at defect ⊢
    cases defect
    rfl
  · rw [if_neg below] at defect ⊢
    change e.range g >>= _ = _
    rw [Outcome.bind_ok (range_eq_ok bounds (Nat.not_lt.1 below))]
    by_cases behind : size < g.clusterOffset e.start + e.count * g.clusterSize
    · rw [if_pos behind] at defect
      cases defect
      exact if_pos behind
    · rw [if_neg behind] at defect
      cases defect

theorem copy_refused {cause : AccessError} (defect : e.defect? g image.size = some cause) :
    copy g e data image = (.error (.error (.transfer (.access cause))), image) := by
  rw [copy, Step.get_bind, Step.lift_bind_error (rangeWithin_refused bounds defect)]

theorem read_refused {cause : AccessError} (defect : e.defect? g image.size = some cause) :
    read image g e size = .error (.error (.transfer (.access cause))) := by
  rw [read, Outcome.bind_error (rangeWithin_refused bounds defect)]

theorem read_short (inside : e.Inside g image.size) (long : e.count * g.clusterSize < size) :
    read image g e size = .error (.error (.transfer (.access (.shortRun e.count size)))) := by
  rw [read, Outcome.bind_ok (rangeWithin_eq_ok bounds inside.1 inside.2)]
  dsimp only
  rw [if_pos (by omega)]
  rfl

theorem read_cases (image : ByteArray) (e : Extent) (size : Nat) :
    ((e.Inside g image.size ∧ size ≤ e.count * g.clusterSize) ∧
      ∃ bytes, Bytes.slice? image (g.clusterOffset e.start) size = some bytes ∧
        read image g e size = .ok bytes) ∨
    (¬ (e.Inside g image.size ∧ size ≤ e.count * g.clusterSize) ∧
      ∃ cause, read image g e size = .error (.error (.transfer (.access cause)))) := by
  by_cases inside : e.Inside g image.size
  · by_cases fits : size ≤ e.count * g.clusterSize
    · obtain ⟨bytes, slice⟩ : ∃ r, Bytes.slice? image (g.clusterOffset e.start) size = some r :=
        Bytes.slice?_isSome (Nat.le_trans (Nat.add_le_add_left fits _) inside.2)
      exact .inl ⟨⟨inside, fits⟩, bytes, slice,
        read_of_slice bounds inside.1 inside.2 fits slice⟩
    · exact .inr ⟨fun h => fits h.2, _, read_short bounds inside (by omega)⟩
  · obtain ⟨cause, defect⟩ := Option.ne_none_iff_exists'.1 (mt defect?_eq_none_iff.1 inside)
    exact .inr ⟨fun h => inside h.1, cause, read_refused bounds defect⟩

theorem read_eq_ok_iff {bytes : ByteArray} : read image g e size = .ok bytes ↔
    (e.Inside g image.size ∧ size ≤ e.count * g.clusterSize) ∧
      Bytes.slice? image (g.clusterOffset e.start) size = some bytes := by
  rcases read_cases bounds image e size with ⟨fits, stored, slice, run⟩ | ⟨unfit, cause, run⟩
  · rw [run, slice, Except.ok.injEq, Option.some_inj]
    exact ⟨fun same => ⟨fits, same⟩, fun h => h.2⟩
  · rw [run]
    exact iff_of_false (by simp) fun h => unfit h.1

end Access

def Apart (e f : Extent) : Prop := ∀ c ∈ e.clusters, c ∉ f.clusters

section Apart
variable {e f : Extent} (apart : e.Apart f)
include apart

theorem Apart.before_or (nonempty : 0 < e.count) (other : 0 < f.count) :
    e.start + e.count ≤ f.start ∨ f.start + f.count ≤ e.start := by
  -- Of runs that meet, the later start is a cluster of both.
  refine Decidable.byContradiction fun meet => ?_
  exact apart (max e.start f.start) (List.mem_range'_1.2 (by omega)) (List.mem_range'_1.2 (by omega))

theorem Apart.not_shared (g : Geometry) (lower : Geometry.firstCluster ≤ e.start)
    (lowerOther : Geometry.firstCluster ≤ f.start) {i : Nat} (first : g.clusterOffset e.start ≤ i)
    (last : i < g.clusterOffset e.start + e.count * g.clusterSize) :
    i < g.clusterOffset f.start ∨ g.clusterOffset f.start + f.count * g.clusterSize ≤ i := by
  by_cases empty : f.count = 0
  · rw [empty]
    omega
  · have nonempty : 0 < e.count := by
      apply Nat.pos_of_ne_zero
      intro zero
      rw [zero] at last
      omega
    rw [← g.clusterOffset_add lower] at last
    rw [← g.clusterOffset_add lowerOther]
    rcases apart.before_or nonempty (Nat.pos_of_ne_zero empty) with before | behind
    · have := g.clusterOffset_mono before
      omega
    · have := g.clusterOffset_mono behind
      omega

end Apart

end Extent

end BootDisk
