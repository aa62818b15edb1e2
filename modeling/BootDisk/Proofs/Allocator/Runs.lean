import BootDisk.Proofs.Allocator

set_option autoImplicit false

/-!
# Requests one after another

The cursor of an allocator moves forward over exactly the clusters that it gives out, and stops at
the last one. So the extents follow one another from the first cluster up to the cursor, whatever
sizes were asked for and however many requests were refused. A count of clusters that is cut to zero
gives an empty extent and moves nothing.
-/
namespace BootDisk.Allocator

/-- Asks for the clusters of each file: the extents given out, and the allocator after them. -/
def allocateEach : List (String × Nat) → Allocator → List Extent × Allocator :=
  Step.each fun (file, size) => allocate file size

/-- The clusters in front of the cursor belong to the layout. -/
structure Within (g : Geometry) (a : Allocator) : Prop extends Ready g a where
  upper : a.next ≤ g.maxCluster + 1

section Runs
variable {g : Geometry} {a : Allocator}

theorem Within.total (h : Within g a) : a.used + a.remaining = g.dataClusters := by
  have lower := h.lower
  have upper := h.upper
  rw [used, remaining, h.maxCluster]
  rw [Geometry.maxCluster_eq] at *
  unfold Geometry.firstCluster at *
  omega

theorem Within.fresh (g : Geometry) :
    Within g ⟨Geometry.firstCluster, g.maxCluster, g.clusterSize⟩ where
  clusterSize := rfl
  maxCluster := rfl
  lower := Nat.le_refl _
  upper := by
    change Geometry.firstCluster ≤ g.dataClusters + 1 + 1
    unfold Geometry.firstCluster
    omega

variable (bounds : g.Bounds)
include bounds

theorem Within.allocate_cases (h : Within g a) (file : String) (size : Nat) :
    (∃ e b, allocate file size a = (.ok e, b) ∧ e.start = a.next ∧ b.next = a.next + e.count ∧
      Within g b) ∨ ∃ e, allocate file size a = (.error (.error e), a) := by
  have positive : 0 < a.clusterSize := by
    rw [h.clusterSize]
    exact bounds.clusterSize_pos
  by_cases empty : size = 0
  · rw [empty]
    exact .inr ⟨_, allocate_empty⟩
  · by_cases room : clustersNeeded size a.clusterSize ≤ a.remaining
    · refine .inl ⟨_, _, allocate_eq_ok positive empty room, rfl, rfl, ?_⟩
      rw [remaining, h.maxCluster] at room
      have lower := h.lower
      have upper := h.upper
      exact { h with lower := by dsimp only; omega, upper := by dsimp only; omega }
    · exact .inr ⟨_, allocate_exceeded positive empty (Nat.lt_of_not_le room)⟩

theorem Within.after_allocateEach (h : Within g a) (requests : List (String × Nat)) :
    Within g (allocateEach requests a).2 ∧
      Extent.Consecutive a.next (allocateEach requests a).1 (allocateEach requests a).2.next := by
  have start : Within g a ∧ Extent.Consecutive a.next [] a.next := ⟨h, rfl⟩
  refine Step.each_keeps (P := fun given b => Within g b ∧ Extent.Consecutive a.next given b.next)
    (fun (file, size) _ given b ⟨within, consecutive⟩ => ?_) start
  rcases within.allocate_cases bounds file size with ⟨e, c, run, start, next, last⟩ |
      ⟨e, refused⟩
  · exact .inl ⟨e, c, run, last, next ▸ consecutive.concat start⟩
  · exact .inr ⟨_, b, refused, within, consecutive⟩

end Runs

/-- What the extents given out tell about the allocator. -/
structure Accounted (g : Geometry) (given : List Extent) (a : Allocator) : Prop where
  consecutive : Extent.Consecutive Geometry.firstCluster given a.next
  clusters : given.flatMap Extent.clusters =
    List.range' Geometry.firstCluster (a.next - Geometry.firstCluster)
  apart : given.Pairwise fun e f => ∀ c ∈ e.clusters, c ∉ f.clusters
  upper : a.next ≤ g.maxCluster + 1
  total : a.used + a.remaining = g.dataClusters

/-- Whatever is asked of a fresh allocator, it gives out its clusters in order and each one once. -/
theorem allocateEach_accounted (g : Geometry) (valid : g.validate = .ok ()) :
    ∃ first, ofGeometry g = .ok first ∧ ∀ requests : List (String × Nat),
      Accounted g (allocateEach requests first).1 (allocateEach requests first).2 ∧
      (∀ more, (allocateEach requests first).1 <+: (allocateEach (requests ++ more) first).1 ∧
        (allocateEach requests first).2.next ≤ (allocateEach (requests ++ more) first).2.next) ∧
      ∀ file size e b, allocate file size (allocateEach requests first).2 = (.error e, b) →
        (∃ cause, e = .error cause) ∧ b = (allocateEach requests first).2 := by
  have bounds := Geometry.bounds_of_validate valid
  refine ⟨_, ofGeometry_eq_ok bounds, fun requests => ?_⟩
  obtain ⟨within, consecutive⟩ := (Within.fresh g).after_allocateEach bounds requests
  refine ⟨⟨consecutive, consecutive.clusters, consecutive.apart, within.upper, within.total⟩,
    ?_, ?_⟩
  · intro more
    rw [allocateEach, Step.each_append]
    exact ⟨List.prefix_append _ _, (within.after_allocateEach bounds more).2.le⟩
  · intro file size e b failed
    rcases within.allocate_cases bounds file size with ⟨_, _, run, _⟩ | ⟨cause, run⟩
    · cases run.symm.trans failed
    · cases run.symm.trans failed
      exact ⟨⟨cause, rfl⟩, rfl⟩

/-- Requests for a file, for no bytes, for a count of clusters that is cut to zero, for another file
and for more clusters than there are. -/
theorem floppy_accounted : ∃ first, ofGeometry Geometry.floppy = .ok first ∧
    allocateEach [("ONE", 100), ("NONE", 0), ("CUT", 0x1ffffffffff), ("TWO", 513), ("ALL", 2000000)]
      first = ([⟨2, 1⟩, ⟨3, 0⟩, ⟨3, 2⟩], { first with next := 5 }) ∧
    Accounted Geometry.floppy [⟨2, 1⟩, ⟨3, 0⟩, ⟨3, 2⟩] { first with next := 5 } := by
  obtain ⟨first, fresh, accounted⟩ := allocateEach_accounted Geometry.floppy rfl
  cases (ofGeometry_eq_ok (Geometry.bounds_of_validate rfl)).symm.trans fresh
  exact ⟨_, rfl, rfl, (accounted [("ONE", 100), ("NONE", 0), ("CUT", 0x1ffffffffff), ("TWO", 513),
    ("ALL", 2000000)]).1⟩

end BootDisk.Allocator
