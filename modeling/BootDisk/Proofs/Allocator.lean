import BootDisk.Proofs.Extents

set_option autoImplicit false

namespace BootDisk.Allocator
variable {a : Allocator} {file : String} {size : Nat}

theorem allocate_empty : allocate file 0 a = (.error (.error (.emptyFile file)), a) := rfl

theorem checked_clustersNeeded (positive : 0 < a.clusterSize) :
    Checked.clustersNeeded size a.clusterSize = .ok (clustersNeeded size a.clusterSize) := by
  rw [Checked.clustersNeeded, if_neg (by omega)]
  rfl

theorem allocate_exceeded (positive : 0 < a.clusterSize) (nonempty : size ≠ 0)
    (exceeds : a.remaining < clustersNeeded size a.clusterSize) : allocate file size a =
      (.error (.error (.capacityExceeded file (clustersNeeded size a.clusterSize) a.remaining)),
        a) := by
  unfold allocate
  dsimp only
  rw [if_neg nonempty, Step.get_bind, Step.lift_bind_ok (checked_clustersNeeded positive)]
  rw [if_pos exceeds, Step.fail_bind]

theorem allocate_eq_ok (positive : 0 < a.clusterSize) (nonempty : size ≠ 0)
    (room : clustersNeeded size a.clusterSize ≤ a.remaining) : allocate file size a =
      (.ok ⟨a.next, clustersNeeded size a.clusterSize⟩,
        { a with next := a.next + clustersNeeded size a.clusterSize }) := by
  unfold allocate
  dsimp only
  rw [if_neg nonempty, Step.get_bind, Step.lift_bind_ok (checked_clustersNeeded positive)]
  rw [if_neg (by omega)]
  rfl

theorem ofGeometry_eq_ok {g : Geometry} (bounds : g.Bounds) :
    ofGeometry g = .ok ⟨Geometry.firstCluster, g.maxCluster, g.clusterSize⟩ := by
  rw [ofGeometry, Outcome.bind_ok bounds.checked_maxCluster]
  rfl

inductive Reachable (g : Geometry) : Allocator → Prop where
  | fresh {a : Allocator} : ofGeometry g = .ok a → Reachable g a
  | next {a : Allocator} (file : String) (size : Nat) :
      Reachable g a → Reachable g (allocate file size a).2

structure Ready (g : Geometry) (a : Allocator) : Prop where
  clusterSize : a.clusterSize = g.clusterSize
  maxCluster : a.maxCluster = g.maxCluster
  lower : Geometry.firstCluster ≤ a.next

section Requests
variable {g : Geometry} (bounds : g.Bounds)
include bounds

theorem Ready.after_allocate (h : Ready g a) (file : String) (size : Nat) :
    Ready g (allocate file size a).2 := by
  have positive : 0 < a.clusterSize := by
    rw [h.clusterSize]
    exact bounds.clusterSize_pos
  by_cases empty : size = 0
  · rw [empty, allocate_empty]
    exact h
  · by_cases room : clustersNeeded size a.clusterSize ≤ a.remaining
    · rw [allocate_eq_ok positive empty room]
      exact { h with lower := Nat.le_trans h.lower (Nat.le_add_right _ _) }
    · rw [allocate_exceeded positive empty (Nat.lt_of_not_le room)]
      exact h

theorem Reachable.ready (h : Reachable g a) : Ready g a := by
  induction h with
  | fresh run =>
    cases (ofGeometry_eq_ok bounds).symm.trans run
    exact ⟨rfl, rfl, Nat.le_refl _⟩
  | next file size _ ih => exact ih.after_allocate bounds file size

/-- Free clusters can be counted in 32 bits. -/
theorem Ready.remaining_lt (h : Ready g a) : a.remaining < 0x100000000 := by
  have most := bounds.clusters
  have lower := h.lower
  rw [remaining, h.maxCluster, Geometry.maxCluster_eq]
  unfold Geometry.clusterLimit at most
  unfold Geometry.firstCluster at lower
  omega

end Requests

/-- The promise to a request of at least one byte: enough clusters and none to spare, or an error
that leaves the allocator. -/
structure Reserves (g : Geometry) (a : Allocator) (file : String) (size : Nat) : Prop where
  accepted : (∃ e b, allocate file size a = (.ok e, b)) ↔
    clustersExact size g.clusterSize ≤ a.remaining
  enough : ∀ e b, allocate file size a = (.ok e, b) →
    1 ≤ e.count ∧ (e.count - 1) * g.clusterSize < size ∧ size ≤ e.count * g.clusterSize
  refused : a.remaining < clustersExact size g.clusterSize → ∃ needed available,
    allocate file size a = (.error (.error (.capacityExceeded file needed available)), a)

/-- The clusters need more than 32 bits to count, and the low 32 bits of their number do not exceed
the free clusters. -/
structure Cut (g : Geometry) (a : Allocator) (size : Nat) : Prop where
  wide : 0x100000000 ≤ clustersExact size g.clusterSize
  taken : clustersNeeded size g.clusterSize ≤ a.remaining

section Exact
variable {g : Geometry} (bounds : g.Bounds) (h : Ready g a) (nonempty : 1 ≤ size)
include bounds h nonempty

theorem Ready.allocate_ok (file : String) (room : clustersNeeded size g.clusterSize ≤ a.remaining) :
    ∃ b, allocate file size a = (.ok ⟨a.next, clustersNeeded size g.clusterSize⟩, b) := by
  have positive := bounds.clusterSize_pos
  rw [← h.clusterSize] at positive room ⊢
  exact ⟨_, allocate_eq_ok positive (by omega) room⟩

theorem Ready.reserves_of_exceeds (file : String)
    (exceeds : a.remaining < clustersNeeded size g.clusterSize) : Reserves g a file size := by
  have positive := bounds.clusterSize_pos
  have most : clustersNeeded size g.clusterSize ≤ clustersExact size g.clusterSize :=
    Nat.mod_le _ _
  have run : allocate file size a = (.error (.error (.capacityExceeded file
      (clustersNeeded size g.clusterSize) a.remaining)), a) := by
    rw [← h.clusterSize] at positive exceeds ⊢
    exact allocate_exceeded positive (by omega) exceeds
  refine ⟨⟨?_, fun fits => by omega⟩, ?_, fun _ => ⟨_, _, run⟩⟩
  · rintro ⟨e, b, done⟩
    cases run.symm.trans done
  · intro e b done
    cases run.symm.trans done

theorem Ready.reserves_of_counted (file : String)
    (counted : clustersNeeded size g.clusterSize = clustersExact size g.clusterSize)
    (room : clustersNeeded size g.clusterSize ≤ a.remaining) : Reserves g a file size := by
  have positive := bounds.clusterSize_pos
  obtain ⟨b, run⟩ := h.allocate_ok bounds nonempty file room
  refine ⟨⟨fun _ => counted ▸ room, fun _ => ⟨_, b, run⟩⟩, ?_, fun full => by omega⟩
  intro e c done
  cases run.symm.trans done
  dsimp only
  rw [counted]
  refine ⟨clustersExact_pos positive nonempty, ?_, size_le_clustersExact positive⟩
  apply Nat.lt_of_not_le
  intro spare
  have fewer := (clustersExact_le_iff positive).2 spare
  have := clustersExact_pos positive nonempty
  omega

theorem Cut.short (cut : Cut g a size) (file : String) :
    ∃ e b, allocate file size a = (.ok e, b) ∧ e.count * g.clusterSize < size := by
  obtain ⟨b, run⟩ := h.allocate_ok bounds nonempty file cut.taken
  refine ⟨_, b, run, ?_⟩
  apply Nat.lt_of_not_le
  intro fits
  have held : clustersExact size g.clusterSize ≤ clustersNeeded size g.clusterSize :=
    (clustersExact_le_iff bounds.clusterSize_pos).2 fits
  have wide := cut.wide
  rw [clustersNeeded_eq] at held
  omega

end Exact

/-- A request gets exactly the clusters that its bytes need, or an error, unless their count is cut.
Then it gets clusters, but too few. -/
theorem allocate_reserves {g : Geometry} (valid : g.validate = .ok ()) {a : Allocator}
    (reached : Reachable g a) (file : String) {size : Nat} (nonempty : 1 ≤ size) :
    (Reserves g a file size ↔ ¬ Cut g a size) ∧
      (Cut g a size → ∃ e b, allocate file size a = (.ok e, b) ∧ e.count * g.clusterSize < size) := by
  have bounds := Geometry.bounds_of_validate valid
  have ready := reached.ready bounds
  have limit := ready.remaining_lt bounds
  refine ⟨⟨?_, ?_⟩, fun cut => cut.short bounds ready nonempty file⟩
  · intro promise cut
    obtain ⟨e, b, run, _⟩ := cut.short bounds ready nonempty file
    have fits := promise.accepted.1 ⟨e, b, run⟩
    have wide := cut.wide
    omega
  · intro whole
    by_cases room : clustersNeeded size g.clusterSize ≤ a.remaining
    · have counted : clustersExact size g.clusterSize < 0x100000000 :=
        Nat.lt_of_not_le fun wide => whole ⟨wide, room⟩
      exact ready.reserves_of_counted bounds nonempty file (Nat.mod_eq_of_lt counted) room
    · exact ready.reserves_of_exceeds bounds nonempty file (Nat.lt_of_not_le room)

theorem floppy_reserves : ∃ a b, ofGeometry Geometry.floppy = .ok a ∧
    Reachable Geometry.floppy (allocate "ONE" 100 a).2 ∧
    ¬ Cut Geometry.floppy (allocate "ONE" 100 a).2 513 ∧
    Reserves Geometry.floppy (allocate "ONE" 100 a).2 "TWO" 513 ∧
    allocate "TWO" 513 (allocate "ONE" 100 a).2 = (.ok ⟨3, 2⟩, b) := by
  have valid : Geometry.floppy.validate = .ok () := rfl
  have fresh := ofGeometry_eq_ok (Geometry.bounds_of_validate valid)
  have reached := (Reachable.fresh fresh).next "ONE" 100
  have whole : ∀ a, ¬ Cut Geometry.floppy a 513 := fun _ cut => absurd cut.wide (by decide)
  exact ⟨_, _, fresh, reached, whole _,
    (allocate_reserves valid reached "TWO" (by decide)).1.2 (whole _), rfl⟩

theorem oversized_reserved : Geometry.floppy.validate = .ok () ∧
    ∃ a, ofGeometry Geometry.floppy = .ok a ∧ Reachable Geometry.floppy a ∧ a.remaining = 2847 ∧
      clustersExact 0x20000000001 Geometry.floppy.clusterSize = 0x100000001 ∧
      allocate "BIG" 0x20000000001 a = (.ok ⟨2, 1⟩, { a with next := 3 }) ∧
      ¬ Reserves Geometry.floppy a "BIG" 0x20000000001 := by
  have valid : Geometry.floppy.validate = .ok () := rfl
  have fresh := ofGeometry_eq_ok (Geometry.bounds_of_validate valid)
  refine ⟨valid, _, fresh, .fresh fresh, rfl, rfl, rfl, ?_⟩
  intro promise
  exact absurd (promise.accepted.1 ⟨_, _, rfl⟩) (by decide)

end BootDisk.Allocator
