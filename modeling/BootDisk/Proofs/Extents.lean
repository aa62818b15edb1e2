import BootDisk.Allocator
import BootDisk.Proofs.Bytes
import BootDisk.Proofs.Geometry.Bounds
import BootDisk.Proofs.Step

set_option autoImplicit false

namespace BootDisk

namespace Extent

/-- The extents follow one another from cluster `start` up to `stop`; some may be empty. -/
def Consecutive : Nat → List Extent → Nat → Prop
  | start, [], stop => start = stop
  | start, e :: es, stop => e.start = start ∧ Consecutive (start + e.count) es stop

theorem Consecutive.le {start stop : Nat} {es : List Extent} (h : Consecutive start es stop) :
    start ≤ stop := by
  induction es generalizing start with
  | nil => exact Nat.le_of_eq h
  | cons e es ih =>
    have := ih h.2
    omega

theorem Consecutive.concat {start stop : Nat} {es : List Extent} (h : Consecutive start es stop)
    {e : Extent} (first : e.start = stop) : Consecutive start (es ++ [e]) (stop + e.count) := by
  induction es generalizing start with
  | nil => exact ⟨first.trans h.symm, congrArg (· + e.count) h⟩
  | cons d es ih => exact ⟨h.1, ih h.2⟩

theorem Consecutive.lower {start stop : Nat} {es : List Extent} (h : Consecutive start es stop)
    {e : Extent} (he : e ∈ es) : start ≤ e.start := by
  induction es generalizing start with
  | nil => simp at he
  | cons d es ih =>
    obtain ⟨first, rest⟩ := h
    rcases List.mem_cons.1 he with same | later
    · exact Nat.le_of_eq (same ▸ first.symm)
    · exact Nat.le_trans (Nat.le_add_right _ _) (ih rest later)

theorem Consecutive.apart {start stop : Nat} {es : List Extent} (h : Consecutive start es stop) :
    es.Pairwise fun e f => ∀ c ∈ e.clusters, c ∉ f.clusters := by
  induction es generalizing start with
  | nil => exact List.Pairwise.nil
  | cons e es ih =>
    obtain ⟨first, rest⟩ := h
    refine List.pairwise_cons.2 ⟨?_, ih rest⟩
    intro f later c here there
    have stop := (List.mem_range'_1.1 here).2
    have start := (List.mem_range'_1.1 there).1
    have behind := rest.lower later
    omega

theorem Consecutive.clusters {start stop : Nat} {es : List Extent} (h : Consecutive start es stop) :
    es.flatMap Extent.clusters = List.range' start (stop - start) := by
  induction es generalizing start with
  | nil =>
    rw [show start = stop from h, Nat.sub_self]
    rfl
  | cons e es ih =>
    obtain ⟨first, rest⟩ := h
    have := rest.le
    rw [List.flatMap_cons, ih rest, Extent.clusters, first, List.range'_append_1]
    congr 1
    omega

/-- The extents follow one another from cluster `start` up to `stop`, and none is empty. -/
def Tile : Nat → List Extent → Nat → Prop
  | start, [], stop => start = stop
  | start, e :: es, stop => e.start = start ∧ 0 < e.count ∧ Tile (start + e.count) es stop

theorem tile_append {start stop : Nat} {es fs : List Extent} :
    Tile start (es ++ fs) stop ↔ ∃ middle, Tile start es middle ∧ Tile middle fs stop := by
  induction es generalizing start with
  | nil =>
    constructor
    · exact fun h => ⟨start, rfl, h⟩
    · rintro ⟨middle, rfl, h⟩
      exact h
  | cons e es ih =>
    rw [List.cons_append, Tile, ih]
    constructor
    · rintro ⟨first, positive, middle, left, right⟩
      exact ⟨middle, ⟨first, positive, left⟩, right⟩
    · rintro ⟨middle, ⟨first, positive, left⟩, right⟩
      exact ⟨first, positive, middle, left, right⟩

theorem Tile.consecutive {start stop : Nat} {es : List Extent} (h : Tile start es stop) :
    Consecutive start es stop := by
  induction es generalizing start with
  | nil => exact h
  | cons e es ih => exact ⟨h.1, ih h.2.2⟩

theorem Tile.le {start stop : Nat} {es : List Extent} (h : Tile start es stop) : start ≤ stop :=
  h.consecutive.le

theorem Tile.mem {start stop : Nat} {es : List Extent} (h : Tile start es stop) {e : Extent}
    (he : e ∈ es) : start ≤ e.start ∧ 0 < e.count ∧ e.start + e.count ≤ stop := by
  induction es generalizing start with
  | nil => simp at he
  | cons d es ih =>
    obtain ⟨first, positive, rest⟩ := h
    rcases List.mem_cons.1 he with same | later
    · subst e
      exact ⟨by omega, positive, by have := rest.le; omega⟩
    · have bounds := ih rest later
      omega

theorem Tile.clusters {start stop : Nat} {es : List Extent} (h : Tile start es stop) :
    es.flatMap Extent.clusters = List.range' start (stop - start) :=
  h.consecutive.clusters

end Extent

def clustersExact (size clusterSize : Nat) : Nat := (size + clusterSize - 1) / clusterSize

theorem clustersNeeded_eq (size clusterSize : Nat) :
    clustersNeeded size clusterSize = clustersExact size clusterSize % 0x100000000 := rfl

theorem size_le_clustersExact {size clusterSize : Nat} (positive : 0 < clusterSize) :
    size ≤ clustersExact size clusterSize * clusterSize := by
  have := Nat.lt_div_mul_add positive (a := size + clusterSize - 1)
  unfold clustersExact
  omega

theorem clustersExact_le_iff {size clusterSize n : Nat} (positive : 0 < clusterSize) :
    clustersExact size clusterSize ≤ n ↔ size ≤ n * clusterSize := by
  constructor
  · intro h
    exact Nat.le_trans (size_le_clustersExact positive) (Nat.mul_le_mul_right _ h)
  · intro h
    rw [clustersExact, ← Nat.lt_succ_iff, Nat.div_lt_iff_lt_mul positive, Nat.succ_mul]
    omega

theorem clustersExact_pos {size clusterSize : Nat} (positive : 0 < clusterSize)
    (nonempty : 0 < size) : 0 < clustersExact size clusterSize := by
  apply Nat.pos_of_ne_zero
  intro zero
  have : size ≤ _ := size_le_clustersExact positive
  rw [zero] at this
  omega

theorem clustersExact_zero {clusterSize : Nat} (positive : 0 < clusterSize) :
    clustersExact 0 clusterSize = 0 :=
  Nat.le_zero.1 ((clustersExact_le_iff positive).2 (Nat.zero_le _))

theorem clustersExact_step {size clusterSize : Nat} (positive : 0 < clusterSize)
    (nonempty : size ≠ 0) :
    clustersExact size clusterSize = clustersExact (size - clusterSize) clusterSize + 1 := by
  -- Either side is the least number of clusters for the size.
  have upper : clustersExact size clusterSize ≤ clustersExact (size - clusterSize) clusterSize + 1 := by
    have : size - clusterSize ≤ _ := size_le_clustersExact positive
    rw [clustersExact_le_iff positive, Nat.succ_mul]
    omega
  have first := clustersExact_pos positive (Nat.pos_of_ne_zero nonempty)
  have lower : clustersExact (size - clusterSize) clusterSize ≤ clustersExact size clusterSize - 1 := by
    have : size ≤ _ := size_le_clustersExact positive
    rw [clustersExact_le_iff positive, Nat.sub_mul, Nat.one_mul]
    omega
  omega

theorem clustersNeeded_of_le {size clusterSize n : Nat} (positive : 0 < clusterSize)
    (fits : size ≤ n * clusterSize) (small : n < 0x100000000) :
    clustersNeeded size clusterSize = clustersExact size clusterSize := by
  have := (clustersExact_le_iff positive).2 fits
  rw [clustersNeeded_eq, Nat.mod_eq_of_lt (by omega)]

section Access
variable {g : Geometry} (bounds : g.Bounds) {image data : ByteArray} {e : Extent}

namespace Extent
include bounds

theorem range_eq_ok (lower : Geometry.firstCluster ≤ e.start) : e.range g =
    .ok (g.clusterOffset e.start, g.clusterOffset e.start + e.count * g.clusterSize) := by
  rw [range, Outcome.bind_ok (bounds.checked_clusterOffset lower)]
  rfl

theorem rangeWithin_eq_ok {size : Nat} (lower : Geometry.firstCluster ≤ e.start)
    (inside : g.clusterOffset e.start + e.count * g.clusterSize ≤ size) : e.rangeWithin size g =
    .ok (g.clusterOffset e.start, g.clusterOffset e.start + e.count * g.clusterSize) := by
  rw [rangeWithin, if_neg (by omega)]
  change e.range g >>= _ = _
  rw [Outcome.bind_ok (range_eq_ok bounds lower)]
  dsimp only
  rw [if_neg (by omega)]
  rfl

theorem copy_of_splice {r : ByteArray} (lower : Geometry.firstCluster ≤ e.start)
    (inside : g.clusterOffset e.start + e.count * g.clusterSize ≤ image.size)
    (fits : data.size ≤ e.count * g.clusterSize)
    (splice : Bytes.splice? image (g.clusterOffset e.start) data = some r) :
    copy g e data image = (.ok (), r) := by
  rw [copy, Step.get_bind, Step.lift_bind_ok (rangeWithin_eq_ok bounds lower inside)]
  dsimp only
  rw [if_neg (by omega), Step.lift_bind_ok (Outcome.orFault_some splice)]
  rfl

theorem copy_eq_ok {left old right : List UInt8} (lower : Geometry.firstCluster ≤ e.start)
    (inside : g.clusterOffset e.start + e.count * g.clusterSize ≤ image.size)
    (fits : data.size ≤ e.count * g.clusterSize)
    (split : Bytes.toList image = left ++ old ++ right)
    (at_left : g.clusterOffset e.start = left.length) (same : data.size = old.length) :
    copy g e data image = (.ok (), Bytes.ofList (left ++ Bytes.toList data ++ right)) :=
  copy_of_splice bounds lower inside fits (Bytes.splice?_of_toList split at_left same)

theorem copy_too_long (lower : Geometry.firstCluster ≤ e.start)
    (inside : g.clusterOffset e.start + e.count * g.clusterSize ≤ image.size)
    (long : e.count * g.clusterSize < data.size) : copy g e data image =
      (.error (.error (.transfer (.access (.tooLong data.size e.count)))), image) := by
  rw [copy, Step.get_bind, Step.lift_bind_ok (rangeWithin_eq_ok bounds lower inside)]
  dsimp only
  rw [if_pos (by omega), Step.fail_bind]

theorem read_of_slice {r : ByteArray} {size : Nat} (lower : Geometry.firstCluster ≤ e.start)
    (inside : g.clusterOffset e.start + e.count * g.clusterSize ≤ image.size)
    (fits : size ≤ e.count * g.clusterSize)
    (slice : Bytes.slice? image (g.clusterOffset e.start) size = some r) :
    read image g e size = .ok r := by
  rw [read, Outcome.bind_ok (rangeWithin_eq_ok bounds lower inside)]
  dsimp only
  rw [if_neg (by omega)]
  exact Outcome.orFault_some slice

theorem read_eq_ok {size : Nat} (lower : Geometry.firstCluster ≤ e.start)
    (inside : g.clusterOffset e.start + e.count * g.clusterSize ≤ image.size)
    (fits : size ≤ e.count * g.clusterSize) : ∃ r, read image g e size = .ok r ∧
      Bytes.toList r = ((Bytes.toList image).drop (g.clusterOffset e.start)).take size := by
  have room : g.clusterOffset e.start + size ≤ image.size := by omega
  obtain ⟨r, slice⟩ := Bytes.slice?_isSome room
  exact ⟨r, read_of_slice bounds lower inside fits slice, (Bytes.slice?_eq_some_iff.1 slice).2⟩

end Extent

end Access

end BootDisk
