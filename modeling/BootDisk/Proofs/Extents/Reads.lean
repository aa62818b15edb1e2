import BootDisk.Proofs.Extents.Chains
import BootDisk.Proofs.Word32

set_option autoImplicit false

/-!
# A run read as a chain

The clusters of a run, read as a chain, give the bytes that the run gives in one piece, and end early
where it does. There are two limits. The end of the run has to fit 32 bits, as it does in any image
of less than two tebibytes. And memory is reserved before the chain is looked at, so a size that
cannot be reserved faults where the run would be found too short.
-/
namespace BootDisk

def AccessError.endsEarly : AccessError → Bool
  | pastEnd _ _ _ => true
  | shortRun _ _ => true
  | shortChain _ _ _ => true
  | reserved _ => false
  | tooLong _ _ => false

def EndsEarly (x : Outcome ByteArray) : Prop :=
  ∃ cause : AccessError, x = .error (.error (.transfer (.access cause))) ∧ cause.endsEarly = true

theorem not_endsEarly_of_fault {x : Outcome ByteArray} {f : Fault} (h : x = .error (.fault f)) :
    ¬ EndsEarly x := by
  rintro ⟨cause, early, _⟩
  cases h.symm.trans early

namespace Extent

/-- The end of a run is computed in 32 bits. -/
def Narrow.clusters (e : Extent) : Outcome (List Nat) := do
  let _ ← Word32.add e.start e.count
  return e.clusters

theorem narrow_clusters_eq_ok {e : Extent} (narrow : e.start + e.count < Word32.limit) :
    Narrow.clusters e = .ok e.clusters := by
  rw [Narrow.clusters, Word32.add, Outcome.bind_ok (Word32.fit_eq_ok narrow)]
  rfl

theorem narrow_clusters_eq_overflow {e : Extent} (wide : Word32.limit ≤ e.start + e.count) :
    Narrow.clusters e = .error (.fault .overflow) := by
  rw [Narrow.clusters, Word32.add, Outcome.bind_error (Word32.fit_eq_overflow wide)]

theorem length_clusters (e : Extent) : e.clusters.length = e.count := List.length_range'

section Inside
variable {g : Geometry} {e : Extent}

theorem Inside.cluster {image : ByteArray} (inside : e.Inside g image.size) {c : Nat}
    (member : c ∈ e.clusters) : Chain.Inside image g c := by
  obtain ⟨lower, stop⟩ := inside
  obtain ⟨first, last⟩ := List.mem_range'_1.1 member
  have behind := g.stop_cluster_le (Nat.le_trans lower first) last
  rw [g.clusterOffset_add lower] at behind
  exact ⟨Nat.le_trans lower first, Nat.le_trans behind stop⟩

/-- A run that ends at a cluster of 33 bits needs an image of two tebibytes. -/
theorem Inside.narrow (bounds : g.Bounds) {size : Nat} (inside : e.Inside g size)
    (small : size < 512 * Word32.limit) : e.start + e.count < Word32.limit := by
  obtain ⟨lower, stop⟩ := inside
  -- The sectors in front of the clusters make up for the two cluster numbers that are not used.
  have front : 512 + 512 ≤ g.dataOffset := bounds.sectors_le_dataOffset
  have wide : 512 ≤ g.clusterSize := bounds.sector_le_clusterSize
  have before := Nat.mul_le_mul_left (e.start - Geometry.firstCluster) wide
  have covered := Nat.mul_le_mul_left e.count wide
  unfold Geometry.clusterOffset at stop
  unfold Geometry.firstCluster at *
  omega

end Inside

end Extent

namespace Chain

def readRun (image : ByteArray) (g : Geometry) (e : Extent) (size : Nat) : Outcome ByteArray := do
  read image g (← Extent.Narrow.clusters e) size

/-- The bytes of a run and the bytes of its clusters, as far as the run has them. -/
structure Alike (image : ByteArray) (g : Geometry) (e : Extent) (size : Nat) : Prop where
  held : size ≤ e.count * g.clusterSize → ∃ bytes,
    Extent.read image g e size = .ok bytes ∧ readRun image g e size = .ok bytes
  short : e.count * g.clusterSize < size →
    EndsEarly (Extent.read image g e size) ∧ EndsEarly (readRun image g e size)

theorem not_alike_of_fault {image : ByteArray} {g : Geometry} {e : Extent} {size : Nat} {f : Fault}
    (h : readRun image g e size = .error (.fault f)) : ¬ Alike image g e size := by
  intro alike
  by_cases fits : size ≤ e.count * g.clusterSize
  · obtain ⟨bytes, _, read⟩ := alike.held fits
    cases h.symm.trans read
  · exact not_endsEarly_of_fault h (alike.short (Nat.lt_of_not_le fits)).2

theorem readRun_eq {image : ByteArray} {g : Geometry} {e : Extent} {size : Nat}
    (narrow : e.start + e.count < Word32.limit) :
    readRun image g e size = read image g e.clusters size := by
  rw [readRun, Outcome.bind_ok (Extent.narrow_clusters_eq_ok narrow)]

section Runs
variable {g : Geometry} (bounds : g.Bounds) {image : ByteArray} {e : Extent}
  (inside : e.Inside g image.size)
include bounds inside

theorem alike_of_narrow (narrow : e.start + e.count < Word32.limit) {size : Nat}
    (small : size < bufferLimit) : Alike image g e size := by
  have all : ∀ c ∈ e.clusters, Inside image g c := fun _ => inside.cluster
  refine ⟨fun fits => ?_, fun long => ⟨?_, ?_⟩⟩
  · obtain ⟨whole, direct, bytes⟩ := Extent.read_eq_ok bounds inside.1 inside.2 fits
    obtain ⟨chunks, chained, same, _⟩ := read_eq_ok bounds all small (by
      rw [e.length_clusters]
      exact fits)
    rw [Extent.clusters, cells_range' e.count inside.1, List.take_take, Nat.min_eq_left fits,
      ← bytes, Bytes.toList_inj] at same
    rw [readRun_eq narrow, chained, same]
    exact ⟨whole, direct, rfl⟩
  · exact ⟨_, Extent.read_short bounds inside long, rfl⟩
  · have some_missing : e.clusters.length < clustersExact size g.clusterSize := by
      rw [e.length_clusters]
      exact Nat.lt_of_not_le fun h =>
        Nat.not_le.2 long ((clustersExact_le_iff bounds.clusterSize_pos).1 h)
    rw [readRun_eq narrow]
    rcases read_cases bounds image e.clusters small with
      ⟨_, enough, _⟩ | ⟨_, _, run⟩ | ⟨outside, _⟩
    · exact absurd enough (Nat.not_le.2 some_missing)
    · exact ⟨_, run, rfl⟩
    · exact absurd (fun c hc => all c (List.mem_of_mem_take hc)) outside

theorem alike_iff (size : Nat) :
    Alike image g e size ↔ e.start + e.count < Word32.limit ∧ size < bufferLimit := by
  constructor
  · intro alike
    have narrow : e.start + e.count < Word32.limit := by
      refine Nat.lt_of_not_le fun wide => ?_
      have overflow : readRun image g e size = .error (.fault .overflow) := by
        rw [readRun, Outcome.bind_error (Extent.narrow_clusters_eq_overflow wide)]
      exact not_alike_of_fault overflow alike
    refine ⟨narrow, Nat.lt_of_not_le fun large => ?_⟩
    have oversized := (readRun_eq narrow).trans (read_oversized image g e.clusters large)
    exact not_alike_of_fault oversized alike
  · rintro ⟨narrow, small⟩
    exact alike_of_narrow bounds inside narrow small

end Runs

/-- On any image of a valid layout: a run is read alike in one piece and cluster by cluster unless
its end or the size is out of range, and which clusters decide about the read of any chain. -/
theorem reads_agree (g : Geometry) (valid : g.validate = .ok ()) (image : ByteArray) :
    (∀ e : Extent, Geometry.firstCluster ≤ e.start →
      g.clusterOffset e.start + e.count * g.clusterSize ≤ image.size →
      (image.size < 512 * Word32.limit → e.start + e.count < Word32.limit) ∧
      ∀ size, Alike image g e size ↔ e.start + e.count < Word32.limit ∧ size < bufferLimit) ∧
    ∀ (clusters : List Nat) (size : Nat),
      (size < bufferLimit → ∀ bytes, read image g clusters size = .ok bytes ↔
        clustersExact size g.clusterSize ≤ clusters.length ∧
        (∀ c ∈ needed g clusters size, Inside image g c) ∧
        Bytes.toList bytes = ((needed g clusters size).flatMap (cell image g)).take size) ∧
      (bufferLimit ≤ size → read image g clusters size = .error (.fault .oversizedBuffer)) := by
  have bounds := Geometry.bounds_of_validate valid
  constructor
  · intro e lower stop
    exact ⟨Extent.Inside.narrow bounds ⟨lower, stop⟩, alike_iff bounds ⟨lower, stop⟩⟩
  · intro clusters size
    exact ⟨fun small _ => read_eq_ok_iff bounds clusters small, read_oversized image g clusters⟩

theorem floppy_reads_agree : Alike (Bytes.zeros 17920) .floppy ⟨2, 2⟩ 513 ∧
    Alike (Bytes.zeros 17920) .floppy ⟨2, 2⟩ 1025 ∧
    (∃ bytes, read (Bytes.zeros 17920) .floppy [3, 2, 3, 0] 1536 = .ok bytes) ∧
    (∀ bytes, read (Bytes.zeros 17920) .floppy [3, 2, 3, 0] 1537 ≠ .ok bytes) ∧
    read (Bytes.zeros 17920) .floppy [3] bufferLimit = .error (.fault .oversizedBuffer) := by
  have size := Bytes.size_zeros 17920
  obtain ⟨runs, chains⟩ := reads_agree .floppy rfl (Bytes.zeros 17920)
  obtain ⟨narrow, alike⟩ := runs ⟨2, 2⟩ (by decide) (by rw [size]; decide)
  have short := narrow (by rw [size]; decide)
  have stored : ∀ c ∈ needed .floppy [3, 2, 3, 0] 1536, Inside (Bytes.zeros 17920) .floppy c := by
    unfold Inside
    rw [size]
    decide
  refine ⟨(alike 513).2 ⟨short, by decide⟩, (alike 1025).2 ⟨short, by decide⟩, ?_, ?_,
    (chains [3] bufferLimit).2 (Nat.le_refl _)⟩
  · exact ⟨_, ((chains _ 1536).1 (by decide) _).2 ⟨by decide, stored, Bytes.toList_ofList _⟩⟩
  · intro bytes done
    obtain ⟨_, inside, _⟩ := ((chains _ 1537).1 (by decide) bytes).1 done
    exact absurd (inside 0 (by decide)).1 (by decide)

/-- A run of one cluster, and more bytes than memory can be reserved for: the run is too short, but
its chain has no answer. -/
theorem oversized_unanswered : Geometry.floppy.validate = .ok () ∧
    Extent.Inside .floppy (Bytes.zeros 17408).size ⟨2, 1⟩ ∧
    1 * Geometry.floppy.clusterSize < bufferLimit ∧
    EndsEarly (Extent.read (Bytes.zeros 17408) .floppy ⟨2, 1⟩ bufferLimit) ∧
    readRun (Bytes.zeros 17408) .floppy ⟨2, 1⟩ bufferLimit = .error (.fault .oversizedBuffer) ∧
    ¬ EndsEarly (readRun (Bytes.zeros 17408) .floppy ⟨2, 1⟩ bufferLimit) := by
  have bounds : Geometry.floppy.Bounds := Geometry.bounds_of_validate rfl
  have inside : Extent.Inside .floppy (Bytes.zeros 17408).size ⟨2, 1⟩ := by
    rw [Bytes.size_zeros]
    exact ⟨by decide, by decide⟩
  have fault := (readRun_eq (by decide)).trans
    (read_oversized (Bytes.zeros 17408) .floppy (Extent.clusters ⟨2, 1⟩) (Nat.le_refl bufferLimit))
  exact ⟨rfl, inside, by decide, ⟨_, Extent.read_short bounds inside (by decide), rfl⟩, fault,
    not_endsEarly_of_fault fault⟩

end Chain

end BootDisk
