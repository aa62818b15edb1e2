import BootDisk.Proofs.Builder.Admission

set_option autoImplicit false

/-!
# Layouts that can hold a file

Validation asks for sectors behind the metadata, and clusters are what is given out. A layout with
fewer sectors there than one cluster has is valid, has no clusters, and refuses a single byte. All
other valid layouts hold at least a file of one byte.
-/
namespace BootDisk

namespace Geometry

/-- The sectors behind the metadata make up a cluster. -/
def Usable (g : Geometry) : Prop :=
  g.dataStart + g.sectorsPerCluster.toNat ≤ g.totalSectors.toNat

theorem Bounds.one_le_dataClusters_iff {g : Geometry} (bounds : g.Bounds) :
    1 ≤ g.dataClusters ↔ g.Usable := by
  have inside := bounds.data
  rw [dataClusters, Nat.le_div_iff_mul_le bounds.cluster, Usable]
  omega

end Geometry

namespace Builder

/-- There are clusters, and any file of one byte is placed if its name can be stored. -/
structure TakesByte (g : Geometry) (b : Builder) : Prop where
  clusters : 1 ≤ g.dataClusters
  takes : ∀ f : SourceFile, f.size = 1 → Record.Storable f.name f.ext →
    ∃ p c, add f b = (.ok p, c)

section Byte
variable {g : Geometry} {s : Settings} {first : Builder} (bounds : g.Bounds)
  (fresh : Holds g s [] first) {f : SourceFile} (byte : f.size = 1)
  (named : Record.Storable f.name f.ext)
include bounds byte

theorem clustersExact_byte : clustersExact f.size g.clusterSize = 1 := by
  have positive := bounds.clusterSize_pos
  have lower := clustersExact_pos positive (show 0 < f.size by omega)
  have upper : clustersExact f.size g.clusterSize ≤ 1 :=
    (clustersExact_le_iff positive).2 (by omega)
  omega

include named

theorem admitted_byte (held : 1 ≤ g.dataClusters) : Admitted g [] f where
  named := named
  room := bounds.records
  new := List.not_mem_nil
  nonempty := by omega
  fits := by
    rw [clustersExact_byte bounds byte]
    exact held

theorem refusal?_byte (lacking : g.dataClusters = 0) :
    refusal? g [] f = some (.capacityExceeded f.display 1 0) := by
  have records := bounds.records
  unfold refusal?
  rw [Record.defect?_eq_none_iff.2 named, clustersExact_byte bounds byte, lacking]
  dsimp only
  rw [if_neg (by simp; omega), if_neg (show key f ∉ [].map key from List.not_mem_nil),
    if_neg (by omega), if_pos (by omega)]
  rfl

include fresh

theorem Holds.add_byte (held : 1 ≤ g.dataClusters) : ∃ p c, add f first = (.ok p, c) := by
  have admitted := refusal?_eq_none_iff.2 (admitted_byte bounds byte named held)
  obtain ⟨t, c, _, run, _⟩ := fresh.add_admitted bounds admitted
  exact ⟨_, c, run⟩

theorem Holds.add_byte_refused (lacking : g.dataClusters = 0) :
    add f first = (.error (.error (.capacityExceeded f.display 1 0)), first) := by
  have positive := bounds.clusterSize_pos
  exact fresh.add_broken bounds (refusal?_byte bounds byte named lacking) (by omega)

end Byte

/-- A fresh builder of a valid layout takes every file of one byte, or none for lack of clusters. It
takes them exactly when the layout is usable. -/
theorem takesByte_iff_usable (g : Geometry) (s : Settings) (valid : g.validate = .ok ()) :
    ∃ first, start g s = .ok first ∧ (TakesByte g first ↔ g.Usable) ∧
      (¬ g.Usable → g.dataClusters = 0 ∧
        ∀ f : SourceFile, f.size = 1 → Record.Storable f.name f.ext →
          add f first = (.error (.error (.capacityExceeded f.display 1 0)), first)) := by
  have bounds := Geometry.bounds_of_validate valid
  have usable := bounds.one_le_dataClusters_iff
  obtain ⟨first, run, fresh⟩ := start_holds s valid
  refine ⟨first, run, ⟨fun takes => usable.1 takes.clusters, fun enough => ?_⟩, fun coarse => ?_⟩
  · have held := usable.2 enough
    exact ⟨held, fun f byte named => fresh.add_byte bounds byte named held⟩
  · have lacking : g.dataClusters = 0 := by
      have := mt usable.1 coarse
      omega
    exact ⟨lacking, fun f byte named => fresh.add_byte_refused bounds byte named lacking⟩

def byteFile : SourceFile := ⟨"A", "BIN", Bytes.ofList [1]⟩

theorem byteFile_named : Record.Storable byteFile.name byteFile.ext :=
  Record.defect?_eq_none_iff.1 (by decide)

theorem floppy_takesByte : Geometry.floppy.Usable ∧ ∃ first p b,
    start Geometry.floppy {} = .ok first ∧ add byteFile first = (.ok p, b) := by
  have usable : Geometry.floppy.Usable := by
    unfold Geometry.Usable
    decide
  obtain ⟨first, run, takes, _⟩ := takesByte_iff_usable Geometry.floppy {} rfl
  obtain ⟨p, b, added⟩ := (takes.2 usable).takes byteFile rfl byteFile_named
  exact ⟨usable, first, p, b, run, added⟩

def coarse : Geometry := { Geometry.floppy with totalSectors := 34, sectorsPerCluster := 2 }

theorem coarse_refuses_byte : coarse.validate = .ok () ∧ coarse.dataClusters = 0 ∧
    ∃ first, start coarse {} = .ok first ∧ ¬ TakesByte coarse first ∧
      add byteFile first = (.error (.error (.capacityExceeded "A.BIN" 1 0)), first) := by
  have valid : coarse.validate = .ok () := rfl
  have bounds := Geometry.bounds_of_validate valid
  obtain ⟨first, run, fresh⟩ := start_holds {} valid
  refine ⟨valid, rfl, first, run, ?_, ?_⟩
  · intro takes
    exact absurd takes.clusters (by decide)
  · exact fresh.add_byte_refused bounds rfl byteFile_named rfl

end Builder

end BootDisk
