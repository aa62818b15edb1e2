import BootDisk.Proofs.Builder.Admission
import BootDisk.Proofs.Builder.Reading
import BootDisk.Proofs.Builder.Regions

set_option autoImplicit false

namespace BootDisk.Builder

section Permuted
variable {g : Geometry} {files others : List SourceFile}

theorem clustersOf_perm (order : files.Perm others) : clustersOf g files = clustersOf g others := by
  induction order with
  | nil => rfl
  | cons f _ ih => rw [clustersOf, clustersOf, ih]
  | swap f h rest =>
    simp only [clustersOf]
    omega
  | trans _ _ first second => rw [first, second]

theorem Admissible.perm (order : files.Perm others) (h : Admissible g files) :
    Admissible g others where
  named := fun f hf => h.named f (order.mem_iff.2 hf)
  distinct := (order.map key).nodup_iff.1 h.distinct
  nonempty := fun f hf => h.nonempty f (order.mem_iff.2 hf)
  room := order.length_eq ▸ h.room
  fits := clustersOf_perm order ▸ h.fits

end Permuted

section Find
variable {g : Geometry} {s : Settings} {slots : List Slot} {b : Builder} (bounds : g.Bounds)
  (h : Holds g s slots b)

include bounds h

/-- No slot in front of the one of the file shows the same name. -/
theorem find_finished (reserved : 1 ≤ g.reservedSectors.toNat) {image : ByteArray}
    (bytes : Bytes.toList image = finishedBytes g s slots b) {t : Slot} (ht : t ∈ slots) :
    (⟨image, g, b.table⟩ : Volume).find t.record.shortName = .ok (some t.record) := by
  have named : ∀ u ∈ slots, u.record.Named := fun u hu =>
    Record.Named.of_make (Record.make_with (h.plan.fits u hu).made _ _)
  obtain ⟨before, after, split⟩ := List.append_of_mem ht
  have distinct := h.plan.distinct
  rw [split] at distinct
  have others : (before.map Slot.record).find? (fun r => r.shortName == t.record.shortName) =
      none := by
    rw [List.find?_eq_none]
    intro r hr same
    obtain ⟨u, hu, rfl⟩ := List.mem_map.1 hr
    have clash := (named u (by simp [split, hu])).sameName_of_shortName (named t ht)
      (by simpa using same)
    rw [(List.pairwise_append.1 distinct).2.2 u hu t (by simp)] at clash
    cases clash
  rw [Volume.find, Outcome.bind_ok (records_finished bounds h reserved bytes),
    (named t ht).asciiUpper_shortName, split, List.map_append, List.map_cons, List.find?_append,
    others, List.find?_cons_of_pos (by simp)]
  rfl

end Find

/-- The file is found in the volume under its short name, and read back as it was. -/
def Readable (v : Volume) (f : SourceFile) : Prop :=
  ∃ draft r, Record.make f.name f.ext 0 0 = .ok draft ∧
    v.find draft.shortName = .ok (some r) ∧ v.contents r = .ok f.contents

section Build
variable {g : Geometry} {s : Settings} {files : List SourceFile} (valid : g.validate = .ok ())
include valid

theorem build_of_admissible (h : Admissible g files) : ∃ image, build g s files = .ok image := by
  have bounds := Geometry.bounds_of_validate valid
  obtain ⟨first, run, fresh⟩ := start_holds s valid
  have added : addAll files first = (.ok (), _) :=
    Prod.ext (fresh.addAll_admitted bounds files h) rfl
  obtain ⟨slots, _, holds⟩ := addAll_holds bounds files fresh added
  obtain ⟨image, done, _⟩ := (holds.framed bounds).finished bounds
  exact ⟨image, (build_of_addAll run added).trans done⟩

theorem admissible_of_build {image : DiskImage} (h : build g s files = .ok image) :
    Admissible g files := by
  obtain ⟨slots, b, rfl, holds, _⟩ := holds_of_build valid h
  exact holds.admissible (Geometry.bounds_of_validate valid)

theorem clusters_of_build {image : DiskImage} (h : build g s files = .ok image) :
    image.clustersUsed = clustersOf g files ∧
      image.clustersFree = g.dataClusters - clustersOf g files := by
  have bounds := Geometry.bounds_of_validate valid
  obtain ⟨slots, b, rfl, holds, done⟩ := holds_of_build valid h
  obtain ⟨_, used, free⟩ := finish_numbers done
  have next := clustersOf_tile bounds holds.plan.fits holds.plan.tile
  refine ⟨?_, free.trans (holds.remaining bounds)⟩
  rw [used, Allocator.used, ← next]
  omega

theorem readable_of_build (reserved : 1 ≤ g.reservedSectors.toNat) {image : DiskImage}
    (h : build g s files = .ok image) :
    ∃ v, Volume.mount image.bytes = .ok v ∧ ∀ f ∈ files, Readable v f := by
  have bounds := Geometry.bounds_of_validate valid
  obtain ⟨slots, b, rfl, holds, done⟩ := holds_of_build valid h
  obtain ⟨finished, again, _, bytes⟩ := finish_eq_ok bounds holds reserved
  cases done.symm.trans again
  refine ⟨_, mount_finished bounds holds reserved bytes valid, fun f hf => ?_⟩
  obtain ⟨t, ht, rfl⟩ := List.mem_map.1 hf
  exact ⟨t.draft, t.record, (holds.plan.fits t ht).made,
    find_finished bounds holds reserved bytes ht, contents_finished bounds holds reserved bytes ht⟩

end Build

/-- The order of the files decides neither whether they can be built, nor how many clusters they
take, nor what is read under their names. -/
theorem build_perm (g : Geometry) (s : Settings) (valid : g.validate = .ok ())
    (reserved : 1 ≤ g.reservedSectors.toNat) {files others : List SourceFile}
    (order : files.Perm others) :
    ((∃ image, build g s files = .ok image) ↔ ∃ image, build g s others = .ok image) ∧
    ∀ image other, build g s files = .ok image → build g s others = .ok other →
      image.clustersUsed = other.clustersUsed ∧ image.clustersFree = other.clustersFree ∧
      ∃ v w, Volume.mount image.bytes = .ok v ∧ Volume.mount other.bytes = .ok w ∧
        ∀ f ∈ files, Readable v f ∧ Readable w f := by
  refine ⟨⟨fun ⟨_, built⟩ => ?_, fun ⟨_, built⟩ => ?_⟩, fun image other first second => ?_⟩
  · exact build_of_admissible valid ((admissible_of_build valid built).perm order)
  · exact build_of_admissible valid ((admissible_of_build valid built).perm order.symm)
  · obtain ⟨used, free⟩ := clusters_of_build valid first
    obtain ⟨used', free'⟩ := clusters_of_build valid second
    obtain ⟨v, mounted, readable⟩ := readable_of_build valid reserved first
    obtain ⟨w, mounted', readable'⟩ := readable_of_build valid reserved second
    have same := clustersOf_perm (g := g) order
    refine ⟨by rw [used, used', same], by rw [free, free', same], v, w, mounted, mounted', ?_⟩
    exact fun f hf => ⟨readable f hf, readable' f (order.mem_iff.1 hf)⟩

def pair : SourceFile := ⟨"pair", "bin", Bytes.zeros 600⟩

theorem floppy_perm : ∃ image other v w, build Geometry.floppy {} [letter, pair] = .ok image ∧
    build Geometry.floppy {} [pair, letter] = .ok other ∧
    image.clustersUsed = other.clustersUsed ∧ Volume.mount image.bytes = .ok v ∧
    Volume.mount other.bytes = .ok w ∧ Readable v pair ∧ Readable w pair := by
  have valid : Geometry.floppy.validate = .ok () := rfl
  have admissible : Admissible Geometry.floppy [letter, pair] := by decide +kernel
  obtain ⟨succeeds, same⟩ := build_perm Geometry.floppy {} valid (by decide)
    (List.Perm.swap pair letter [])
  obtain ⟨image, built⟩ := build_of_admissible valid admissible
  obtain ⟨other, swapped⟩ := succeeds.1 ⟨image, built⟩
  obtain ⟨used, _, v, w, mounted, again, readable⟩ := same image other built swapped
  exact ⟨image, other, v, w, built, swapped, used, mounted, again, readable pair (by simp)⟩

end BootDisk.Builder
