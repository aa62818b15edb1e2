import BootDisk.Proofs.Builder.Finish
import BootDisk.Proofs.Builder.Regions
import BootDisk.Proofs.FileTree.Requests
import BootDisk.Proofs.Partition
import BootDisk.Proofs.Path

set_option autoImplicit false

/-!
# How an installation runs on a tree

Each request either ends with an error and leaves the tree, or does its one change. Once the image is
moved to its path nothing can fail any more: the boot loader was found to be large enough, it can
still be found, and even an image moved onto it has room for the partition entry.
-/
namespace BootDisk

namespace Install
open FileTree

variable {s : Settings} {files : List SourceFile} {t : FileTree} {loader path : Path}

theorem build_of_buildImage {image : DiskImage} (h : buildImage s files = .ok image) :
    DiskImage.build files s = .ok image := by
  obtain ⟨built, run, rest⟩ := Outcome.bind_eq_ok_iff.1 h
  by_cases verify : s.verify = true
  · rw [if_pos verify] at rest
    obtain ⟨a, _, rest⟩ := Outcome.bind_eq_ok_iff.1 rest
    obtain ⟨_, _, rest⟩ := Outcome.bind_eq_ok_iff.1 rest
    cases rest
    exact run
  · rw [if_neg verify] at rest
    cases rest
    exact run

theorem dryRun_eq_ok_iff {r : InstallReport} : dryRun s files = .ok r ↔
    ∃ image, buildImage s files = .ok image ∧ r = report s image none := by
  rw [dryRun, Outcome.bind_eq_ok_iff]
  constructor
  · rintro ⟨image, built, same⟩
    cases same
    exact ⟨image, built, rfl⟩
  · rintro ⟨image, built, rfl⟩
    exact ⟨image, built, rfl⟩

theorem build_size {image : DiskImage} (h : DiskImage.build files s = .ok image) :
    image.bytes.size = Geometry.floppy.imageSize ∧ image.totalSectors = 2880 := by
  have valid : Geometry.floppy.validate = .ok () := rfl
  have bounds := Geometry.bounds_of_validate valid
  rw [← Builder.build_floppy] at h
  obtain ⟨_, _, _, holds, done⟩ := Builder.holds_of_build valid h
  obtain ⟨finished, again, whole⟩ := (holds.framed bounds).finished bounds
  cases done.symm.trans again
  have geometry := (Builder.finish_numbers done).1.trans holds.geometry
  refine ⟨whole.size, ?_⟩
  rw [DiskImage.totalSectors, whole.size, geometry]
  rfl

theorem checkLoader_of_size {n : Nat} (size : t.size loader = .ok n) :
    (checkLoader loader : Step FileTree Unit) t = (Partition.checkSize n, t) := by
  have answered : (Storage.size loader : StateM FileTree _) t = (.ok n, t) := by
    change (t.size loader, t) = _
    rw [size]
  rw [checkLoader, Step.bind_ok (Storage.orFail_ok answered)]
  rfl

theorem checkLoader_ok {n : Nat} (size : t.size loader = .ok n)
    (room : Geometry.bootSectorSize ≤ n) :
    (checkLoader loader : Step FileTree Unit) t = (.ok (), t) := by
  rw [checkLoader_of_size size, Partition.checkSize_ok room]

theorem keeps_checkLoader {σ : Type} [Storage (StateM σ)] [LawfulStorage σ] (loader : Path) :
    Step.Keeps (checkLoader loader : Step σ Unit) :=
  (Storage.keeps_orFail (LawfulStorage.size_keeps loader)).bind fun n =>
    Step.keeps_outcome (Partition.checkSize n)

theorem checkLoader_cases (t : FileTree) (loader : Path) :
    (∃ e, (checkLoader loader : Step FileTree Unit) t = (.error e, t)) ∨
    ∃ n, t.size loader = .ok n ∧ Geometry.bootSectorSize ≤ n := by
  match run : (checkLoader loader : Step FileTree Unit) t with
  | (.error e, u) =>
    cases (keeps_checkLoader loader).eq run
    exact .inl ⟨e, rfl⟩
  | (.ok _, u) =>
    obtain ⟨n, v, answered, checked⟩ := Step.bind_eq_ok_iff.1 run
    have asked : (t.size loader, t) = (.ok n, v) := Storage.orFail_eq_ok answered
    refine .inr ⟨n, congrArg Prod.fst asked, Nat.le_of_not_lt fun short => ?_⟩
    rw [Partition.checkSize_short short] at checked
    cases checked

theorem writeImage_ok {image : DiskImage} {l target : List String}
    (workshop : t.workshop (directoryOf path) = .ok l) (lands : t.Lands path target) :
    (writeImage image path : Step FileTree Unit) t =
      (.ok (), t.put target (.file image.bytes)) := by
  apply Storage.orFail_ok
  change change (fun t => t.replace (directoryOf path) path image.bytes) t = _
  rw [change, replace_eq_ok workshop lands]

/-- On every lawful storage an image that is not written leaves nothing behind. -/
theorem writeImage_error {σ : Type} [Storage (StateM σ)] [LawfulStorage σ] {image : DiskImage}
    {v w : σ} {e : Failure} (h : (writeImage image path : Step σ Unit) v = (.error e, w)) : w = v :=
  Storage.orFail_refused LawfulStorage.replace_error h

theorem writeImage_cases (t : FileTree) (image : DiskImage) (path : Path) :
    (∃ e, (writeImage image path : Step FileTree Unit) t = (.error e, t)) ∨
    ∃ l target, t.workshop (directoryOf path) = .ok l ∧ t.Lands path target := by
  match run : (writeImage image path : Step FileTree Unit) t with
  | (.error e, u) =>
    cases writeImage_error run
    exact .inl ⟨e, rfl⟩
  | (.ok _, u) =>
    have answered : change (fun t => t.replace (directoryOf path) path image.bytes) t = _ :=
      Storage.orFail_eq_ok run
    rcases t.replace_cases (directoryOf path) path image.bytes with ⟨e, failed⟩ | found
    · rw [change, failed] at answered
      cases answered
    · exact .inr found

theorem patchLoader_ok {place : List String} {contents : ByteArray}
    (h : t.file loader = .ok (place, contents)) (room : Geometry.bootSectorSize ≤ contents.size)
    (p : Partition) : (patchLoader loader p : Step FileTree Unit) t =
      (.ok (), t.put place (.file (p.patched contents))) := by
  rw [patchLoader, Step.bind_ok (checkLoader_ok (size_of_file h) room)]
  apply Storage.orFail_ok
  change change (fun t => t.overwrite loader _) t = _
  rw [change, overwrite_eq_ok h, p.writeAt_fields room]

/-- The bytes that a patch finds in the boot loader once the image has been moved. -/
def loaderBytes (image : DiskImage) (target place : List String) (contents : ByteArray) :
    ByteArray :=
  if target = place then image.bytes else contents

theorem file_moved (image : DiskImage) {target place : List String} {contents : ByteArray}
    (h : t.file loader = .ok (place, contents)) (isOpen : t.Open target) :
    (t.put target (.file image.bytes)).file loader =
      .ok (place, loaderBytes image target place contents) := by
  by_cases same : target = place
  · rw [loaderBytes, if_pos same, ← same]
    rw [← same] at h
    exact file_put_self isOpen (file_eq_ok_iff.1 h).1
  · rw [loaderBytes, if_neg same]
    exact file_put_other isOpen (Ne.symm same) h

/-- What an installation has found and built when it does not fail. -/
structure Ready (t : FileTree) (s : Settings) (loader path : Path) (files : List SourceFile)
    (image : DiskImage) (place : List String) (contents : ByteArray) (target : List String) :
    Prop where
  built : buildImage s files = .ok image
  found : t.file loader = .ok (place, contents)
  room : Geometry.bootSectorSize ≤ contents.size
  workshop : ∃ l, t.workshop (directoryOf path) = .ok l
  lands : t.Lands path target

section Ready
variable {image : DiskImage} {place target : List String} {contents : ByteArray}

/-- The tree with the image at its path and the entry in the boot loader. -/
def treeAfter (t : FileTree) (s : Settings) (image : DiskImage) (place : List String)
    (contents : ByteArray) (target : List String) : FileTree :=
  (t.put target (.file image.bytes)).put place
    (.file ((partitionFor s image).patched (loaderBytes image target place contents)))

theorem Ready.room_later (h : Ready t s loader path files image place contents target) :
    Geometry.bootSectorSize ≤ (loaderBytes image target place contents).size := by
  rw [loaderBytes]
  split
  · rw [(build_size (build_of_buildImage h.built)).1]
    decide
  · exact h.room

theorem Ready.run (h : Ready t s loader path files image place contents target) :
    (install s loader path files : Step FileTree InstallReport) t =
      (.ok (report s image (some path)), treeAfter t s image place contents target) := by
  obtain ⟨l, workshop⟩ := h.workshop
  rw [install, Step.bind_ok (checkLoader_ok (size_of_file h.found) h.room),
    Step.lift_bind_ok h.built, Step.bind_ok (writeImage_ok workshop h.lands),
    Step.bind_ok (patchLoader_ok (file_moved image h.found h.lands.isOpen) h.room_later _)]
  rfl

theorem install_cases (t : FileTree) (s : Settings) (loader path : Path) (files : List SourceFile)
    (plain : t.kind? loader ≠ some .directory) :
    (∃ e, (install s loader path files : Step FileTree InstallReport) t = (.error e, t)) ∨
    ∃ image place contents target, Ready t s loader path files image place contents target := by
  rw [install]
  rcases checkLoader_cases t loader with ⟨e, failed⟩ | ⟨n, size, room⟩
  · exact .inl ⟨e, Step.bind_error failed⟩
  · rw [Step.bind_ok (checkLoader_ok size room)]
    cases built : buildImage s files with
    | error e => exact .inl ⟨e, rfl⟩
    | ok image =>
      rw [Step.lift_bind_ok rfl]
      rcases writeImage_cases t image path with ⟨e, failed⟩ | ⟨l, target, workshop, lands⟩
      · exact .inl ⟨e, Step.bind_error failed⟩
      · obtain ⟨place, contents, found⟩ := file_of_size size plain
        cases size.symm.trans (size_of_file found)
        exact .inr ⟨image, place, contents, target, built, found, room, ⟨l, workshop⟩, lands⟩

end Ready

end Install

end BootDisk
