import BootDisk.Proofs.Install.Atomicity

set_option autoImplicit false

/-!
# What the early check of a boot loader decides

The check asks for a size alone, and a directory has one too, often of a whole block. Of all that a
path can lead to, a directory of such a size is the one thing that passes the check and cannot be
patched. An installation that ends with an error has left the tree as it was, unless its boot loader
is such a directory: then the image has already been moved to its path.
-/
namespace BootDisk.Install
open FileTree

def directoryError : Failure := .error (.transfer (.storage .isADirectory))

/-- A file with room for a partition table stands at the path. -/
def Patchable (t : FileTree) (loader : Path) : Prop :=
  ∃ place contents, t.file loader = .ok (place, contents) ∧
    Geometry.bootSectorSize ≤ contents.size

/-- A directory stands at the path, of a size that has room for a partition table. -/
def Hollow (t : FileTree) (loader : Path) : Prop :=
  ∃ place, t.locate loader = .ok place ∧ t.node? place = some .directory ∧
    Geometry.bootSectorSize ≤ t.directorySize place

section Steps
variable {t : FileTree} {loader : Path}

theorem Hollow.directory (h : Hollow t loader) : t.kind? loader = some .directory := by
  obtain ⟨place, located, node, _⟩ := h
  exact kind?_eq_some_iff.2 ⟨place, located, kindAt?_eq_directory_iff.2 node⟩

theorem Hollow.put (h : Hollow t loader) {place : List String} {n : Node} (isOpen : t.Open place) :
    Hollow (t.put place n) loader := by
  obtain ⟨q, located, node, large⟩ := h
  exact ⟨q, locate_put isOpen located, directory_put isOpen node, by simpa using large⟩

theorem checkLoader_hollow (h : Hollow t loader) :
    (checkLoader loader : Step FileTree Unit) t = (.ok (), t) := by
  obtain ⟨place, located, node, large⟩ := h
  exact checkLoader_ok (size_of_directory located node) large

theorem patchLoader_hollow (h : Hollow t loader) (p : Partition) :
    (patchLoader loader p : Step FileTree Unit) t = (.error directoryError, t) := by
  rw [patchLoader, Step.bind_ok (checkLoader_hollow h)]
  apply Storage.orFail_error
  change change (fun t => t.overwrite loader _) t = _
  rw [change, overwrite, Outcome.bind_error (file_of_directory h.directory)]

theorem checkLoader_passes (t : FileTree) (loader : Path) :
    (∃ e, (checkLoader loader : Step FileTree Unit) t = (.error e, t)) ∨ Hollow t loader ∨
      Patchable t loader := by
  rcases checkLoader_cases t loader with failed | ⟨n, size, room⟩
  · exact .inl failed
  · right
    by_cases directory : t.kind? loader = some .directory
    · obtain ⟨place, located, node⟩ := locate_of_directory directory
      cases size.symm.trans (size_of_directory located node)
      exact .inl ⟨place, located, node, room⟩
    · obtain ⟨place, contents, found⟩ := file_of_size size directory
      cases size.symm.trans (size_of_file found)
      exact .inr ⟨place, contents, found, room⟩

theorem checkLoader_eq_ok_iff : (∃ u, (checkLoader loader : Step FileTree Unit) t = (.ok (), u)) ↔
    Hollow t loader ∨ Patchable t loader := by
  constructor
  · rintro ⟨u, checked⟩
    rcases checkLoader_passes t loader with ⟨e, failed⟩ | passed
    · cases checked.symm.trans failed
    · exact passed
  · rintro (hollow | ⟨place, contents, found, room⟩)
    · exact ⟨t, checkLoader_hollow hollow⟩
    · exact ⟨t, checkLoader_ok (size_of_file found) room⟩

theorem patchLoader_eq_ok_iff (p : Partition) :
    (∃ u, (patchLoader loader p : Step FileTree Unit) t = (.ok (), u)) ↔ Patchable t loader := by
  constructor
  · rintro ⟨u, patched⟩
    obtain ⟨_, v, checked, _⟩ := Step.bind_eq_ok_iff.1 patched
    refine (checkLoader_eq_ok_iff.1 ⟨v, checked⟩).resolve_left fun hollow => ?_
    cases patched.symm.trans (patchLoader_hollow hollow p)
  · rintro ⟨place, contents, found, room⟩
    exact ⟨_, patchLoader_ok found room p⟩

end Steps

/-- The boot loader is a directory that the check does not catch, and nothing else is in the way of
an installation. -/
structure Stranded (t : FileTree) (s : Settings) (loader path : Path) (files : List SourceFile)
    (image : DiskImage) (target : List String) : Prop where
  hollow : Hollow t loader
  built : buildImage s files = .ok image
  workshop : ∃ l, t.workshop (directoryOf path) = .ok l
  lands : t.Lands path target

section Runs
variable {t u : FileTree} {s : Settings} {loader path : Path} {files : List SourceFile}
  {image : DiskImage} {target : List String}

/-- The image is at its path when the patch fails. -/
theorem Stranded.run (h : Stranded t s loader path files image target) :
    (install s loader path files : Step FileTree InstallReport) t =
      (.error directoryError, t.put target (.file image.bytes)) := by
  obtain ⟨l, workshop⟩ := h.workshop
  have later : Hollow (t.put target (.file image.bytes)) loader := h.hollow.put h.lands.isOpen
  rw [install, Step.bind_ok (checkLoader_hollow h.hollow), Step.lift_bind_ok h.built,
    Step.bind_ok (writeImage_ok workshop h.lands), Step.bind_error (patchLoader_hollow later _)]

theorem install_hollow_cases (s : Settings) (path : Path) (files : List SourceFile)
    (hollow : Hollow t loader) :
    (∃ e, (install s loader path files : Step FileTree InstallReport) t = (.error e, t)) ∨
    ∃ image target, Stranded t s loader path files image target := by
  rw [install, Step.bind_ok (checkLoader_hollow hollow)]
  cases built : buildImage s files with
  | error e => exact .inl ⟨e, rfl⟩
  | ok image =>
    rw [Step.lift_bind_ok rfl]
    rcases writeImage_cases t image path with ⟨e, failed⟩ | ⟨l, target, workshop, lands⟩
    · exact .inl ⟨e, Step.bind_error failed⟩
    · exact .inr ⟨image, target, hollow, built, ⟨l, workshop⟩, lands⟩

theorem install_directory_cases (s : Settings) (path : Path) (files : List SourceFile)
    (directory : t.kind? loader = some .directory) :
    (∃ e, (install s loader path files : Step FileTree InstallReport) t = (.error e, t)) ∨
    ∃ image target, Stranded t s loader path files image target := by
  rcases checkLoader_passes t loader with ⟨e, failed⟩ | hollow | ⟨place, contents, found, _⟩
  · left
    rw [install, Step.bind_error failed]
    exact ⟨e, rfl⟩
  · exact install_hollow_cases s path files hollow
  · exact absurd directory (plain_of_file found)

theorem install_error_cases {e : Failure}
    (h : (install s loader path files : Step FileTree InstallReport) t = (.error e, u)) :
    u = t ∨ ∃ image target, Stranded t s loader path files image target ∧ e = directoryError ∧
      u = t.put target (.file image.bytes) := by
  by_cases directory : t.kind? loader = some .directory
  · rcases install_directory_cases s path files directory with
      ⟨f, failed⟩ | ⟨image, target, stranded⟩
    · cases h.symm.trans failed
      exact .inl rfl
    · cases h.symm.trans stranded.run
      exact .inr ⟨image, target, stranded, rfl, rfl⟩
  · exact .inl (install_eq_error directory h)

end Runs

/-- On every tree and path, the check and the patch agree but for large directories, which pass the
check and cannot be patched; an installation that fails has left the tree, unless it is stranded on
such a directory, and then it always fails with the image at its path. -/
theorem checkLoader_foresees (t : FileTree) (loader : Path) :
    ((∃ u, (checkLoader loader : Step FileTree Unit) t = (.ok (), u)) ↔
      Hollow t loader ∨ Patchable t loader) ∧
    (∀ p : Partition, (∃ u, (patchLoader loader p : Step FileTree Unit) t = (.ok (), u)) ↔
      Patchable t loader) ∧
    (∀ p : Partition, Hollow t loader →
      (patchLoader loader p : Step FileTree Unit) t = (.error directoryError, t)) ∧
    (∀ s path files e u,
      (install s loader path files : Step FileTree InstallReport) t = (.error e, u) → u = t ∨
        ∃ image target, Stranded t s loader path files image target ∧ e = directoryError ∧
          u = t.put target (.file image.bytes)) ∧
    ∀ s path files image target, Stranded t s loader path files image target →
      (install s loader path files : Step FileTree InstallReport) t =
        (.error directoryError, t.put target (.file image.bytes)) :=
  ⟨checkLoader_eq_ok_iff, patchLoader_eq_ok_iff, fun p hollow => patchLoader_hollow hollow p,
    fun _ _ _ _ _ h => install_error_cases h, fun _ _ _ _ _ h => h.run⟩

def hollowTree : FileTree := (FileTree.fresh ["work"]).makeDirectories ["boot.bin"]

theorem hollowTree_hollow : Hollow hollowTree bareLoader :=
  ⟨["work", "boot.bin"], rfl, rfl, by decide⟩

theorem hollowTree_stranded : ∃ image,
    Stranded hollowTree {} bareLoader ⟨"fs.img"⟩ [] image ["work", "fs.img"] := by
  have target : hollowTree.destination ⟨"fs.img"⟩ = .ok ["work", "fs.img"] := rfl
  obtain ⟨r, rehearsed⟩ := dryRun_empty
  obtain ⟨image, built, _⟩ := dryRun_eq_ok_iff.1 rehearsed
  have nameable : Nameable hollowTree ⟨"fs.img"⟩ :=
    ⟨⟨[], "fs.img", rfl, by decide⟩, by decide, by decide, by decide +kernel⟩
  exact ⟨image, hollowTree_hollow, built, workshop_ok nameable (by decide +kernel),
    destination_eq_ok_iff.1 target⟩

/-- The check lets a directory through and the patch does not, so the installation fails with the
image already at its path. -/
theorem directory_passes : ∃ image : DiskImage,
    (checkLoader bareLoader : Step FileTree Unit) hollowTree = (.ok (), hollowTree) ∧
    (patchLoader bareLoader ⟨63, 2880⟩ : Step FileTree Unit) hollowTree =
      (.error directoryError, hollowTree) ∧
    (install {} bareLoader ⟨"fs.img"⟩ [] : Step FileTree InstallReport) hollowTree =
      (.error directoryError, hollowTree.put ["work", "fs.img"] (.file image.bytes)) ∧
    hollowTree.read ⟨"fs.img"⟩ = .error .notFound ∧
    (hollowTree.put ["work", "fs.img"] (.file image.bytes)).read ⟨"fs.img"⟩ = .ok image.bytes := by
  obtain ⟨image, stranded⟩ := hollowTree_stranded
  refine ⟨image, checkLoader_hollow hollowTree_hollow, patchLoader_hollow hollowTree_hollow _,
    stranded.run, rfl, ?_⟩
  rw [FileTree.read, stranded.lands.file_put]
  rfl

theorem hollowTree_foreseen : ∃ image : DiskImage,
    (patchLoader bareLoader ⟨63, 2880⟩ : Step FileTree Unit) hollowTree =
      (.error directoryError, hollowTree) ∧
    (install {} bareLoader ⟨"fs.img"⟩ [] : Step FileTree InstallReport) hollowTree =
      (.error directoryError, hollowTree.put ["work", "fs.img"] (.file image.bytes)) ∧
    ∃ u, (patchLoader bareLoader ⟨63, 2880⟩ : Step FileTree Unit) bareTree = (.ok (), u) := by
  obtain ⟨_, _, unpatched, _, fails⟩ := checkLoader_foresees hollowTree bareLoader
  obtain ⟨_, patched, _⟩ := checkLoader_foresees bareTree bareLoader
  obtain ⟨image, stranded⟩ := hollowTree_stranded
  exact ⟨image, unpatched _ hollowTree_hollow, fails _ _ _ _ _ stranded,
    (patched _).2 ⟨_, _, bareTree_loader, by rw [Bytes.size_zeros]; decide⟩⟩

end BootDisk.Install
