import BootDisk.Proofs.Install.Destination

set_option autoImplicit false

/-!
# An installation is all or nothing

A failed installation leaves the tree as it was. A finished one has moved the image to its path and
written two fields into the boot loader, and nothing else has changed. Nothing compares the two
paths: an image moved onto the boot loader takes its place.
-/
namespace BootDisk.Install
open FileTree

/-- What a finished installation has done, when the two paths name different files. -/
structure Installed (t : FileTree) (s : Settings) (loader path : Path) (files : List SourceFile)
    (r : InstallReport) (u : FileTree) (image : DiskImage) (place : List String)
    (contents : ByteArray) (target : List String) : Prop where
  built : DiskImage.build files s = .ok image
  rehearsed : dryRun s files = .ok { r with path := none }
  reported : r.path = some path
  found : t.file loader = .ok (place, contents)
  room : Geometry.bootSectorSize ≤ contents.size
  destination : t.destination path = .ok target
  sectors : (partitionFor s image).sectorCount.toNat = image.totalSectors
  patched : u.file loader = .ok (place, (partitionFor s image).patched contents)
  written : u.file path = .ok (target, image.bytes)
  frame : ∀ q, u.node? q =
    if q = place then some (.file ((partitionFor s image).patched contents))
    else if q = target then some (.file image.bytes) else t.node? q
  home : u.home = t.home

section Cases
variable {t : FileTree} {s : Settings} {loader path : Path} {files : List SourceFile}
  {image : DiskImage} {place target : List String} {contents : ByteArray}

theorem Ready.file_treeAfter (h : Ready t s loader path files image place contents target) :
    (treeAfter t s image place contents target).file loader = .ok (place,
      (partitionFor s image).patched (loaderBytes image target place contents)) := by
  have moved := file_moved image h.found h.lands.isOpen
  exact file_put_self (open_of_file moved) (file_eq_ok_iff.1 moved).1

theorem Ready.installed (h : Ready t s loader path files image place contents target)
    (apart : target ≠ place) :
    Installed t s loader path files (report s image (some path))
      (treeAfter t s image place contents target) image place contents target := by
  have size := (build_size (build_of_buildImage h.built)).2
  have kept : loaderBytes image target place contents = contents := if_neg apart
  have later := h.file_treeAfter
  have isOpen := open_of_file (file_moved image h.found h.lands.isOpen)
  rw [kept] at later
  exact {
    built := build_of_buildImage h.built
    rehearsed := dryRun_eq_ok_iff.2 ⟨image, h.built, rfl⟩
    reported := rfl
    found := h.found
    room := h.room
    destination := destination_eq_ok_iff.2 h.lands
    sectors := by
      change (UInt32.ofNat image.totalSectors).toNat = _
      rw [size]
      rfl
    patched := later
    written := file_put_other isOpen apart (h.lands.file_put image.bytes)
    frame := by
      intro q
      rw [treeAfter, kept, node?_put isOpen, node?_put h.lands.isOpen]
    home := by simp [treeAfter] }

theorem install_eq_ok {r : InstallReport} {u : FileTree} (plain : t.kind? loader ≠ some .directory)
    (h : (install s loader path files : Step FileTree InstallReport) t = (.ok r, u)) :
    ∃ image place contents target, Ready t s loader path files image place contents target ∧
      r = report s image (some path) ∧ u = treeAfter t s image place contents target := by
  rcases install_cases t s loader path files plain with
    ⟨e, failed⟩ | ⟨image, place, contents, target, ready⟩
  · cases h.symm.trans failed
  · cases h.symm.trans ready.run
    exact ⟨image, place, contents, target, ready, rfl, rfl⟩

theorem install_eq_error {e : Failure} {u : FileTree} (plain : t.kind? loader ≠ some .directory)
    (h : (install s loader path files : Step FileTree InstallReport) t = (.error e, u)) :
    u = t := by
  rcases install_cases t s loader path files plain with
    ⟨e, failed⟩ | ⟨image, place, contents, target, ready⟩
  · cases h.symm.trans failed
    rfl
  · cases h.symm.trans ready.run

/-- Where the parent is a directory and the path a name in it, only the loader and the files can
make an installation fail. -/
theorem install_succeeds_iff (plain : t.kind? loader ≠ some .directory) (nameable : Nameable t path)
    (parent : t.kind? (directoryOf path) = some .directory)
    (vacant : t.kind? path ≠ some .directory) :
    (∃ r u, (install s loader path files : Step FileTree InstallReport) t = (.ok r, u)) ↔
      (∃ place contents, t.file loader = .ok (place, contents) ∧
        Geometry.bootSectorSize ≤ contents.size) ∧ ∃ r, dryRun s files = .ok r := by
  constructor
  · rintro ⟨r, u, h⟩
    obtain ⟨image, place, contents, target, ready, _, _⟩ := install_eq_ok plain h
    exact ⟨⟨place, contents, ready.found, ready.room⟩, _, dryRun_eq_ok_iff.2 ⟨image, ready.built, rfl⟩⟩
  · rintro ⟨⟨place, contents, found, room⟩, r, rehearsed⟩
    obtain ⟨image, built, _⟩ := dryRun_eq_ok_iff.1 rehearsed
    obtain ⟨target, lands⟩ := lands nameable parent vacant
    have ready : Ready t s loader path files image place contents target :=
      ⟨built, found, room, workshop_ok nameable parent, lands⟩
    exact ⟨_, _, ready.run⟩

end Cases

/-- On any tree, with two paths that name different files: an error leaves the tree, a result says
what was written and that nothing else was, and where the image can be put at all, only a short boot
loader or an image that cannot be built are in the way. -/
theorem install_atomic (t : FileTree) (s : Settings) (loader path : Path) (files : List SourceFile)
    (plain : t.kind? loader ≠ some .directory)
    (apart : ∀ place contents, t.file loader = .ok (place, contents) →
      t.destination path ≠ .ok place) :
    (∀ e u, (install s loader path files : Step FileTree InstallReport) t = (.error e, u) →
      u = t) ∧
    (∀ r u, (install s loader path files : Step FileTree InstallReport) t = (.ok r, u) →
      ∃ image place contents target,
        Installed t s loader path files r u image place contents target) ∧
    (Nameable t path → t.kind? (directoryOf path) = some .directory →
      t.kind? path ≠ some .directory →
      ((∃ r u, (install s loader path files : Step FileTree InstallReport) t = (.ok r, u)) ↔
        (∃ place contents, t.file loader = .ok (place, contents) ∧
          Geometry.bootSectorSize ≤ contents.size) ∧ ∃ r, dryRun s files = .ok r)) := by
  refine ⟨fun e u h => install_eq_error plain h, ?_,
    fun nameable parent vacant => install_succeeds_iff plain nameable parent vacant⟩
  intro r u h
  obtain ⟨image, place, contents, target, ready, rfl, rfl⟩ := install_eq_ok plain h
  refine ⟨image, place, contents, target, ready.installed ?_⟩
  rintro rfl
  exact apart _ contents ready.found (destination_eq_ok_iff.2 ready.lands)

/-- A boot loader of one empty sector in the working directory `/work`, and nothing else. -/
def bareTree : FileTree := (FileTree.fresh ["work"]).addFile ["boot.bin"] (Bytes.zeros 512)

def bareLoader : Path := ⟨"boot.bin"⟩

theorem bareTree_loader : bareTree.file bareLoader = .ok (["work", "boot.bin"], Bytes.zeros 512) :=
  rfl

example : bareTree.file ⟨"/work/boot.bin"⟩ = bareTree.file bareLoader ∧
    bareTree.destination ⟨"../work//./boot.bin"⟩ = .ok ["work", "boot.bin"] ∧
    bareTree.destination ⟨"../../fs.img"⟩ = .ok ["fs.img"] := ⟨rfl, rfl, rfl⟩

theorem dryRun_empty : ∃ r, dryRun {} [] = .ok r := by
  have bounds : Geometry.floppy.Bounds := Geometry.bounds_of_validate rfl
  obtain ⟨first, blank, fresh⟩ := Builder.blank_holds bounds {}
  obtain ⟨image, finished, _⟩ := (fresh.framed bounds).finished bounds
  have built : DiskImage.build [] {} = .ok image := by
    rw [DiskImage.build, Outcome.bind_ok blank]
    exact finished
  refine ⟨report {} image none, dryRun_eq_ok_iff.2 ⟨image, ?_, rfl⟩⟩
  rw [buildImage, Outcome.bind_ok built]
  rfl

theorem bareTree_ready : (∃ place contents, bareTree.file bareLoader = .ok (place, contents) ∧
    Geometry.bootSectorSize ≤ contents.size) ∧ ∃ r, dryRun {} [] = .ok r :=
  ⟨⟨_, _, bareTree_loader, by rw [Bytes.size_zeros]; decide⟩, dryRun_empty⟩

theorem bareTree_atomic : ∃ r u image contents,
    (install {} bareLoader ⟨"../fs.img"⟩ [] : Step FileTree InstallReport) bareTree = (.ok r, u) ∧
    Installed bareTree {} bareLoader ⟨"../fs.img"⟩ [] r u image ["work", "boot.bin"] contents
      ["fs.img"] := by
  have plain : bareTree.kind? bareLoader ≠ some .directory := plain_of_file bareTree_loader
  have target : bareTree.destination ⟨"../fs.img"⟩ = .ok ["fs.img"] := rfl
  obtain ⟨_, finished, succeeds⟩ := install_atomic bareTree {} bareLoader ⟨"../fs.img"⟩ [] plain (by
    intro place contents found
    cases bareTree_loader.symm.trans found
    rw [target]
    decide)
  have nameable : Nameable bareTree ⟨"../fs.img"⟩ :=
    ⟨⟨[".."], "fs.img", rfl, by decide⟩, by decide, by decide, by decide +kernel⟩
  obtain ⟨r, u, run⟩ := (succeeds nameable (by decide +kernel) (by decide +kernel)).2 bareTree_ready
  obtain ⟨image, place, contents, spot, done⟩ := finished r u run
  cases bareTree_loader.symm.trans done.found
  cases target.symm.trans done.destination
  exact ⟨r, u, image, _, run, done⟩

/-- A path with a slash behind its name has a parent and is no directory, but a file cannot be moved
there. -/
theorem slash_refused : bareTree.kind? (directoryOf ⟨"fs.img/"⟩) = some .directory ∧
    bareTree.kind? ⟨"fs.img/"⟩ ≠ some .directory ∧ bareTree.kind? bareLoader ≠ some .directory ∧
    bareTree.destination ⟨"fs.img/"⟩ ≠ .ok ["work", "boot.bin"] ∧
    ((∃ place contents, bareTree.file bareLoader = .ok (place, contents) ∧
      Geometry.bootSectorSize ≤ contents.size) ∧ ∃ r, dryRun {} [] = .ok r) ∧
    ∃ e, (install {} bareLoader ⟨"fs.img/"⟩ [] : Step FileTree InstallReport) bareTree =
      (.error e, bareTree) := by
  have plain : bareTree.kind? bareLoader ≠ some .directory := plain_of_file bareTree_loader
  have refused : bareTree.destination ⟨"fs.img/"⟩ = .error .notADirectory := rfl
  refine ⟨by decide +kernel, by decide +kernel, plain, by rw [refused]; simp, bareTree_ready, ?_⟩
  rcases install_cases bareTree {} bareLoader ⟨"fs.img/"⟩ [] plain with
    failed | ⟨image, place, contents, target, ready⟩
  · exact failed
  · cases refused.symm.trans (destination_eq_ok_iff.2 ready.lands)

/-- The boot loader keeps its size and every byte outside the two fields, unless the image is moved
onto it. -/
theorem install_keeps_loader (t : FileTree) (s : Settings) (loader path : Path)
    (files : List SourceFile) (place : List String) (contents : ByteArray)
    (found : t.file loader = .ok (place, contents)) (result : Except Failure InstallReport)
    (u : FileTree)
    (run : (install s loader path files : Step FileTree InstallReport) t = (result, u)) :
    (∀ e, result = .error e → u = t) ∧
    (t.destination path ≠ .ok place → ∃ new, u.file loader = .ok (place, new) ∧
      new.size = contents.size ∧ ∀ i, i < Partition.startOffset ∨ Partition.countOffset + 4 ≤ i →
        Bytes.byte? new i = Bytes.byte? contents i) ∧
    (∀ r, result = .ok r → t.destination path = .ok place →
      ∃ image, DiskImage.build files s = .ok image ∧
        u.file loader = .ok (place, (partitionFor s image).patched image.bytes) ∧
        image.bytes.size = Geometry.floppy.imageSize) := by
  rcases install_cases t s loader path files (plain_of_file found) with
    ⟨e, failed⟩ | ⟨image, q, old, target, ready⟩
  · cases run.symm.trans failed
    exact ⟨fun _ _ => rfl, fun _ => ⟨contents, found, rfl, fun _ _ => rfl⟩, fun r h => (nomatch h)⟩
  · cases run.symm.trans ready.run
    cases found.symm.trans ready.found
    have later := ready.file_treeAfter
    have landed := destination_eq_ok_iff.2 ready.lands
    refine ⟨fun e h => (nomatch h), ?_, ?_⟩
    · intro apart
      have other : target ≠ place := by
        rintro rfl
        exact apart landed
      have kept : loaderBytes image target place contents = contents := if_neg other
      rw [kept] at later
      exact ⟨_, later, Partition.patched_size _ ready.room,
        fun i outside => Partition.byte?_patched _ ready.room outside⟩
    · intro r _ same
      have lost : loaderBytes image target place contents = image.bytes :=
        if_pos (Except.ok.inj (landed.symm.trans same))
      have built := build_of_buildImage ready.built
      rw [lost] at later
      exact ⟨image, built, later, (build_size built).1⟩

theorem bareTree_keeps_loader : ∃ result u new,
    (install {} bareLoader ⟨"/fs.img"⟩ [] : Step FileTree InstallReport) bareTree = (result, u) ∧
    u.file bareLoader = .ok (["work", "boot.bin"], new) ∧ new.size = 512 := by
  have target : bareTree.destination ⟨"/fs.img"⟩ = .ok ["fs.img"] := rfl
  generalize run : (install {} bareLoader ⟨"/fs.img"⟩ [] : Step FileTree InstallReport) bareTree =
    answer
  obtain ⟨result, u⟩ := answer
  obtain ⟨new, found, size, _⟩ := (install_keeps_loader bareTree {} bareLoader ⟨"/fs.img"⟩ [] _ _
    bareTree_loader result u run).2.1 (by rw [target]; decide)
  exact ⟨result, u, new, rfl, found, size.trans (Bytes.size_zeros 512)⟩

theorem bareTree_overwritten {path : Path} (nameable : Nameable bareTree path)
    (here : bareTree.destination path = .ok ["work", "boot.bin"])
    (parent : bareTree.kind? (directoryOf path) = some .directory)
    (vacant : bareTree.kind? path ≠ some .directory) : ∃ r u new,
    (install {} bareLoader path [] : Step FileTree InstallReport) bareTree = (.ok r, u) ∧
    u.file bareLoader = .ok (["work", "boot.bin"], new) ∧ new.size = 1474560 := by
  have plain : bareTree.kind? bareLoader ≠ some .directory := plain_of_file bareTree_loader
  obtain ⟨r, u, run⟩ := (install_succeeds_iff plain nameable parent vacant).2 bareTree_ready
  obtain ⟨image, place, contents, target, ready, rfl, rfl⟩ := install_eq_ok plain run
  cases bareTree_loader.symm.trans ready.found
  cases here.symm.trans (destination_eq_ok_iff.2 ready.lands)
  refine ⟨_, _, _, run, ready.file_treeAfter, ?_⟩
  rw [Partition.patched_size _ ready.room_later]
  exact (build_size (build_of_buildImage ready.built)).1

/-- Under its own path and under an absolute one, the image takes the place of the boot loader. -/
theorem loader_replaced : bareTree.file bareLoader = .ok (["work", "boot.bin"], Bytes.zeros 512) ∧
    (∃ r u new, (install {} bareLoader bareLoader [] : Step FileTree InstallReport) bareTree =
      (.ok r, u) ∧ u.file bareLoader = .ok (["work", "boot.bin"], new) ∧ new.size = 1474560) ∧
    ∃ r u new, (install {} bareLoader ⟨"/work/boot.bin"⟩ [] : Step FileTree InstallReport) bareTree =
      (.ok r, u) ∧ u.file bareLoader = .ok (["work", "boot.bin"], new) ∧ new.size = 1474560 := by
  have plain : Nameable bareTree bareLoader :=
    ⟨⟨[], _, rfl, by decide⟩, by decide, by decide, by decide +kernel⟩
  have absolute : Nameable bareTree ⟨"/work/boot.bin"⟩ :=
    ⟨⟨["", "work"], _, rfl, by decide⟩, by decide, by decide, by decide +kernel⟩
  exact ⟨bareTree_loader, bareTree_overwritten plain rfl (by decide +kernel) (by decide +kernel),
    bareTree_overwritten absolute rfl (by decide +kernel) (by decide +kernel)⟩

end BootDisk.Install
