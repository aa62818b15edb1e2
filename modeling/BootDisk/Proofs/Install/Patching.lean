import BootDisk.Proofs.Install.Atomicity

set_option autoImplicit false

/-!
# The partition entry in memory and on disk

A patch in memory and a patch of a file check the size first and fail alike, with no byte changed.
Otherwise the file ends up with exactly the bytes that the patch in memory gives, which hold the
entry, the length and all other bytes; no other file is touched.
-/
namespace BootDisk.Install
open FileTree

structure Recorded (p : Partition) (loader after : ByteArray) : Prop where
  back : Partition.read after = .ok p
  size : after.size = loader.size
  frame : ∀ i, i < 0x1c6 ∨ 0x1ce ≤ i → Bytes.byte? after i = Bytes.byte? loader i
  again : ∀ q : Partition, q.patch after = q.patch loader

theorem recorded_patched (p : Partition) {loader : ByteArray}
    (room : Geometry.bootSectorSize ≤ loader.size) : Recorded p loader (p.patched loader) := by
  have size := p.patched_size room
  refine ⟨p.read_patched room, size, fun _ => p.byte?_patched room, fun q => ?_⟩
  rw [q.patch_eq_ok room, q.patch_eq_ok (by rw [size]; exact room), p.patched_patched room q]

theorem patch_cases (p : Partition) (loader : ByteArray) :
    (Geometry.bootSectorSize ≤ loader.size ∧ p.patch loader = (.ok (), p.patched loader)) ∨
    (loader.size < Geometry.bootSectorSize ∧
      p.patch loader = (.error (.error (.bootLoaderTooSmall loader.size)), loader)) := by
  rcases Nat.lt_or_ge loader.size Geometry.bootSectorSize with short | room
  · exact .inr ⟨short, p.patch_short short⟩
  · exact .inl ⟨room, p.patch_eq_ok room⟩

section File
variable {t : FileTree} {loader : Path} {place : List String} {contents : ByteArray}
  (found : t.file loader = .ok (place, contents))
include found

theorem patchLoader_short (p : Partition) (short : contents.size < Geometry.bootSectorSize) :
    (patchLoader loader p : Step FileTree Unit) t =
      (.error (.error (.bootLoaderTooSmall contents.size)), t) := by
  have checked : (checkLoader loader : Step FileTree Unit) t =
      (.error (.error (.bootLoaderTooSmall contents.size)), t) := by
    rw [checkLoader_of_size (size_of_file found), Partition.checkSize_short short]
  rw [patchLoader, Step.bind_error checked]

theorem patchLoader_patches (p : Partition) : ∃ u,
    (patchLoader loader p : Step FileTree Unit) t = ((p.patch contents).1, u) ∧
    u.file loader = .ok (place, (p.patch contents).2) ∧
    ∀ q, q ≠ place → u.node? q = t.node? q := by
  rcases patch_cases p contents with ⟨room, patch⟩ | ⟨short, patch⟩
  · rw [patch]
    have isOpen := open_of_file found
    refine ⟨_, patchLoader_ok found room p, file_put_self isOpen (file_eq_ok_iff.1 found).1, ?_⟩
    intro q other
    rw [node?_put isOpen, if_neg other]
  · rw [patch]
    exact ⟨t, patchLoader_short found p short, found, fun _ _ => rfl⟩

end File

/-- Whether an entry can be written and what it changes, and that writing it to a file does the same
to the contents of the file. -/
theorem patchLoader_matches (p : Partition) (b : ByteArray) :
    ((∃ after, p.patch b = (.ok (), after)) ↔ Geometry.bootSectorSize ≤ b.size) ∧
    (∀ after, p.patch b = (.ok (), after) → Recorded p b after) ∧
    (∀ failure after, p.patch b = (.error failure, after) →
      failure = .error (.bootLoaderTooSmall b.size) ∧ after = b) ∧
    ∀ (t : FileTree) (loader : Path) (place : List String), t.file loader = .ok (place, b) → ∃ u,
      (patchLoader loader p : Step FileTree Unit) t = ((p.patch b).1, u) ∧
      u.file loader = .ok (place, (p.patch b).2) ∧ ∀ q, q ≠ place → u.node? q = t.node? q := by
  refine ⟨?_, ?_, ?_, fun _ _ _ found => patchLoader_patches found p⟩
  · rcases patch_cases p b with ⟨room, patch⟩ | ⟨short, patch⟩
    · exact ⟨fun _ => room, fun _ => ⟨_, patch⟩⟩
    · refine ⟨?_, fun room => absurd room (Nat.not_le.2 short)⟩
      rintro ⟨after, done⟩
      cases done.symm.trans patch
  · intro after done
    rcases patch_cases p b with ⟨room, patch⟩ | ⟨short, patch⟩
    · cases done.symm.trans patch
      exact recorded_patched p room
    · cases done.symm.trans patch
  · intro failure after failed
    rcases patch_cases p b with ⟨room, patch⟩ | ⟨short, patch⟩
    · cases failed.symm.trans patch
    · cases failed.symm.trans patch
      exact ⟨rfl, rfl⟩

def shortTree : FileTree := (FileTree.fresh ["work"]).addFile ["boot.bin"] (Bytes.zeros 511)

theorem bareTree_matches : ∃ u after,
    (patchLoader bareLoader ⟨63, 2880⟩ : Step FileTree Unit) bareTree = (.ok (), u) ∧
    u.file bareLoader = .ok (["work", "boot.bin"], after) ∧ Recorded ⟨63, 2880⟩ (Bytes.zeros 512) after ∧
    ∃ w, (patchLoader bareLoader ⟨63, 2880⟩ : Step FileTree Unit) shortTree =
      (.error (.error (.bootLoaderTooSmall 511)), w) ∧
    w.file bareLoader = .ok (["work", "boot.bin"], Bytes.zeros 511) := by
  have short : shortTree.file bareLoader = .ok (["work", "boot.bin"], Bytes.zeros 511) := rfl
  obtain ⟨succeeds, recorded, _, files⟩ := patchLoader_matches ⟨63, 2880⟩ (Bytes.zeros 512)
  obtain ⟨after, patch⟩ := succeeds.2 (by rw [Bytes.size_zeros]; decide)
  obtain ⟨u, run, file, _⟩ := files bareTree bareLoader _ bareTree_loader
  obtain ⟨_, _, _, shorts⟩ := patchLoader_matches ⟨63, 2880⟩ (Bytes.zeros 511)
  obtain ⟨w, refused, kept, _⟩ := shorts shortTree bareLoader _ short
  have small : (Bytes.zeros 511).size < Geometry.bootSectorSize := by
    rw [Bytes.size_zeros]
    decide
  rw [Partition.patch_short _ small, Bytes.size_zeros] at refused
  rw [Partition.patch_short _ small] at kept
  rw [patch] at run file
  exact ⟨u, after, run, file, recorded after patch, w, refused, kept⟩

end BootDisk.Install
