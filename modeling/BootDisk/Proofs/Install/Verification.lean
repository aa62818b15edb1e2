import BootDisk.Proofs.Builder.Audited
import BootDisk.Proofs.Install.Stranding

set_option autoImplicit false

namespace BootDisk

namespace Install
open FileTree

variable {s : Settings} {files : List SourceFile} {t u : FileTree} {loader path : Path}

/-- The audit of a built image finds nothing. -/
theorem buildImage_eq (s : Settings) (files : List SourceFile) :
    buildImage s files = DiskImage.build files s := by
  cases built : DiskImage.build files s with
  | error e => rw [buildImage, Outcome.bind_error built]
  | ok image =>
    rw [buildImage, Outcome.bind_ok built]
    by_cases verify : s.verify = true
    · have valid : Geometry.floppy.validate = .ok () := rfl
      have bounds := Geometry.bounds_of_validate valid
      rw [← Builder.build_floppy] at built
      obtain ⟨slots, b, _, holds, done⟩ := Builder.holds_of_build valid built
      obtain ⟨finished, again, _, bytes⟩ := Builder.finish_eq_ok bounds holds (by decide)
      cases done.symm.trans again
      obtain ⟨a, audited, clean, _⟩ := Builder.audit_finished bounds holds (by decide) bytes valid
      have passed : a.require = .ok a := by
        rw [Audit.require, Audit.isValid, clean]
        rfl
      rw [if_pos verify, Outcome.bind_ok audited, passed]
      rfl
    · rw [if_neg verify]
      rfl

theorem install_verify {m : Type → Type} [Monad m] [Storage m] (s : Settings) (b : Bool)
    (loader path : Path) (files : List SourceFile) :
    install { s with verify := b } loader path files =
      (install s loader path files : ExceptT Failure m InstallReport) := by
  rw [install, install, buildImage_eq, buildImage_eq]
  rfl

theorem dryRun_verify (s : Settings) (b : Bool) (files : List SourceFile) :
    dryRun { s with verify := b } files = dryRun s files := by
  rw [dryRun, dryRun, buildImage_eq, buildImage_eq]
  rfl

/-- A directory passes the check of a boot loader, but an installation with one fails. -/
theorem plain_of_install {r : InstallReport}
    (h : (install s loader path files : Step FileTree InstallReport) t = (.ok r, u)) :
    t.kind? loader ≠ some .directory := by
  intro directory
  rcases install_directory_cases s path files directory with
    ⟨e, failed⟩ | ⟨image, target, stranded⟩
  · cases h.symm.trans failed
  · cases h.symm.trans stranded.run

end Install

end BootDisk
