import BootDisk.Audit
import BootDisk.Builder
import BootDisk.Partition
import BootDisk.Storage

set_option autoImplicit false

namespace BootDisk

/-- What an installation did. There is no path when nothing was written. -/
structure InstallReport where
  path : Option Path
  totalSectors : Nat
  partition : Partition
  files : List Placement
  clustersUsed : Nat
  clustersFree : Nat
deriving DecidableEq, Repr

namespace Install

/-- The image of the files, audited if the settings ask for it. -/
def buildImage (s : Settings) (files : List SourceFile) : Outcome DiskImage := do
  let image ← DiskImage.build files s
  if s.verify then
    discard (← Audit.ofImage image.bytes).require
  return image

def partitionFor (s : Settings) (image : DiskImage) : Partition :=
  ⟨s.partitionStart, UInt32.ofNat image.totalSectors⟩

def report (s : Settings) (image : DiskImage) (path : Option Path) : InstallReport where
  path := path
  totalSectors := image.totalSectors
  partition := partitionFor s image
  files := image.files
  clustersUsed := image.clustersUsed
  clustersFree := image.clustersFree

def dryRun (s : Settings) (files : List SourceFile) : Outcome InstallReport := do
  return report s (← buildImage s files) none

variable {m : Type → Type} [Monad m] [Storage m]

/-- Whether a boot loader has room for a partition table, by its size alone. -/
def checkLoader (loader : Path) : ExceptT Failure m Unit := do
  let size ← Storage.orFail (.unreadableInput loader) (Storage.size loader)
  Partition.checkSize size

def patchLoader (loader : Path) (p : Partition) : ExceptT Failure m Unit := do
  checkLoader loader
  Storage.orFail (fun e => .transfer (.storage e)) (Storage.overwrite loader [
    (Partition.startOffset, Partition.field p.startSector),
    (Partition.countOffset, Partition.field p.sectorCount)])

/-- The directory of a path, which is the current one for a plain name. -/
def directoryOf (p : Path) : Path :=
  match p.parent? with
  | some d => if d.text.isEmpty then ⟨"."⟩ else d
  | none => ⟨"."⟩

def writeImage (image : DiskImage) (path : Path) : ExceptT Failure m Unit :=
  Storage.orFail .transfer (Storage.replace (directoryOf path) path image.bytes)

def install (s : Settings) (loader path : Path) (files : List SourceFile) :
    ExceptT Failure m InstallReport := do
  checkLoader loader
  let image ← buildImage s files
  writeImage image path
  patchLoader loader (partitionFor s image)
  return report s image (some path)

def verifyFile (path : Path) : ExceptT Failure m Audit := do
  let bytes ← Storage.orFail (fun e => .transfer (.storage e)) (Storage.read path)
  Audit.ofImage bytes

end Install

end BootDisk
