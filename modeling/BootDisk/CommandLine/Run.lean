import BootDisk.BuildTree
import BootDisk.CommandLine.Arguments
import BootDisk.CommandLine.Report
import BootDisk.Manifest

set_option autoImplicit false

namespace BootDisk.CommandLine

inductive Context where
  | manifest (path : Path)
  | collecting (root : Path)
  | building (image : Path)
deriving DecidableEq, Repr

def Context.message : Context → String
  | manifest path => s!"Failed to load manifest {path.text}"
  | collecting root => s!"Failed to collect input files under {root.text}"
  | building image => s!"Failed to build {image.text}"

structure RunError where
  context : Option Context
  failure : Failure
deriving DecidableEq, Repr

inductive Ending where
  | help
  | usage (e : UsageError)
  | failed (e : RunError)
  | done (r : InstallReport)
deriving DecidableEq, Repr

variable {m : Type → Type} [Monad m] [Storage m]

abbrev Running (m : Type → Type) := ExceptT RunError m

def during {α : Type} (context : Option Context) (action : ExceptT Failure m α) : Running m α :=
  action.adapt fun failure => ⟨context, failure⟩

def inputs (i : Invocation) : Running m (List SourceFile × Settings) := do
  match i.manifest with
  | some path =>
    let manifest ← during (some (.manifest path)) (Manifest.load path)
    let files ← during none manifest.readFiles
    return (files, manifest.applyTo {})
  | none =>
    let files ← during (some (.collecting i.root)) (BuildTree.collect i.root)
    return (files, {})

def Invocation.applyTo (i : Invocation) (s : Settings) : Settings :=
  { s with
    label := i.label.getD s.label
    serial := i.serial.getD s.serial
    verify := s.verify || i.verify }

def perform (i : Invocation) : Running m InstallReport := do
  let (files, settings) ← inputs i
  let settings := i.applyTo settings
  if i.dryRun then
    during none (liftM (Install.dryRun settings files))
  else
    during (some (.building i.image)) (Install.install settings i.bootLoader i.image files)

def run (arguments : List String) : m Ending := do
  match parse arguments with
  | .error .help => return .help
  | .error (.usage e) => return .usage e
  | .ok i =>
    match ← perform i with
    | .ok r => return .done r
    | .error e => return .failed e

structure Exit where
  code : Nat
  output : String := ""
  errors : String := ""
deriving DecidableEq, Repr

/-- A fault ends the program abnormally. -/
def RunError.code (e : RunError) : Nat :=
  match e.failure with
  | .error _ => 1
  | .fault _ => 101

def RunError.report (e : RunError) : String :=
  let (message, causes) := match e.failure with
    | .error d => (d.message, d.cause?.toList)
    | .fault f => (f.message, [])
  match e.context with
  | some c => failureReport c.message (message :: causes)
  | none => failureReport message causes

def usageText : String :=
  "Build a bootable FAT12 image and record it in the boot loader's partition table\n\n" ++
  "Usage: bootdisk [OPTIONS] <BOOT_LOADER> <IMAGE>\n\n" ++
  "Arguments:\n" ++
  "  <BOOT_LOADER>  Boot loader binary; its partition entry is patched in place\n" ++
  "  <IMAGE>        Output image path\n\n" ++
  "Options:\n" ++
  "      --root <ROOT>          Build tree with kernel.elf and user/*/*.elf [default: .]\n" ++
  "  -m, --manifest <MANIFEST>  JSON manifest that lists the files instead\n" ++
  "      --label <LABEL>        Volume label (up to 11 characters)\n" ++
  "      --serial <SERIAL>      Volume serial number, in hex\n" ++
  "      --verify               Check the image before it is written\n" ++
  "      --dry-run              Print the layout without writing anything\n" ++
  "  -v, --verbose...           More output\n" ++
  "  -h, --help                 Print help\n"

/-- A usage error is written without the control sequences in its text. -/
def Ending.exit : Ending → Exit
  | help => { code := 0, output := usageText }
  | usage e => { code := 2, errors := Terminal.plain e.report }
  | failed e => { code := e.code, errors := e.report }
  | done r => { code := 0, output := report r }

end BootDisk.CommandLine
