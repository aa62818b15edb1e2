import BootDisk.SourceFile
import BootDisk.Storage
import BootDisk.Text.Uppercase

set_option autoImplicit false

/-!
# Collecting programs from a build tree

A build tree holds `kernel.elf` and, in the directories below `user`, the programs. The kernel comes
first and `user/user1/user.elf` second; the other programs follow in the order of their paths.
-/
namespace BootDisk.BuildTree

def kernelPath : Path := ⟨"kernel.elf"⟩
def userDirectory : String := "user"
def firstDirectory : String := "user1"
def firstProgram : String := "user.elf"
def extension : String := "elf"

def sorted (names : List String) : List String := names.mergeSort fun a b => decide (a ≤ b)

/-- The program that has its place right behind the kernel; case does not matter in its name. -/
def isFirst (directory name : String) : Bool :=
  directory == firstDirectory && name.map Char.toLower == firstProgram

def isProgram (directory name : String) : Bool :=
  (Path.stemAndExtension name).2 == some extension && !isFirst directory name

/-- The name of a program in the image: the stem in upper case, at most eight characters. -/
def imageName (name : String) : String :=
  String.ofList ((Text.uppercase (Path.stemAndExtension name).1.toList).take 8)

def imageExtension : String := "ELF"

variable {m : Type → Type} [Monad m] [Storage m]

def namesIn (directory : Path) : ExceptT Failure m (List String) := do
  return sorted (← Storage.orFail (.unreadableInput directory) (Storage.names directory))

def ofKind (kind : FileKind) (directory : Path) : List String → ExceptT Failure m (List String)
  | [] => return []
  | name :: rest => do
    let found : Option FileKind ← liftM (Storage.kind? (m := m) (directory.join ⟨name⟩))
    let others ← ofKind kind directory rest
    return if found = some kind then name :: others else others

def programsBelow (user : Path) : List String → ExceptT Failure m (List (Path × String))
  | [] => return []
  | directory :: rest => do
    let path := user.join ⟨directory⟩
    let names ← namesIn path
    let programs ← ofKind .file path (names.filter (isProgram directory))
    let others ← programsBelow user rest
    return programs.map (fun name => (path.join ⟨name⟩, name)) ++ others

def programs (root : Path) : ExceptT Failure m (List (Path × String)) := do
  let user := root.join ⟨userDirectory⟩
  programsBelow user (← ofKind .directory user (← namesIn user))

def source (name : String) (path : Path) : ExceptT Failure m SourceFile :=
  return ⟨name, imageExtension, ← readInput path⟩

def collect (root : Path) : ExceptT Failure m (List SourceFile) := do
  let kernel ← source "KERNEL" (root.join kernelPath)
  let first ← source "USER"
    (((root.join ⟨userDirectory⟩).join ⟨firstDirectory⟩).join ⟨firstProgram⟩)
  let others ← (← programs root).mapM fun p => source (imageName p.2) p.1
  return kernel :: first :: others

end BootDisk.BuildTree
