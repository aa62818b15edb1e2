import BootDisk.Failure
import BootDisk.Path

set_option autoImplicit false

/-!
# File storage

What the program asks of a file system. Every request answers with a value or with the reason of
the refusal.
-/
namespace BootDisk

inductive FileKind where
  | file
  | directory
deriving DecidableEq, Repr

class Storage (m : Type → Type) where
  read : Path → m (Except StorageError ByteArray)
  /-- The names in a directory, in any order. -/
  names : Path → m (Except StorageError (List String))
  /-- None when nothing is found there. -/
  kind? : Path → m (Option FileKind)
  size : Path → m (Except StorageError Nat)
  /-- Writes a temporary file in a directory and moves it to a path. -/
  replace : Path → Path → ByteArray → m (Except TransferError Unit)
  overwrite : Path → List (Nat × ByteArray) → m (Except StorageError Unit)

namespace Storage

variable {m : Type → Type} [Monad m]

def orFail {ε α : Type} (error : ε → DiskError) (request : m (Except ε α)) :
    ExceptT Failure m α := do
  match ← request with
  | .ok a => return a
  | .error e => fail (error e)

end Storage

/-- What every storage promises: a request that only looks leaves it as it is, and a refused move
leaves no temporary file behind. -/
class LawfulStorage (σ : Type) [Storage (StateM σ)] : Prop where
  read_keeps (p : Path) (s : σ) : ((Storage.read p : StateM σ _) s).2 = s
  names_keeps (p : Path) (s : σ) : ((Storage.names p : StateM σ _) s).2 = s
  kind?_keeps (p : Path) (s : σ) : ((Storage.kind? p : StateM σ _) s).2 = s
  size_keeps (p : Path) (s : σ) : ((Storage.size p : StateM σ _) s).2 = s
  replace_error {scratch p : Path} {contents : ByteArray} {s t : σ} {e : TransferError}
    (h : (Storage.replace scratch p contents : StateM σ _) s = (.error e, t)) : t = s

def readInput {m : Type → Type} [Monad m] [Storage m] (path : Path) : ExceptT Failure m ByteArray :=
  Storage.orFail (.unreadableInput path) (Storage.read path)

end BootDisk
