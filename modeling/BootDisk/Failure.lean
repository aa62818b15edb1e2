import BootDisk.Json.Problem
import BootDisk.Path
import BootDisk.Text.Hexadecimal
import BootDisk.Text.Quoted

set_option autoImplicit false

/-!
# Failures

A failure is either an error, which has a cause and a text for the user, or a fault: an operation
outside its domain, such as a division by zero or an access past the end of a buffer. A fault says
that the caller broke a promise; an operation that cannot go wrong is one in which no fault arises.
-/
namespace BootDisk

inductive StorageError where
  | notFound
  | notADirectory
  | isADirectory
  | busy
  | nameTooLong
  | invalidArgument
  | nulInPath
  | invalidText
  | other (text : String)
deriving DecidableEq, Repr

def StorageError.message : StorageError → String
  | notFound => "No such file or directory (os error 2)"
  | notADirectory => "Not a directory (os error 20)"
  | isADirectory => "Is a directory (os error 21)"
  | busy => "Device or resource busy (os error 16)"
  | nameTooLong => "File name too long (os error 36)"
  | invalidArgument => "Invalid argument (os error 22)"
  | nulInPath => "file name contained an unexpected NUL byte"
  | invalidText => "stream did not contain valid UTF-8"
  | other text => text

inductive AccessError where
  | reserved (cluster : Nat)
  | pastEnd (start stop size : Nat)
  | tooLong (size count : Nat)
  | shortRun (count size : Nat)
  | shortChain (clusters held wanted : Nat)
deriving DecidableEq, Repr

def AccessError.message : AccessError → String
  | reserved cluster => s!"Cluster {cluster} is reserved"
  | pastEnd start stop size =>
    s!"Cluster range {Text.hex 1 start}..{Text.hex 1 stop} is past the end of a {size} byte image"
  | tooLong size count => s!"{size} bytes do not fit in {count} clusters"
  | shortRun count size => s!"Run of {count} clusters holds fewer than {size} bytes"
  | shortChain clusters held wanted =>
    s!"Chain of {clusters} clusters holds {held} of {wanted} bytes"

/-- A failed transfer of bytes. `scratch` is a storage error met while making the temporary file
beside an image. -/
inductive TransferError where
  | access (e : AccessError)
  | storage (e : StorageError)
  | scratch (e : StorageError)
deriving DecidableEq, Repr

def TransferError.message : TransferError → String
  | access e => e.message
  | storage e => e.message
  | scratch e => s!"{e.message} while making a temporary file"

inductive DiskError where
  | unreadableInput (path : Path) (cause : StorageError)
  | capacityExceeded (file : String) (needed available : Nat)
  | directoryFull (file : String) (capacity : Nat)
  | outOfSpace (file : String) (offset size : Nat)
  | emptyFile (file : String)
  | duplicateName (name : String)
  | invalidName (part : String)
  | invalidGeometry (reason : String)
  | bootLoaderTooSmall (size : Nat)
  | transfer (cause : TransferError)
  | manifest (cause : Json.Problem)
  | verification (reason : String)
deriving DecidableEq, Repr

namespace DiskError

def message : DiskError → String
  | unreadableInput path cause => s!"Cannot read input file {path.text}: {cause.message}"
  | capacityExceeded file needed available =>
    s!"Not enough clusters for {file}: needs {needed}, {available} left"
  | directoryFull file capacity =>
    s!"Root directory full: cannot add {file} (capacity {capacity} entries)"
  | outOfSpace file offset size =>
    s!"No space in image for {file}: {size} bytes at offset {Text.hex 1 offset}"
  | emptyFile file => s!"Zero-length file cannot be placed in the image: {file}"
  | duplicateName name => s!"Duplicate 8.3 name in root directory: {name}"
  | invalidName part => s!"Invalid 8.3 name: {Text.quoted part}"
  | invalidGeometry reason => s!"Invalid FAT12 geometry: {reason}"
  | bootLoaderTooSmall size => s!"Boot loader too small: {size} bytes (need at least 512)"
  | transfer cause => s!"IO error: {cause.message}"
  | manifest cause => s!"Manifest error: {cause.message}"
  | verification reason => s!"Image verification failed: {reason}"

def cause? : DiskError → Option String
  | unreadableInput _ cause => some cause.message
  | transfer cause => some cause.message
  | manifest cause => some cause.message
  | _ => none

end DiskError

inductive Fault where
  | zeroDivisor
  | belowZero
  | overflow
  | outOfBounds
  | tableEntry (n : Nat)
  | oversizedBuffer
deriving DecidableEq, Repr

def Fault.message : Fault → String
  | zeroDivisor => "division by zero"
  | belowZero => "difference below zero"
  | overflow => "number too large for its width"
  | outOfBounds => "access past the end of a buffer"
  | tableEntry n => s!"FAT12 entry {n} out of range"
  | oversizedBuffer => "buffer larger than the address space"

inductive Failure where
  | error (e : DiskError)
  | fault (f : Fault)
deriving DecidableEq, Repr

abbrev Outcome := Except Failure

/-- A step on a state. What it changed before it failed stays changed. -/
abbrev Step (σ : Type) := ExceptT Failure (StateM σ)

def fail {m : Type → Type} [MonadExcept Failure m] {α : Type} (e : DiskError) : m α :=
  throw (.error e)

def fault {m : Type → Type} [MonadExcept Failure m] {α : Type} (f : Fault) : m α :=
  throw (.fault f)

def orFault {α : Type} (f : Fault) : Option α → Outcome α
  | some a => .ok a
  | none => .error (.fault f)

def Step.within {σ τ α : Type} (part : σ → τ) (put : σ → τ → σ) (step : Step τ α) :
    Step σ α :=
  fun s => let (result, t) := step (part s); (result, put s t)

end BootDisk
