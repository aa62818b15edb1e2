import BootDisk.Bytes
import BootDisk.CommandLine.Run

set_option autoImplicit false

namespace BootDisk.Main

/-- Some requests report the number of an error with its sign changed. -/
def errorNumber (code : UInt32) : UInt32 := if code < 0x80000000 then code else 0 - code

def refusal : IO.Error → StorageError
  | .noFileOrDirectory .. => .notFound
  | .resourceBusy .. => .busy
  | .inappropriateType _ code details =>
    match errorNumber code with
    | 20 => .notADirectory
    | 21 => .isADirectory
    | _ => .other details
  | .invalidArgument _ code details =>
    match errorNumber code with
    | 22 => .invalidArgument
    | 36 => .nameTooLong
    | _ => .other details
  | e => .other (toString e)

def attempt {α : Type} (p : Path) (action : IO α) : IO (Except StorageError α) := do
  if p.text.isEmpty then return .error .notFound
  if p.hasNul then return .error .nulInPath
  try return .ok (← action) catch e => return .error (refusal e)

def kind? (p : Path) : IO (Option FileKind) := do
  let found ← attempt p do return (← ((← IO.currentDir) / p.text).metadata).type
  return match found with
    | .ok .file => some .file
    | .ok .dir => some .directory
    | _ => none

def scratchLetter (n : Nat) : Char :=
  if n < 10 then Char.ofNat (0x30 + n)
  else if n < 36 then Char.ofNat (0x41 + (n - 10))
  else Char.ofNat (0x61 + (n - 36))

def scratchFile (directory : Path) : IO Path := do
  let home : Path := ⟨(← IO.currentDir).toString⟩
  let letters ← (List.replicate 6 61).mapM fun last => return scratchLetter (← IO.rand 0 last)
  return (home.join directory).join ⟨".tmp" ++ String.ofList letters⟩

def create (p : Path) (contents : ByteArray) : IO Unit :=
  IO.FS.withFile p.text .writeNew fun h => h.write contents

def move (old new : Path) : IO (Except StorageError Unit) :=
  if new.hasNul then return .error .invalidArgument
  else attempt new (IO.FS.rename old.text new.text)

def replace (directory p : Path) (contents : ByteArray) : IO (Except TransferError Unit) := do
  let scratch ← scratchFile directory
  match ← attempt scratch (create scratch contents) with
  | .error e => return .error (.scratch e)
  | .ok () =>
    match ← move scratch p with
    | .ok () => return .ok ()
    | .error e =>
      discard (attempt scratch (IO.FS.removeFile scratch.text))
      return .error (.storage e)

def overwrite (p : Path) (pieces : List (Nat × ByteArray)) : IO (Except StorageError Unit) :=
  attempt p do
    let old ← IO.FS.readBinFile p.text
    let new := pieces.foldl (fun b piece => Bytes.writeAt b piece.1 piece.2) old
    IO.FS.withFile p.text .readWrite fun h => do
      h.write new
      h.flush

instance : Storage IO where
  read p := attempt p (IO.FS.readBinFile p.text)
  names p := attempt p do
    return (← ((← IO.currentDir) / p.text).readDir).toList.map (·.fileName)
  kind? := kind?
  size p := attempt p do return (← ((← IO.currentDir) / p.text).metadata).byteSize.toNat
  replace := replace
  overwrite := overwrite

end BootDisk.Main

def main (arguments : List String) : IO UInt32 := do
  let exit := (← BootDisk.CommandLine.run arguments : BootDisk.CommandLine.Ending).exit
  IO.print exit.output
  IO.eprint exit.errors
  return UInt32.ofNat exit.code
