import BootDisk.CommandLine.Terminal
import BootDisk.Path
import BootDisk.Serial

set_option autoImplicit false

/-!
# Command line arguments

Arguments are taken from left to right. An option may get its value in the next argument; it is
checked when the next known argument or the end is met, so an unknown argument in between is
reported first.
-/
namespace BootDisk.CommandLine

structure Invocation where
  bootLoader : Path
  image : Path
  root : Path := ⟨"."⟩
  manifest : Option Path := none
  label : Option String := none
  serial : Option UInt32 := none
  verify : Bool := false
  dryRun : Bool := false
  verbosity : Nat := 0
deriving DecidableEq, Repr

inductive UsageError where
  | unknown (argument : String)
  | repeated (option : String)
  | noValue (option : String)
  | unwantedValue (option value : String)
  | invalidSerial (text : String) (e : SerialError)
  | missing
deriving DecidableEq, Repr

/-- A text for a terminal. What the user gave is in the style of a rejected text, and what can be
typed in that of a literal one. -/
def UsageError.message : UsageError → String
  | unknown argument => s!"unexpected argument {rejected argument} found"
  | repeated option => s!"the argument {literal option} cannot be used multiple times"
  | noValue option => s!"a value is required for {literal option} but none was supplied"
  | unwantedValue option value =>
    s!"unexpected value {rejected value} for {literal option} found; no more were expected"
  | invalidSerial text e =>
    s!"invalid value {rejected text} for {literal serial}: {Serial.refusal text e}"
  | missing => "the following required arguments were not provided: <BOOT_LOADER> <IMAGE>"
where
  rejected (text : String) : String := Terminal.Style.rejected.quote text
  literal (text : String) : String := Terminal.Style.literal.quote text
  serial : String := "--serial <SERIAL>"

def UsageError.report (e : UsageError) : String :=
  let heading := Terminal.Style.heading.apply "error:"
  let help := Terminal.Style.literal.quote "--help"
  s!"{heading} {e.message}\n\nFor more information, try {help}.\n"

inductive Stop where
  | help
  | usage (e : UsageError)
deriving DecidableEq, Repr

namespace Arguments

inductive Slot where
  | bootLoader
  | image
  | root
  | manifest
  | label
  | serial
deriving DecidableEq, Repr

inductive Flag where
  | verify
  | dryRun
  | verbose
  | help
deriving DecidableEq, Repr

def Slot.name : Slot → String
  | bootLoader => "<BOOT_LOADER>"
  | image => "<IMAGE>"
  | root => "--root <ROOT>"
  | manifest => "--manifest <MANIFEST>"
  | label => "--label <LABEL>"
  | serial => "--serial <SERIAL>"

def Flag.name : Flag → String
  | verify => "--verify"
  | dryRun => "--dry-run"
  | verbose => "--verbose"
  | help => "--help"

def long? : String → Option (Slot ⊕ Flag)
  | "root" => some (.inl .root)
  | "manifest" => some (.inl .manifest)
  | "label" => some (.inl .label)
  | "serial" => some (.inl .serial)
  | "verify" => some (.inr .verify)
  | "dry-run" => some (.inr .dryRun)
  | "verbose" => some (.inr .verbose)
  | "help" => some (.inr .help)
  | _ => none

def short? : Char → Option (Slot ⊕ Flag)
  | 'm' => some (.inl .manifest)
  | 'v' => some (.inr .verbose)
  | 'h' => some (.inr .help)
  | _ => none

/-- What has been read so far. `awaiting` is an option or a positional whose value, if it has come,
has not been checked yet. -/
structure State where
  bootLoader : Option Path := none
  image : Option Path := none
  root : Option Path := none
  manifest : Option Path := none
  label : Option String := none
  serial : Option UInt32 := none
  verify : Bool := false
  dryRun : Bool := false
  verbosity : Nat := 0
  positionals : Nat := 0
  awaiting : Option (Slot × Option String) := none

abbrev Reading := Except Stop State

def refuse (e : UsageError) : Reading := .error (.usage e)

def path (slot : Slot) (old : Option Path) (text : String) (put : Path → State) : Reading :=
  if old.isSome then refuse (.repeated slot.name)
  else if text.isEmpty then refuse (.noValue slot.name)
  else .ok (put ⟨text⟩)

def store (s : State) (slot : Slot) (text : String) : Reading :=
  match slot with
  | .bootLoader => path slot s.bootLoader text fun p => { s with bootLoader := some p }
  | .image => path slot s.image text fun p => { s with image := some p }
  | .root => path slot s.root text fun p => { s with root := some p }
  | .manifest => path slot s.manifest text fun p => { s with manifest := some p }
  | .label =>
    if s.label.isSome then refuse (.repeated slot.name) else .ok { s with label := some text }
  | .serial =>
    if s.serial.isSome then refuse (.repeated slot.name)
    else match Serial.parse text with
      | .ok n => .ok { s with serial := some n }
      | .error e => refuse (.invalidSerial text e)

def settle (s : State) : Reading :=
  match s.awaiting with
  | none => .ok s
  | some (slot, value) =>
    match value with
    | none => refuse (.noValue slot.name)
    | some text => store { s with awaiting := none } slot text

def raise (s : State) (flag : Flag) : Reading := do
  let s ← settle s
  match flag with
  | .verify => if s.verify then refuse (.repeated flag.name) else .ok { s with verify := true }
  | .dryRun => if s.dryRun then refuse (.repeated flag.name) else .ok { s with dryRun := true }
  | .verbose => .ok { s with verbosity := s.verbosity + 1 }
  | .help => .error .help

def option (s : State) (slot : Slot) : Option String → Reading
  | some text => do store (← settle s) slot text
  | none => do
    let s ← settle s
    .ok { s with awaiting := some (slot, none) }

def cut (s : List Char) : String × Option String :=
  let name := s.takeWhile (· ≠ '=')
  (String.ofList name, match s.drop name.length with
    | [] => none
    | _ :: value => some (String.ofList value))

/-- An unknown option is named without the value that came with it. -/
def long (s : State) (body : List Char) : Reading :=
  let (name, value) := cut body
  match long? name with
  | none => refuse (.unknown ("--" ++ name))
  | some (.inl slot) => option s slot value
  | some (.inr flag) =>
    match value with
    | some text => refuse (.unwantedValue flag.name text)
    | none => raise s flag

/-- The letters behind a single dash. A letter that takes a value takes the rest as its value. -/
def letters : State → List Char → Reading
  | s, [] => .ok s
  | s, c :: rest =>
    match short? c with
    | none => refuse (.unknown (String.ofList ['-', c]))
    | some (.inr flag) => do letters (← raise s flag) rest
    | some (.inl slot) =>
      option s slot (match rest with
        | [] => none
        | '=' :: value => some (String.ofList value)
        | value => some (String.ofList value))

def positional (s : State) (text : String) : Reading :=
  match s.positionals with
  | 0 => next .bootLoader
  | 1 => next .image
  | _ => refuse (.unknown text)
where
  next (slot : Slot) : Reading := do
    let s ← settle s
    .ok { s with positionals := s.positionals + 1, awaiting := some (slot, some text) }

def plain (s : State) (text : String) : Reading :=
  match s.awaiting with
  | some (slot, none) => .ok { s with awaiting := some (slot, some text) }
  | _ => positional s text

/-- Behind a double dash all arguments are positional. -/
def readAll : Bool → State → List String → Reading
  | _, s, [] => settle s
  | true, s, text :: rest => do readAll true (← positional s text) rest
  | false, s, text :: rest =>
    match text.toList with
    | ['-', '-'] => readAll true s rest
    | '-' :: '-' :: body => do readAll false (← long s body) rest
    | ['-'] => do readAll false (← plain s text) rest
    | '-' :: body => do readAll false (← letters s body) rest
    | _ => do readAll false (← plain s text) rest

end Arguments

def parse (arguments : List String) : Except Stop Invocation := do
  let s ← Arguments.readAll false {} arguments
  match s.bootLoader, s.image with
  | some bootLoader, some image => return {
      bootLoader, image
      root := s.root.getD ⟨"."⟩
      manifest := s.manifest
      label := s.label
      serial := s.serial
      verify := s.verify
      dryRun := s.dryRun
      verbosity := s.verbosity }
  | _, _ => throw (.usage .missing)

end BootDisk.CommandLine
