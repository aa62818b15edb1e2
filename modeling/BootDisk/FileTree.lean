import BootDisk.Bytes
import BootDisk.FileTree.Nodes

set_option autoImplicit false

/-!
# File trees

All files and directories of a system, as a value, with the place of the working directory. Whatever
stands in a tree has a name in a directory. An absolute path starts at the root and any other path at
the working directory; no segment leads above the root.
-/
namespace BootDisk

/-! ## Names -/

namespace FileTree

def maxPathBytes : Nat := 4095

def maxNameBytes : Nat := 255

def isLongName (name : String) : Bool := maxNameBytes < name.utf8ByteSize

/-- A segment that can name an entry of a directory. -/
structure PlainName (name : String) : Prop where
  nonempty : name ≠ ""
  here : name ≠ "."
  up : name ≠ ".."
  short : isLongName name = false

instance (name : String) : Decidable (PlainName name) :=
  decidable_of_iff (name ≠ "" ∧ name ≠ "." ∧ name ≠ ".." ∧ isLongName name = false)
    ⟨fun ⟨nonempty, here, up, short⟩ => ⟨nonempty, here, up, short⟩,
      fun h => ⟨h.nonempty, h.here, h.up, h.short⟩⟩

structure EntryName (name : String) : Prop extends PlainName name where
  single : Path.separator ∉ name.toList
  clean : Path.hasNul ⟨name⟩ = false

instance (name : String) : Decidable (EntryName name) :=
  decidable_of_iff (PlainName name ∧ Path.separator ∉ name.toList ∧ Path.hasNul ⟨name⟩ = false)
    ⟨fun ⟨plain, single, clean⟩ => ⟨plain, single, clean⟩, fun h => ⟨h.toPlainName, h.single, h.clean⟩⟩

end FileTree

structure FileTree where
  nodes : Nodes
  /-- The place of the working directory. -/
  home : List String
  /-- The size that the directory at a place is said to have. -/
  directorySize : List String → Nat
  distinct : (nodes.map Prod.fst).Nodup
  sound : ∀ place name, nodes.at? (place ++ [name]) ≠ none →
    FileTree.EntryName name ∧ nodes.at? place = some .directory
  settled : nodes.at? home = some .directory

namespace FileTree

def node? (t : FileTree) (place : List String) : Option Node := t.nodes.at? place

def kindAt? (t : FileTree) (place : List String) : Option FileKind := (t.node? place).map Node.kind

theorem kindAt?_eq_directory_iff {t : FileTree} {place : List String} :
    t.kindAt? place = some .directory ↔ t.node? place = some .directory :=
  Node.kind_eq_directory_iff

/-! ## Making trees -/

/-- A node can be put at the place: it has a name in a directory, and it is no directory itself. -/
structure Open (t : FileTree) (place : List String) : Prop where
  way : ∃ directory name, place = directory ++ [name] ∧ EntryName name ∧
    t.kindAt? directory = some .directory
  vacant : t.kindAt? place ≠ some .directory

theorem open_iff {t : FileTree} {place : List String} :
    (place ≠ [] ∧ EntryName (place.getLast?.getD "") ∧ t.kindAt? place.dropLast = some .directory ∧
      t.kindAt? place ≠ some .directory) ↔ t.Open place := by
  constructor
  · rintro ⟨named, entry, parent, vacant⟩
    refine ⟨⟨place.dropLast, place.getLast named, (List.dropLast_concat_getLast named).symm, ?_,
      parent⟩, vacant⟩
    rwa [List.getLast?_eq_some_getLast named] at entry
  · rintro ⟨⟨directory, name, rfl, entry, parent⟩, vacant⟩
    refine ⟨by simp, ?_, ?_, vacant⟩
    · rwa [List.getLast?_concat]
    · rwa [List.dropLast_concat]

instance (t : FileTree) (place : List String) : Decidable (t.Open place) :=
  decidable_of_iff _ open_iff

section Open
variable {t : FileTree} {place : List String} (isOpen : t.Open place) (n : Node)
include isOpen

theorem Open.named : place ≠ [] := by
  obtain ⟨directory, name, rfl, _⟩ := isOpen.way
  simp

theorem Open.directory_put {q : List String} (directory : t.nodes.at? q = some .directory) :
    (t.nodes.put place n).at? q = some .directory := by
  rw [Nodes.at?_put n isOpen.named, if_neg, directory]
  rintro rfl
  exact isOpen.vacant (kindAt?_eq_directory_iff.2 directory)

theorem Open.sound_put (q : List String) (name : String)
    (present : (t.nodes.put place n).at? (q ++ [name]) ≠ none) :
    EntryName name ∧ (t.nodes.put place n).at? q = some .directory := by
  rw [Nodes.at?_put n isOpen.named] at present
  by_cases here : q ++ [name] = place
  · obtain ⟨directory, last, same, entry, parent⟩ := isOpen.way
    obtain ⟨rfl, one⟩ := List.append_inj' (here.trans same) rfl
    obtain ⟨rfl, -⟩ := List.cons.inj one
    exact ⟨entry, isOpen.directory_put n (kindAt?_eq_directory_iff.1 parent)⟩
  · rw [if_neg here] at present
    obtain ⟨entry, directory⟩ := t.sound q name present
    exact ⟨entry, isOpen.directory_put n directory⟩

end Open

/-- Puts a node at a place, in the place of what stood there. A tree has none at a place that is not
open. -/
def put (t : FileTree) (place : List String) (n : Node) : FileTree :=
  if isOpen : t.Open place then
    { t with
      nodes := t.nodes.put place n
      distinct := Nodes.distinct_put n t.distinct
      sound := isOpen.sound_put n
      settled := isOpen.directory_put n t.settled }
  else t

def children (t : FileTree) (place : List String) : List String :=
  t.nodes.filterMap fun e => if e.1.dropLast = place then e.1.getLast? else none

/-- What stands below the working directory, with the places from there. -/
def entries (t : FileTree) : Nodes :=
  t.nodes.filterMap fun e =>
    if t.home.isPrefixOf e.1 && e.1 ≠ t.home then some (e.1.drop t.home.length, e.2) else none

/-- Puts directories on the way to a place below the working directory where nothing stands yet. -/
def makeDirectories (t : FileTree) (place : List String) : FileTree :=
  (List.range place.length).foldl (fun u n =>
    let spot := t.home ++ place.take (n + 1)
    if (u.node? spot).isNone then u.put spot .directory else u) t

def addFile (t : FileTree) (place : List String) (contents : ByteArray) : FileTree :=
  (t.makeDirectories place.dropLast).put (t.home ++ place) (.file contents)

def root (directorySize : List String → Nat) : FileTree where
  nodes := []
  home := []
  directorySize := directorySize
  distinct := List.nodup_nil
  sound := by
    intro place name present
    simp [Nodes.at?] at present
  settled := rfl

/-- The tree with another working directory, if there is a directory. -/
def settle (t : FileTree) (place : List String) : FileTree :=
  if directory : t.kindAt? place = some .directory then
    { t with home := place, settled := kindAt?_eq_directory_iff.1 directory }
  else t

def fresh (home : List String) : FileTree := ((root fun _ => 4096).makeDirectories home).settle home

def empty : FileTree := fresh ["tmp", ".tmp000000"]

/-! ## Looking up paths -/

/-- Where a segment leads from a directory. A name is checked when it is looked up. -/
def enter (t : FileTree) (place : List String) (segment : String) :
    Except StorageError (List String) :=
  if segment = "" ∨ segment = "." then .ok place
  else if segment = ".." then .ok place.dropLast
  else if isLongName segment then .error .nameTooLong
  else if (t.node? (place ++ [segment])).isNone then .error .notFound
  else .ok (place ++ [segment])

/-- Follows segments from a place. Every place but the last has to be a directory. -/
def follow (t : FileTree) : List String → List String → Except StorageError (List String)
  | place, [] => .ok place
  | place, segment :: rest =>
    if t.kindAt? place ≠ some .directory then .error .notADirectory
    else t.enter place segment >>= fun next => t.follow next rest

def origin (t : FileTree) (p : Path) : List String := if p.isAbsolute then [] else t.home

/-- What is wrong with the text of a path, whatever the tree holds. -/
def checkText (p : Path) : Except StorageError Unit :=
  if p.hasNul then .error .nulInPath
  else if p.text.isEmpty then .error .notFound
  else if maxPathBytes < p.text.utf8ByteSize then .error .nameTooLong
  else .ok ()

def locate (t : FileTree) (p : Path) : Except StorageError (List String) := do
  checkText p
  t.follow (t.origin p) p.segments

def file (t : FileTree) (p : Path) : Except StorageError (List String × ByteArray) := do
  let place ← t.locate p
  match t.node? place with
  | some (.file contents) => return (place, contents)
  | _ => throw .isADirectory

def read (t : FileTree) (p : Path) : Except StorageError ByteArray := Prod.snd <$> t.file p

def names (t : FileTree) (p : Path) : Except StorageError (List String) := do
  let place ← t.locate p
  match t.node? place with
  | some .directory => return t.children place
  | _ => throw .notADirectory

def kind? (t : FileTree) (p : Path) : Option FileKind :=
  match t.locate p with
  | .ok place => t.kindAt? place
  | .error _ => none

def size (t : FileTree) (p : Path) : Except StorageError Nat := do
  let place ← t.locate p
  match t.node? place with
  | some (.file contents) => return contents.size
  | _ => return t.directorySize place

/-! ## Writing -/

/-- What a name in the directory before it stands for, when a file is moved there. -/
def land (t : FileTree) (directory : List String) (name : String) (slashes : List String) :
    Except StorageError (List String) :=
  if t.kindAt? directory ≠ some .directory then .error .notADirectory
  else if name = "." ∨ name = ".." then .error .busy
  else if isLongName name then .error .nameTooLong
  else if !slashes.isEmpty then .error .notADirectory
  else if t.kindAt? (directory ++ [name]) = some .directory then .error .isADirectory
  else .ok (directory ++ [name])

def arrive (t : FileTree) (place : List String) (fromEnd : List String) :
    Except StorageError (List String) :=
  let slashes := fromEnd.takeWhile (· == "")
  match fromEnd.drop slashes.length with
  | [] => .error .busy
  | name :: before =>
    t.follow place before.reverse >>= fun directory => t.land directory name slashes

/-- Where a file moved to a path would stand. The path has to end in a plain name. -/
def destination (t : FileTree) (p : Path) : Except StorageError (List String) := do
  if p.hasNul then throw .invalidArgument
  checkText p
  t.arrive (t.origin p) p.segments.reverse

def homePath (t : FileTree) : Path :=
  ⟨String.ofList (Path.separator :: List.intercalate [Path.separator] (t.home.map String.toList))⟩

/-- The absolute path of a temporary file in a directory, as far as its length goes. -/
def scratchFile (t : FileTree) (directory : Path) : Path :=
  (t.homePath.join directory).join ⟨".tmp000000"⟩

def workshop (t : FileTree) (directory : Path) : Except StorageError (List String) := do
  checkText (t.scratchFile directory)
  let place ← t.locate directory
  if t.kindAt? place ≠ some .directory then throw .notADirectory
  return place

/-- The tree with a file moved to a path from a temporary one in the directory `scratch`. -/
def replace (t : FileTree) (scratch p : Path) (contents : ByteArray) :
    Except TransferError FileTree := do
  if let .error e := t.workshop scratch then throw (.scratch e)
  match t.destination p with
  | .error e => throw (.storage e)
  | .ok place => return t.put place (.file contents)

def overwrite (t : FileTree) (p : Path) (pieces : List (Nat × ByteArray)) :
    Except StorageError FileTree := do
  let (place, contents) ← t.file p
  let new := pieces.foldl (fun b piece => Bytes.writeAt b piece.1 piece.2) contents
  return t.put place (.file new)

def change {ε : Type} (request : FileTree → Except ε FileTree) : StateM FileTree (Except ε Unit) :=
  fun t => match request t with
    | .ok t => (.ok (), t)
    | .error e => (.error e, t)

instance : Storage (StateM FileTree) where
  read p := return (← get).read p
  names p := return (← get).names p
  kind? p := return (← get).kind? p
  size p := return (← get).size p
  replace scratch p contents := change fun t => t.replace scratch p contents
  overwrite p pieces := change fun t => t.overwrite p pieces

theorem change_error {ε : Type} {request : FileTree → Except ε FileTree} {t u : FileTree} {e : ε}
    (h : change request t = (.error e, u)) : u = t := by
  unfold change at h
  split at h
  · cases h
  · cases h
    rfl

instance : LawfulStorage FileTree where
  read_keeps _ _ := rfl
  names_keeps _ _ := rfl
  kind?_keeps _ _ := rfl
  size_keeps _ _ := rfl
  replace_error h := change_error h

end FileTree

end BootDisk
