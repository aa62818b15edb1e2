import BootDisk.Json.Printer
import BootDisk.Json.Shape
import BootDisk.Settings
import BootDisk.SourceFile
import BootDisk.Storage

set_option autoImplicit false

namespace BootDisk

structure ManifestEntry where
  name : String
  ext : String
  path : Path
deriving DecidableEq, Repr

structure Manifest where
  files : List ManifestEntry
  label : Option String := none
  serial : Option UInt32 := none
  /-- Where relative paths start; not part of the text. -/
  base : Path := ⟨""⟩
deriving DecidableEq, Repr

namespace ManifestEntry

structure Draft where
  name : Option String := none
  ext : String := ""
  path : Option String := none

def Draft.finish (d : Draft) : Option ManifestEntry :=
  return ⟨← d.name, d.ext, ⟨← d.path⟩⟩

def fields : List (Json.Shape.Field Draft) := [
  ⟨"name", fun d => return { d with name := some (← Json.Shape.text) }⟩,
  ⟨"ext", fun d => return { d with ext := ← Json.Shape.text }⟩,
  ⟨"path", fun d => return { d with path := some (← Json.Shape.text) }⟩]

def reader : Json.Reader ManifestEntry := Json.Shape.record fields {} Draft.finish

def json (e : ManifestEntry) : List Char :=
  Json.Printer.object [
    ("name", Json.Printer.text e.name),
    ("ext", Json.Printer.text e.ext),
    ("path", Json.Printer.text e.path.text)]

end ManifestEntry

namespace Manifest

structure Draft where
  files : Option (List ManifestEntry) := none
  label : Option String := none
  serial : Option UInt32 := none

def Draft.finish (d : Draft) : Option Manifest :=
  d.files.map fun files => { files, label := d.label, serial := d.serial }

def fields : List (Json.Shape.Field Draft) := [
  ⟨"files", fun d => return { d with files := some (← Json.Shape.list ManifestEntry.reader) }⟩,
  ⟨"label", fun d => return { d with label := ← Json.Shape.optional Json.Shape.text }⟩,
  ⟨"serial", fun d => return { d with serial := ← Json.Shape.optional Json.Shape.word32 }⟩]

def reader : Json.Reader Manifest := Json.Shape.record fields {} Draft.finish

def ofJson (text : String) : Except Json.Problem Manifest := reader.run text

def toJson (m : Manifest) : String :=
  String.ofList (Json.Printer.object [
    ("files", Json.Printer.list (m.files.map ManifestEntry.json)),
    ("label", Json.Printer.optional Json.Printer.text m.label),
    ("serial", Json.Printer.optional (fun n => Json.Printer.natural n.toNat) m.serial)])

/-- The settings with the label and the serial of the manifest, where it has them. -/
def applyTo (m : Manifest) (s : Settings) : Settings :=
  { s with label := m.label.getD s.label, serial := m.serial.getD s.serial }

variable {m : Type → Type} [Monad m] [Storage m]

def load (path : Path) : ExceptT Failure m Manifest := do
  let bytes ← readInput path
  let some text := String.fromUTF8? bytes | fail (.unreadableInput path .invalidText)
  match ofJson text with
  | .error p => fail (.manifest p)
  | .ok manifest => return { manifest with base := path.parent?.getD ⟨""⟩ }

def readFiles (manifest : Manifest) : ExceptT Failure m (List SourceFile) :=
  manifest.files.mapM fun e => return ⟨e.name, e.ext, ← readInput (manifest.base.join e.path)⟩

end Manifest

end BootDisk
