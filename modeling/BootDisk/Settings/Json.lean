import BootDisk.Json.Printer
import BootDisk.Json.Shape
import BootDisk.Settings

set_option autoImplicit false

namespace BootDisk.Settings

def fields : List (Json.Shape.Field Settings) := [
  ⟨"volume_label", fun s => return { s with label := ← Json.Shape.text }⟩,
  ⟨"volume_serial", fun s => return { s with serial := ← Json.Shape.word32 }⟩,
  ⟨"partition_start", fun s => return { s with partitionStart := ← Json.Shape.word32 }⟩,
  ⟨"verify_after_build", fun s => return { s with verify := ← Json.Shape.bool }⟩]

def reader : Json.Reader Settings := Json.Shape.record fields {} some

def ofJson (text : String) : Except Json.Problem Settings := reader.run text

def toJson (s : Settings) : String :=
  String.ofList (Json.Printer.object [
    ("volume_label", Json.Printer.text s.label),
    ("volume_serial", Json.Printer.natural s.serial.toNat),
    ("partition_start", Json.Printer.natural s.partitionStart.toNat),
    ("verify_after_build", Json.Printer.bool s.verify)])

end BootDisk.Settings
