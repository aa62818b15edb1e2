import BootDisk.Install

set_option autoImplicit false

namespace BootDisk.CommandLine

def left (width : Nat) (s : String) : String :=
  s ++ String.ofList (.replicate (width - s.length) ' ')

def right (width : Nat) (s : String) : String := String.ofList (s.toList.leftpad width ' ')

def fileLine (p : Placement) : String :=
  let size := right 8 (toString p.size.toNat)
  s!"  {left 12 p.name} {size} bytes  clusters {p.extent.start}..={p.extent.last}\n"

def report (r : InstallReport) : String :=
  let path := match r.path with
    | some p => p.text
    | none => "(dry run, nothing written)"
  let start := r.partition.startSector.toNat
  s!"Image: {path}\n" ++
    s!"  Sectors: {r.totalSectors}\n" ++
    s!"  Partition: start LBA {start}, {r.partition.sectorCount.toNat} sectors\n" ++
    s!"  Clusters: {r.clustersUsed} used, {r.clustersFree} free\n\n" ++
    String.join (r.files.map fileLine)

def indented (first next : String) (text : String) : String :=
  first ++ ("\n" ++ next).intercalate (text.splitOn "\n")

def causeLines : List String → String
  | [] => ""
  | [cause] => "\n\nCaused by:\n" ++ indented "    " "    " cause
  | causes => "\n\nCaused by:\n" ++ "\n".intercalate (causes.mapIdx fun i cause =>
      indented (right 5 (toString i) ++ ": ") "       " cause)

def failureReport (message : String) (causes : List String) : String :=
  s!"Error: {message}{causeLines causes}\n"

end BootDisk.CommandLine
