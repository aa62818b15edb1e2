import Std.Data.HashSet
import BootDisk.Audit.Finding
import BootDisk.Volume

set_option autoImplicit false

/-!
# Auditing a volume

The boot sector, the copies of the table, and the chain of every record are checked. The audit goes
on after a defect, so that one run lists all of them.
-/
namespace BootDisk

structure Audit where
  defects : List Defect
  warnings : List Warning
  notes : List Note
deriving DecidableEq, Repr

namespace Audit

def isValid (a : Audit) : Bool := a.defects.isEmpty

def require (a : Audit) : Outcome Audit :=
  if a.isValid then pure a
  else fail (.verification ("; ".intercalate (a.defects.map Defect.message)))

def bootSector (v : Volume) : Outcome (List Defect × List Warning) := do
  let sector := v.bootSector
  let byte := BootSector.byte sector
  let b₀ ← byte 0
  let b₁ ← byte 1
  let b₂ ← byte 2
  let s₀ ← byte BootSector.Offset.signature
  let s₁ ← byte (BootSector.Offset.signature + 1)
  let extended ← byte BootSector.Offset.extendedSignature
  let type ← orFault .outOfBounds (Bytes.slice? sector BootSector.Offset.systemType 8)
  let type := Bytes.toList type
  return (
    (if b₀ = 0xeb ∨ b₀ = 0xe9 then [] else [Defect.jump b₀ b₁ b₂]) ++
    (if [s₀, s₁] = BootSector.signature then [] else [.signature s₀ s₁]) ++
    (if type = BootSector.systemType then [] else [.systemType type]) ++
    (if v.geometry.imageSize = v.image.size then [] else [.imageSize v.image.size v.geometry]),
    if extended = BootSector.extendedSignature then [] else [.extendedSignature extended])

/-- The copies from number `copy` on that differ from the first one. -/
def differingCopies (v : Volume) (first : ByteArray) : Nat → Nat → Outcome (List Defect)
  | 0, _ => pure []
  | left + 1, copy => do
    let bytes ← v.tableCopy copy
    let rest ← differingCopies v first left (copy + 1)
    return if bytes.data = first.data then rest else .tableCopy copy :: rest

def tables (v : Volume) : Outcome (List Defect) := do
  let first ← v.tableCopy 0
  let copies ← differingCopies v first (v.geometry.tableCount.toNat - 1) 1
  let media ← BootSector.byte v.bootSector BootSector.Offset.media
  let b₀ ← orFault .outOfBounds (Bytes.byte? first 0)
  let b₁ ← orFault .outOfBounds (Bytes.byte? first 1)
  let b₂ ← orFault .outOfBounds (Bytes.byte? first 2)
  return copies ++
    if b₀ = media ∧ b₁ = 0xff ∧ b₂ = 0xff then [] else [.reservedEntries b₀ b₁ b₂ media]

/-- What is known after some records: the names and clusters met, and the findings. -/
structure Progress where
  names : Std.HashSet String := ∅
  claimed : Std.HashSet Nat := ∅
  defects : Array Defect := #[]
  warnings : Array Warning := #[]

namespace Progress

def defect (p : Progress) (d : Defect) : Progress := { p with defects := p.defects.push d }

def defectIf (p : Progress) (c : Prop) [Decidable c] (d : Defect) : Progress :=
  if c then p.defect d else p

def name (p : Progress) (name : String) : Progress :=
  let p := p.defectIf (name ∈ p.names) (.duplicateName name)
  { p with names := p.names.insert name }

def claim (name : String) (maxCluster : Nat) (p : Progress) (cluster : Nat) : Progress :=
  let p := p.defectIf (maxCluster < cluster) (.pastData name cluster)
  let p := p.defectIf (cluster ∈ p.claimed) (.crossLinked name cluster)
  { p with claimed := p.claimed.insert cluster }

end Progress

def chain (v : Volume) (name : String) (r : Record) (maxCluster : Nat) (p : Progress) :
    Outcome Progress := do
  let clusters := v.table.chain r.firstCluster.toNat
  let needed ← Checked.clustersNeeded r.size.toNat v.geometry.clusterSize
  let p := p.defectIf (clusters.length ≠ needed)
    (.chainLength name clusters.length r.size.toNat needed)
  let p := match clusters.getLast? with
    | none => p
    | some last =>
      let value := v.table.entry last
      p.defectIf (AllocationTable.isEndMark value = false) (.chainEnd name last value)
  return clusters.foldl (Progress.claim name maxCluster) p

def record (v : Volume) (p : Progress) (r : Record) : Outcome Progress := do
  let name := r.shortName
  let p := p.name name
  let start := r.firstCluster.toNat
  if r.size = 0 then
    return if start = 0 then p
      else { p with warnings := p.warnings.push (.emptyWithCluster name start) }
  let maxCluster ← Geometry.Checked.maxCluster v.geometry
  if start < Geometry.firstCluster ∨ maxCluster < start then
    return p.defect (.startCluster name start)
  chain v name r maxCluster p

/-- The findings on the boot sector, on the tables, and on the records in order. -/
def ofVolume (v : Volume) : Outcome Audit := do
  let (bootDefects, bootWarnings) ← bootSector v
  let tableDefects ← tables v
  let records ← v.records
  let p ← records.foldlM (record v) {}
  return {
    defects := bootDefects ++ tableDefects ++ p.defects.toList
    warnings := bootWarnings ++ p.warnings.toList
    notes := [.layout v.geometry, .usage records.length p.claimed.size] }

def ofImage (image : ByteArray) : Outcome Audit := do
  ofVolume (← Volume.mount image)

end Audit

end BootDisk
