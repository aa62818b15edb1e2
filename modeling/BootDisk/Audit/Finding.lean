import BootDisk.Geometry
import BootDisk.Text.Utf8

set_option autoImplicit false

/-! # What an audit of a volume can find -/
namespace BootDisk

/-- A finding that makes a volume invalid. -/
inductive Defect where
  | jump (b₀ b₁ b₂ : UInt8)
  | signature (b₀ b₁ : UInt8)
  | systemType (bytes : List UInt8)
  | imageSize (size : Nat) (g : Geometry)
  | tableCopy (copy : Nat)
  | reservedEntries (b₀ b₁ b₂ media : UInt8)
  | duplicateName (name : String)
  | startCluster (name : String) (cluster : Nat)
  | chainLength (name : String) (held size needed : Nat)
  | chainEnd (name : String) (cluster value : Nat)
  | pastData (name : String) (cluster : Nat)
  | crossLinked (name : String) (cluster : Nat)
deriving DecidableEq, Repr

def Defect.message : Defect → String
  | jump b₀ b₁ b₂ =>
    let bytes := s!"{Text.hexByte b₀} {Text.hexByte b₁} {Text.hexByte b₂}"
    s!"Invalid jump instruction: {bytes} (should start with EB or E9)"
  | signature b₀ b₁ =>
    s!"Invalid boot signature: {Text.hexByte b₀}{Text.hexByte b₁} (should be 55AA)"
  | systemType bytes =>
    s!"Filesystem type is '{String.ofList (Text.Utf8.decode bytes)}', expected 'FAT12   '"
  | imageSize size g =>
    s!"Image is {size} bytes but BPB describes {g.totalSectors} sectors ({g.imageSize} bytes)"
  | tableCopy copy => s!"FAT copy {copy} differs from FAT copy 0"
  | reservedEntries b₀ b₁ b₂ media =>
    let bytes := s!"{Text.hexByte b₀} {Text.hexByte b₁} {Text.hexByte b₂}"
    s!"Reserved FAT entries are {bytes}, expected {Text.hexByte media} FF FF"
  | duplicateName name => s!"Duplicate directory entry {name}"
  | startCluster name cluster => s!"{name} starts at invalid cluster {cluster}"
  | chainLength name held size needed =>
    s!"{name}: chain has {held} clusters, size {size} needs {needed}"
  | chainEnd name cluster value =>
    s!"{name}: chain ends at cluster {cluster} with value {Text.hex 3 value} " ++
      "instead of end-of-chain"
  | pastData name cluster => s!"{name}: cluster {cluster} is past the data region"
  | crossLinked name cluster => s!"{name}: cluster {cluster} is cross-linked"

inductive Warning where
  | extendedSignature (b : UInt8)
  | emptyWithCluster (name : String) (cluster : Nat)
deriving DecidableEq, Repr

def Warning.message : Warning → String
  | extendedSignature b => s!"No extended boot signature (found {Text.hex 2 b.toNat})"
  | emptyWithCluster name cluster => s!"{name} is empty but owns cluster {cluster}"

inductive Note where
  | layout (g : Geometry)
  | usage (records clusters : Nat)
deriving DecidableEq, Repr

def Note.message : Note → String
  | layout g =>
    s!"{g.totalSectors} sectors, {g.dataClusters} data clusters of {g.clusterSize} bytes, " ++
      s!"data starts at sector {g.dataStart}"
  | usage records clusters =>
    s!"{records} root directory entries, {clusters} clusters in use"

end BootDisk
