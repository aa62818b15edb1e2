import BootDisk.Extent

set_option autoImplicit false

namespace BootDisk

structure Allocator where
  next : Nat
  maxCluster : Nat
  clusterSize : Nat
deriving DecidableEq, Repr

namespace Allocator

def ofGeometry (g : Geometry) : Outcome Allocator := do
  return ⟨Geometry.firstCluster, ← Geometry.Checked.maxCluster g, g.clusterSize⟩

def remaining (a : Allocator) : Nat := a.maxCluster + 1 - a.next

def used (a : Allocator) : Nat := a.next - Geometry.firstCluster

def allocate (file : String) (size : Nat) : Step Allocator Extent := do
  if size = 0 then fail (.emptyFile file)
  let a ← get
  let needed ← Checked.clustersNeeded size a.clusterSize
  if a.remaining < needed then
    fail (.capacityExceeded file needed a.remaining)
  set { a with next := a.next + needed }
  return ⟨a.next, needed⟩

end Allocator

end BootDisk
