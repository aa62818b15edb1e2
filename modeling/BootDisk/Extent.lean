import BootDisk.Bytes
import BootDisk.Geometry

set_option autoImplicit false

/-!
# Extents

An extent is a run of consecutive clusters, and so one range of bytes in the data region. Reading
and writing check that the range lies in the data region and in the image before they touch it.
-/
namespace BootDisk

structure Extent where
  start : Nat
  count : Nat
deriving DecidableEq, Repr

/-- How many clusters hold `size` bytes, as a number of 32 bits. -/
def clustersNeeded (size clusterSize : Nat) : Nat :=
  (size + clusterSize - 1) / clusterSize % 0x100000000

def Checked.clustersNeeded (size clusterSize : Nat) : Outcome Nat :=
  if clusterSize = 0 then fault .zeroDivisor else pure (BootDisk.clustersNeeded size clusterSize)

namespace Extent

def clusters (e : Extent) : List Nat := List.range' e.start e.count

def last (e : Extent) : Nat := e.start + e.count - 1

def range (g : Geometry) (e : Extent) : Outcome (Nat × Nat) := do
  let start ← Geometry.Checked.clusterOffset g e.start
  return (start, start + e.count * g.clusterSize)

/-- The range, checked against the data region and an image of `size` bytes. -/
def rangeWithin (size : Nat) (g : Geometry) (e : Extent) : Outcome (Nat × Nat) := do
  if e.start < Geometry.firstCluster then
    fail (.transfer (.access (.reserved e.start)))
  let (start, stop) ← e.range g
  if size < stop then
    fail (.transfer (.access (.pastEnd start stop size)))
  return (start, stop)

def copy (g : Geometry) (e : Extent) (data : ByteArray) : Step ByteArray Unit := do
  let image ← get
  let (start, stop) ← e.rangeWithin image.size g
  if stop - start < data.size then
    fail (.transfer (.access (.tooLong data.size e.count)))
  set (← orFault .outOfBounds (Bytes.splice? image start data))

def read (image : ByteArray) (g : Geometry) (e : Extent) (size : Nat) : Outcome ByteArray := do
  let (start, stop) ← e.rangeWithin image.size g
  if stop - start < size then
    fail (.transfer (.access (.shortRun e.count size)))
  orFault .outOfBounds (Bytes.slice? image start size)

end Extent

namespace Chain

/-- Appends to `got` the next `wanted` bytes of the clusters. It stops at the cluster that completes
them, so later clusters need not exist. -/
def gather (image : ByteArray) (g : Geometry) : List Nat → Nat → ByteArray → Outcome ByteArray
  | [], _, got => pure got
  | cluster :: rest, wanted, got =>
    if wanted = 0 then pure got
    else do
      let chunk ← Extent.read image g ⟨cluster, 1⟩ g.clusterSize
      let part := chunk.extract 0 (min chunk.size wanted)
      gather image g rest (wanted - part.size) (got ++ part)

/-- Sizes from here on cannot be reserved in memory. -/
def bufferLimit : Nat := 0x8000000000000000

def read (image : ByteArray) (g : Geometry) (clusters : List Nat) (size : Nat) :
    Outcome ByteArray := do
  if bufferLimit ≤ size then fault .oversizedBuffer
  let data ← gather image g clusters size ByteArray.empty
  if data.size < size then
    fail (.transfer (.access (.shortChain clusters.length data.size size)))
  return data

end Chain

end BootDisk
