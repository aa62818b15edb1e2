import BootDisk.FileTree
import BootDisk.Main
import BootDisk.Proofs.Audit.Safety
import BootDisk.Proofs.Audit.Soundness
import BootDisk.Proofs.Builder.Consistency
import BootDisk.Proofs.Builder.Corruption
import BootDisk.Proofs.Builder.Layout
import BootDisk.Proofs.Builder.Refusals
import BootDisk.Proofs.FileTree.Requests
import BootDisk.Proofs.Install.Atomicity
import BootDisk.Proofs.Partition
import BootDisk.Proofs.Path
import BootDisk.Settings.Json
import BootDisk.Proofs.Audit.Width
import BootDisk.Proofs.Builder.Reliability
import BootDisk.Proofs.Builder.Order
import BootDisk.Proofs.CommandLine.Switches
import BootDisk.Proofs.Install.Verification
import BootDisk.Proofs.CommandLine.Inputs
import BootDisk.Proofs.CommandLine.Runs
import BootDisk.Proofs.AllocationTable.Updates
import BootDisk.Proofs.AllocationTable.Walks
import BootDisk.Proofs.Allocator.Runs
import BootDisk.Proofs.Builder.Usable
import BootDisk.Proofs.Directory.Pushes
import BootDisk.Proofs.Volume.Directory
import BootDisk.Proofs.BootSector.Offsets
import BootDisk.Proofs.Directory.Normalization
import BootDisk.Proofs.Builder.Lookup
import BootDisk.Proofs.Audit.Duplicates
import BootDisk.Proofs.Directory.Codec
import BootDisk.Proofs.Extents.Writes
import BootDisk.Proofs.Extents.Reads
import BootDisk.Proofs.Install.Patching
import BootDisk.Proofs.FileTree.Listings
import BootDisk.Proofs.Install.Stranding
import BootDisk.Proofs.BuildTree.Order
import BootDisk.Proofs.BuildTree.Programs
import BootDisk.Proofs.Json.Forms
import BootDisk.Proofs.Serial.Digits
import BootDisk.Proofs.AllocationTable.Capacity
import BootDisk.Proofs.Serial.Forms
import BootDisk.Proofs.Settings
