set_option autoImplicit false

/-! # Files to be placed in an image -/
namespace BootDisk

structure SourceFile where
  name : String
  ext : String
  contents : ByteArray

def SourceFile.display (f : SourceFile) : String :=
  if f.ext.isEmpty then f.name else s!"{f.name}.{f.ext}"

def SourceFile.size (f : SourceFile) : Nat := f.contents.size

end BootDisk
