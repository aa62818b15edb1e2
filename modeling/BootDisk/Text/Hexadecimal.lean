set_option autoImplicit false

/-! # Hexadecimal numbers in messages -/
namespace BootDisk.Text

def padded (width : Nat) (digits : List Char) : List Char := digits.leftpad width '0'

def hex (width n : Nat) : String :=
  "0x" ++ String.ofList (padded width (Nat.toDigits 16 n))

def hexByte (b : UInt8) : String :=
  String.ofList ((padded 2 (Nat.toDigits 16 b.toNat)).map Char.toUpper)

end BootDisk.Text
