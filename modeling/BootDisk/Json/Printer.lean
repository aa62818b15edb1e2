import BootDisk.Json.Text

set_option autoImplicit false

/-! # Writing JSON without blanks -/
namespace BootDisk.Json.Printer

def commas (items : List (List Char)) : List Char := List.intercalate [','] items

def list (items : List (List Char)) : List Char := '[' :: commas items ++ [']']

def member (m : String × List Char) : List Char := Text.write m.1 ++ ':' :: m.2

def object (members : List (String × List Char)) : List Char :=
  '\x7b' :: commas (members.map member) ++ ['\x7d']

def text (s : String) : List Char := Text.write s

def natural (n : Nat) : List Char := Nat.toDigits 10 n

def bool (b : Bool) : List Char := if b then "true".toList else "false".toList

def optional {α : Type} (write : α → List Char) : Option α → List Char
  | none => "null".toList
  | some a => write a

end BootDisk.Json.Printer
