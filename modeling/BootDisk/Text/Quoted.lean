import BootDisk.Text.CharClass.Unprintable
import BootDisk.Text.CharClass.GraphemeExtend

set_option autoImplicit false

namespace BootDisk.Text

namespace Quoted

def codePoint (c : Char) : List Char :=
  ['\\', 'u', '\x7b'] ++ Nat.toDigits 16 c.toNat ++ ['\x7d']

def char (c : Char) : List Char :=
  match c with
  | '\x00' => ['\\', '0']
  | '\t' => ['\\', 't']
  | '\r' => ['\\', 'r']
  | '\n' => ['\\', 'n']
  | '"' => ['\\', '"']
  | '\\' => ['\\', '\\']
  | c =>
    if CharClass.graphemeExtend.contains c || CharClass.unprintable.contains c then codePoint c
    else [c]

end Quoted

def quoted (s : String) : String :=
  String.ofList ('"' :: s.toList.flatMap Quoted.char ++ ['"'])

end BootDisk.Text
