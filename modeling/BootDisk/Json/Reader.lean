import BootDisk.Json.Problem

set_option autoImplicit false

/-!
# Reading JSON text

A reader takes a value from the front of a text and leaves the rest. It stops at the first problem
from left to right, so a text with several problems is refused for the first of them.

A reader that goes on step by step is bounded by the text itself: it has one character of `bound`
for each step, and each step takes at least one character.
-/
namespace BootDisk.Json

abbrev Reader := StateT (List Char) (Except Problem)

def isBlank (c : Char) : Bool := c == ' ' || c == '\t' || c == '\n' || c == '\r'

def skipBlanks (s : List Char) : List Char := s.dropWhile isBlank

namespace Reader

def toNext : Reader Unit := fun s =>
  match skipBlanks s with
  | [] => .error .truncated
  | rest => .ok ((), rest)

def word : List Char → Reader Unit
  | [], s => .ok ((), s)
  | _ :: _, [] => .error .truncated
  | c :: cs, d :: rest => if c = d then word cs rest else .error .malformed

def run {α : Type} (r : Reader α) (text : String) : Except Problem α := do
  let (value, rest) ← StateT.run r text.toList
  if (skipBlanks rest).isEmpty then return value else throw .malformed

end Reader

end BootDisk.Json
