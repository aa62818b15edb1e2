set_option autoImplicit false

namespace BootDisk

inductive SerialError where
  | noDigits
  | invalidDigit
  | tooLarge
deriving DecidableEq, Repr

def SerialError.message : SerialError → String
  | noDigits => "cannot parse integer from empty string"
  | invalidDigit => "invalid digit found in string"
  | tooLarge => "number too large to fit in target type"

namespace Serial

def dropMarks (a b : Char) : List Char → List Char
  | c :: d :: rest => if c = a ∧ d = b then dropMarks a b rest else c :: d :: rest
  | s => s

def digit? (c : Char) : Option Nat :=
  if '0' ≤ c ∧ c ≤ '9' then some (c.toNat - '0'.toNat)
  else if 'a' ≤ c ∧ c ≤ 'f' then some (c.toNat - 'a'.toNat + 10)
  else if 'A' ≤ c ∧ c ≤ 'F' then some (c.toNat - 'A'.toNat + 10)
  else none

def extend : Nat → List Char → Except SerialError Nat
  | n, [] => .ok n
  | n, c :: rest =>
    match digit? c with
    | none => .error .invalidDigit
    | some d => if 16 * n + d < 0x100000000 then extend (16 * n + d) rest else .error .tooLarge

def number : List Char → Except SerialError Nat
  | [] => .error .noDigits
  | ['+'] => .error .invalidDigit
  | '+' :: rest => extend 0 rest
  | s => extend 0 s

def parse (s : String) : Except SerialError UInt32 :=
  UInt32.ofNat <$> number (dropMarks '0' 'X' (dropMarks '0' 'x' s.toList))

def refusal (s : String) (e : SerialError) : String := s!"invalid hex serial '{s}': {e.message}"

end Serial

end BootDisk
