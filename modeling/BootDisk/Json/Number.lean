import BootDisk.Json.Reader

set_option autoImplicit false

/-!
# Numbers in JSON text

Only natural numbers are of use here; any other number is read to its end and kept apart. A number
has to lie in the range of double precision unless it is skipped unread.
-/
namespace BootDisk.Json

inductive Number where
  | natural (n : Nat)
  /-- Negative, with a fraction or an exponent, or too large for 64 bits. -/
  | other
deriving DecidableEq, Repr

namespace Number

def isDigit (c : Char) : Bool := '0' ≤ c && c ≤ '9'

def digitValue (c : Char) : Nat := c.toNat - '0'.toNat

def whole : Reader (List Char)
  | [] => .error .truncated
  | c :: rest =>
    if c = '0' then
      match rest with
      | d :: _ => if isDigit d then .error .malformed else .ok ([c], rest)
      | [] => .ok ([c], rest)
    else if isDigit c then .ok (c :: rest.takeWhile isDigit, rest.dropWhile isDigit)
    else .error .malformed

def digits : Reader (List Char)
  | [] => .error .truncated
  | c :: rest =>
    if isDigit c then .ok (c :: rest.takeWhile isDigit, rest.dropWhile isDigit)
    else .error .malformed

def fraction : Reader (Option (List Char))
  | '.' :: rest => (some <$> digits) rest
  | s => .ok (none, s)

def signedDigits : Reader (Bool × List Char)
  | '+' :: rest => ((true, ·) <$> digits) rest
  | '-' :: rest => ((false, ·) <$> digits) rest
  | s => ((true, ·) <$> digits) s

def exponent : Reader (Option (Bool × List Char))
  | [] => .ok (none, [])
  | c :: rest =>
    if c = 'e' ∨ c = 'E' then (some <$> signedDigits) rest else .ok (none, c :: rest)

def significandLimit : Nat := 1 <<< 64

/-- Extends a significand by digits while it fits 64 bits; the rest of the digits are counted. -/
def extend : Nat → List Char → Nat × Nat
  | n, [] => (n, 0)
  | n, c :: rest =>
    if 10 * n + digitValue c < significandLimit then extend (10 * n + digitValue c) rest
    else (n, rest.length + 1)

/-- A natural rounded to 53 significant bits, a tie to the even neighbour. -/
def roundDouble (n : Nat) : Nat :=
  if n < 1 <<< 53 then n
  else
    let unit := 1 <<< (n.log2 - 52)
    let q := n / unit
    let r := n % unit
    (if unit < 2 * r ∨ (unit = 2 * r ∧ q % 2 = 1) then q + 1 else q) * unit

/-- From here on a product rounds to infinity: the middle between the largest double and the next
power of two. -/
def infinite : Nat := (1 <<< 1024) - (1 <<< 970)

/-- Whether `significand * 10 ^ exponent` has no finite value in double precision. -/
def overflows (significand : Nat) (exponent : Int) : Bool :=
  if significand = 0 ∨ exponent < 0 then false
  else if 308 < exponent then true
  else infinite ≤ roundDouble significand * roundDouble (Nat.pow 10 exponent.toNat)

def unsigned : Reader Number := do
  let int ← whole
  let frac ← fraction
  let exp ← exponent
  let (n, skipped) := extend 0 int
  if frac.isNone ∧ exp.isNone ∧ skipped = 0 then return .natural n
  let frac := frac.getD []
  let (n, cut) := extend n frac
  let (positive, expDigits) := exp.getD (true, [])
  let e := expDigits.foldl (fun e c => 10 * e + digitValue c) 0
  let shift : Int := skipped - (frac.length - cut : Nat)
  if overflows n (if positive then shift + e else shift - e) then throw .malformed
  return .other

def read : Reader Number
  | '-' :: rest => ((fun _ => .other) <$> unsigned) rest
  | s => unsigned s

/-- Passes over a number without looking at its value. Here an early end makes it malformed. -/
def skip (s : List Char) : Except Problem (List Char) :=
  let grammar : Reader Unit := do
    discard whole
    discard fraction
    discard exponent
  match grammar s with
  | .ok (_, rest) => .ok rest
  | .error _ => .error .malformed

end Number

end BootDisk.Json
