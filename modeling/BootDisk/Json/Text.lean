import BootDisk.Json.Reader

set_option autoImplicit false

namespace BootDisk.Json.Text

def hexValue? (c : Char) : Option Nat :=
  if '0' ≤ c ∧ c ≤ '9' then some (c.toNat - '0'.toNat)
  else if 'a' ≤ c ∧ c ≤ 'f' then some (c.toNat - 'a'.toNat + 10)
  else if 'A' ≤ c ∧ c ≤ 'F' then some (c.toNat - 'A'.toNat + 10)
  else none

def byteCount (s : List Char) : Nat := s.foldl (fun n c => n + c.utf8Size) 0

def hexDigits : Reader Nat
  | a :: b :: c :: d :: rest =>
    match hexValue? a, hexValue? b, hexValue? c, hexValue? d with
    | some a, some b, some c, some d => .ok (4096 * a + 256 * b + 16 * c + d, rest)
    | _, _, _, _ => .error .malformed
  | s => .error (if byteCount s < 4 then .truncated else .malformed)

def isHighSurrogate (n : Nat) : Bool := 0xd800 ≤ n && n ≤ 0xdbff
def isLowSurrogate (n : Nat) : Bool := 0xdc00 ≤ n && n ≤ 0xdfff

def codePoint : Reader Char := do
  let n ← hexDigits
  if isLowSurrogate n then throw .malformed
  if isHighSurrogate n then
    Reader.word ['\\', 'u']
    let m ← hexDigits
    if !isLowSurrogate m then throw .malformed
    return Char.ofNat (0x10000 + 0x400 * (n - 0xd800) + (m - 0xdc00))
  return Char.ofNat n

def shortEscapes : List (Char × Char) :=
  [('"', '"'), ('\\', '\\'), ('/', '/'), ('b', '\x08'), ('f', '\x0c'), ('n', '\n'), ('r', '\r'),
    ('t', '\t')]

def escape : Reader Char
  | [] => .error .truncated
  | 'u' :: rest => codePoint rest
  | c :: rest => match shortEscapes.lookup c with
    | some d => .ok (d, rest)
    | none => .error .malformed

def next : Reader (Option Char)
  | [] => .error .truncated
  | '"' :: rest => .ok (none, rest)
  | '\\' :: rest => (some <$> escape) rest
  | c :: rest => if c.toNat < 0x20 then .error .malformed else .ok (some c, rest)

/-- Collects characters in front of `got`, which is in reverse, up to the closing quote. -/
def collect : (bound : List Char) → List Char → Reader String
  | [], _ => throw .truncated
  | _ :: bound, got => do
    match ← next with
    | none => return String.ofList got.reverse
    | some c => collect bound (c :: got)

def read : Reader String := fun s => collect s [] s

def skipEscape : Reader Unit
  | [] => .error .truncated
  | 'u' :: rest => discard hexDigits rest
  | c :: rest => if (shortEscapes.lookup c).isSome then .ok ((), rest) else .error .malformed

def skipOver : (bound : List Char) → Reader Unit
  | [], _ => .error .truncated
  | _ :: _, [] => .error .truncated
  | _ :: _, '"' :: rest => .ok ((), rest)
  | _ :: bound, '\\' :: rest => do
    let (_, rest) ← skipEscape rest
    skipOver bound rest
  | _ :: bound, c :: rest => if c.toNat < 0x20 then .error .malformed else skipOver bound rest

def skip : Reader Unit := fun s => skipOver s s

def control (c : Char) : List Char :=
  ['\\', 'u'] ++ (Nat.toDigits 16 c.toNat).leftpad 4 '0'

def short? : Char → Option Char
  | '"' => some '"'
  | '\\' => some '\\'
  | '\x08' => some 'b'
  | '\x0c' => some 'f'
  | '\n' => some 'n'
  | '\r' => some 'r'
  | '\t' => some 't'
  | _ => none

def writeChar (c : Char) : List Char :=
  match short? c with
  | some d => ['\\', d]
  | none => if c.toNat < 0x20 then control c else [c]

def write (s : String) : List Char := '"' :: s.toList.flatMap writeChar ++ ['"']

end BootDisk.Json.Text
