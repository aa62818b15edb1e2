import BootDisk.Json.Skip

set_option autoImplicit false

/-!
# Reading values of a known shape

Scalars, lists, optional values and records. A record is written as an object with its fields in any
order, or as a list of its fields in their order, which may stop early.
-/
namespace BootDisk.Json.Shape

/-- The value ahead has another shape; a scalar is read first, for a problem in it comes first. -/
def mismatch {α : Type} : Reader α := do
  Reader.toNext
  match ← get with
  | 'n' :: _ => Reader.word ['n', 'u', 'l', 'l']
  | 't' :: _ => Reader.word ['t', 'r', 'u', 'e']
  | 'f' :: _ => Reader.word ['f', 'a', 'l', 's', 'e']
  | '"' :: rest => set rest; discard Text.read
  | '[' :: _ => pure ()
  | '\x7b' :: _ => pure ()
  | c :: _ => if c = '-' ∨ Number.isDigit c then discard Number.read else throw .malformed
  | [] => throw .truncated
  throw .mismatched

def text : Reader String := do
  Reader.toNext
  match ← get with
  | '"' :: rest => set rest; Text.read
  | _ => mismatch

def bool : Reader Bool := do
  Reader.toNext
  match ← get with
  | 't' :: _ => Reader.word ['t', 'r', 'u', 'e']; return true
  | 'f' :: _ => Reader.word ['f', 'a', 'l', 's', 'e']; return false
  | _ => mismatch

def word32 : Reader UInt32 := do
  Reader.toNext
  match ← get with
  | c :: _ =>
    if c = '-' ∨ Number.isDigit c then
      match ← Number.read with
      | .natural n => if n < 0x100000000 then return UInt32.ofNat n else throw .mismatched
      | .other => throw .mismatched
    else mismatch
  | [] => mismatch

def optional {α : Type} (r : Reader α) : Reader (Option α) := fun s =>
  match skipBlanks s with
  | 'n' :: rest => do
    let (_, rest) ← Reader.word ['u', 'l', 'l'] rest
    return (none, rest)
  | rest => (some <$> r) rest

/-- Whether another item comes before the closing bracket of a list. The comma in front of it is
taken, the bracket is not. -/
def another (first : Bool) : Reader Bool := do
  Reader.toNext
  match ← get with
  | ']' :: _ => return false
  | ',' :: rest =>
    if first then return true
    set rest
    Reader.toNext
    match ← get with
    | ']' :: _ => throw .malformed
    | _ => return true
  | _ => if first then return true else throw .malformed

def close : Reader Unit := do
  Reader.toNext
  Reader.word [']']

def items {α : Type} (item : Reader α) : (bound : List Char) → List α → Reader (List α)
  | [], _ => throw .truncated
  | _ :: bound, got => do
    if ← another got.isEmpty then items item bound ((← item) :: got)
    else return got.reverse

def list {α : Type} (item : Reader α) : Reader (List α) := do
  Reader.toNext
  match ← get with
  | '[' :: rest =>
    set rest
    let got ← items item rest []
    close
    return got
  | _ => mismatch

/-- A field of a record under construction. -/
structure Field (σ : Type) where
  name : String
  read : σ → Reader σ

/-- The fields of a record from the items of a list, as far as it goes. -/
def positional {σ : Type} : Bool → List (Field σ) → σ → Reader σ
  | _, [], s => return s
  | first, f :: fields, s => do
    if ← another first then positional false fields (← f.read s)
    else return s

def key? (first : Bool) : Reader (Option String) := do
  Reader.toNext
  match ← get with
  | '\x7d' :: rest => set rest; return none
  | c :: rest =>
    if first then
      if c ≠ '"' then throw .malformed
    else
      if c ≠ ',' then throw .malformed
      set rest
      Reader.toNext
    match ← get with
    | '"' :: rest =>
      set rest
      let name ← Text.read
      return some name
    | _ => throw .malformed
  | [] => throw .truncated

def colon : Reader Unit := do
  Reader.toNext
  Reader.word [':']

/-- The fields of a record from an object. A field may come once; the value of an unknown key is
passed over. -/
def keyed {σ : Type} (fields : List (Field σ)) :
    (bound : List Char) → Bool → List String → σ → Reader σ
  | [], _, _, _ => throw .truncated
  | _ :: bound, first, seen, s => do
    match ← key? first with
    | none => return s
    | some name =>
      match fields.find? (·.name == name) with
      | none =>
        colon
        Skip.value
        keyed fields bound false seen s
      | some f =>
        if seen.contains name then throw .mismatched
        colon
        let s ← f.read s
        keyed fields bound false (name :: seen) s

/-- A record in either form. `finish` refuses a draft that lacks a field. -/
def record {σ α : Type} (fields : List (Field σ)) (draft : σ) (finish : σ → Option α) :
    Reader α := do
  Reader.toNext
  match ← get with
  | '[' :: rest =>
    set rest
    let s ← positional true fields draft
    let some value := finish s | throw .mismatched
    close
    return value
  | '\x7b' :: rest =>
    set rest
    let s ← keyed fields rest true [] draft
    let some value := finish s | throw .mismatched
    return value
  | _ => mismatch

end BootDisk.Json.Shape
