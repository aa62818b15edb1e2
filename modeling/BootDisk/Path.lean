set_option autoImplicit false

/-!
# Paths

A path is a text of segments with slashes between them. Nothing is looked up here: a parent or a
join is a text again, and keeps the spelling that it is made from.
-/
namespace BootDisk

structure Path where
  text : String
deriving DecidableEq, Repr

namespace Path

def separator : Char := '/'

def split : List Char → List (List Char)
  | [] => [[]]
  | c :: rest =>
    match split rest with
    | [] => [[c]]
    | piece :: pieces =>
      if c = separator then [] :: piece :: pieces else (c :: piece) :: pieces

def hasNul (p : Path) : Bool := p.text.toList.contains '\x00'

def isAbsolute (p : Path) : Bool := p.text.toList.head? == some separator

def segments (p : Path) : List String := (split p.text.toList).map String.ofList

def isIdle (segment : List Char) : Bool := segment == [] || segment == ['.']

def lead : List Char → List Char × List Char
  | '/' :: rest => (['/'], rest)
  | ['.'] => (['.'], [])
  | '.' :: '/' :: rest => (['.'], '/' :: rest)
  | s => ([], s)

/-- The path without its last segment; none for a root and for the empty path. -/
def parent? (p : Path) : Option Path :=
  let (front, body) := lead p.text.toList
  match (split body).reverse.dropWhile isIdle with
  | [] => if front = ['.'] then some ⟨""⟩ else none
  | _ :: before =>
    let kept := List.intercalate [separator] (before.dropWhile isIdle).reverse
    some ⟨String.ofList (front ++ kept)⟩

def join (p q : Path) : Path :=
  if q.isAbsolute then q
  else
    let base := p.text.toList
    if base.isEmpty || base.getLast? == some separator then ⟨p.text ++ q.text⟩
    else ⟨p.text ++ "/" ++ q.text⟩

/-- A file name cut at its last dot. A name without a dot, or with its only dot in front, has no
extension. -/
def stemAndExtension (name : String) : String × Option String :=
  let chars := name.toList
  if chars = ['.', '.'] then (name, none)
  else
    let ext := chars.reverse.takeWhile (· ≠ '.')
    match chars.reverse.drop ext.length with
    | '.' :: [] => (name, none)
    | '.' :: stem => (String.ofList stem.reverse, some (String.ofList ext.reverse))
    | _ => (name, none)

end Path

end BootDisk
