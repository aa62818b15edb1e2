import BootDisk.Json.Number
import BootDisk.Json.Text

set_option autoImplicit false

/-!
# Passing over a JSON value

The value of an unknown field is checked for its grammar and dropped. Open brackets are kept on a
stack, so nesting has no limit.
-/
namespace BootDisk.Json.Skip

inductive Bracket where
  | list
  | object
deriving DecidableEq, Repr

/-- What comes next: a value, a key, or whatever follows a finished value. -/
inductive Expect where
  | value
  | key
  | after
deriving DecidableEq, Repr

structure State where
  expect : Expect
  opened : List Bracket
  rest : List Char

def Bracket.item : Bracket → Expect
  | list => .value
  | object => .key

def Bracket.close : Bracket → Char
  | list => ']'
  | object => '}'

def enter (b : Bracket) (opened : List Bracket) (s : List Char) : Except Problem State :=
  match skipBlanks s with
  | [] => .error .truncated
  | c :: rest =>
    if c = b.close then .ok ⟨.after, opened, rest⟩ else .ok ⟨b.item, b :: opened, c :: rest⟩

def step (s : State) : Except Problem State :=
  match skipBlanks s.rest with
  | [] => .error .truncated
  | c :: rest =>
    let word (letters : List Char) : Except Problem State := do
      let (_, rest) ← Reader.word letters rest
      return { s with expect := .after, rest }
    match s.expect with
    | .value =>
      if c = 'n' then word ['u', 'l', 'l']
      else if c = 't' then word ['r', 'u', 'e']
      else if c = 'f' then word ['a', 'l', 's', 'e']
      else if c = '"' then do
        let (_, rest) ← Text.skip rest
        return { s with expect := .after, rest }
      else if c = '[' then enter .list s.opened rest
      else if c = '\x7b' then enter .object s.opened rest
      else if c = '-' ∨ Number.isDigit c then do
        let rest ← Number.skip (if c = '-' then rest else c :: rest)
        return { s with expect := .after, rest }
      else .error .malformed
    | .key =>
      if c = '"' then do
        let (_, rest) ← Text.skip rest
        match skipBlanks rest with
        | [] => .error .truncated
        | d :: rest => if d = ':' then .ok { s with expect := .value, rest } else .error .malformed
      else .error .malformed
    | .after =>
      match s.opened with
      | [] => .ok s
      | b :: opened =>
        if c = ',' then .ok { s with expect := b.item, rest }
        else if c = b.close then .ok { s with opened, rest }
        else .error .malformed

def State.done (s : State) : Bool := s.expect == .after && s.opened.isEmpty

def steps : (bound : List Char) → State → Except Problem (List Char)
  | [], s => if s.done then .ok s.rest else .error .truncated
  | _ :: bound, s => if s.done then .ok s.rest else do steps bound (← step s)

def value : Reader Unit := fun s => do
  return ((), ← steps s ⟨.value, [], s⟩)

end BootDisk.Json.Skip
