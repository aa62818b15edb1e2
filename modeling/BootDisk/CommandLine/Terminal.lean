set_option autoImplicit false

/-!
# Control sequences

A text for a terminal holds control sequences beside what is to be seen: those that set a style, and
any that come with a text quoted in it. `plain` takes all of them out, for a reader without a
terminal. It adds nothing, and nothing unseen is left (`plainFrom_sublist`, `isVisible_of_mem`).
-/
namespace BootDisk.CommandLine.Terminal

def escapeChar : Char := '\x1b'

/-- What the next character belongs to. A device string has parameters in front of it; any other
string runs to its end without a look at what it holds. -/
inductive Mode where
  | ground
  | escape
  | escapeIntermediate
  | control
  | deviceEntry
  | deviceParameter
  | deviceIntermediate
  | string
  | command
deriving DecidableEq, Repr

def isLayout (c : Char) : Bool := c == '\t' || c == '\n' || c == '\x0c' || c == '\r'

def isVisible (c : Char) : Bool := isLayout c || (' ' ≤ c && c != '\x7f')

def isAscii (c : Char) : Bool := c ≤ '\x7f'

def between (first last c : Char) : Bool := first ≤ c && c ≤ last

/-- Whether the byte that ends a string is one of those of a character. -/
def endsString (c : Char) : Bool := (String.utf8EncodeChar c).contains 0x9c

namespace Mode

def shows : Mode → Char → Bool
  | ground, c => isVisible c
  | escape, c => isLayout c
  | escapeIntermediate, c => isLayout c
  | control, c => isLayout c
  | _, _ => false

def inner : Mode → Char → Mode
  | ground, _ => ground
  | escape, c =>
    if between ' ' '/' c then escapeIntermediate
    else if c = 'P' then deviceEntry
    else if c = 'X' ∨ c = '^' ∨ c = '_' then string
    else if c = '[' then control
    else if c = ']' then command
    else if between '0' '~' c then ground
    else escape
  | escapeIntermediate, c => if between '0' '~' c then ground else escapeIntermediate
  | control, c => if between '@' '~' c then ground else control
  | deviceEntry, c =>
    if between ' ' '/' c then deviceIntermediate
    else if between '0' '?' c then deviceParameter
    else if between '@' '~' c then string
    else deviceEntry
  | deviceParameter, c =>
    if between ' ' '/' c then deviceIntermediate
    else if between '<' '~' c then string
    else deviceParameter
  | deviceIntermediate, c => if between '0' '~' c then string else deviceIntermediate
  | string, c => if endsString c then ground else string
  | command, c => if c = '\x07' then ground else command

def next (m : Mode) (c : Char) : Mode :=
  if c = escapeChar then escape
  else if c = '\x18' ∨ c = '\x1a' then ground
  else m.inner c

end Mode

/-- A place in a text. Behind a layout character inside a sequence the text is seen again, and the
sequence is `suspended` until a control goes on with it. -/
structure Place where
  mode : Mode := .ground
  suspended : Bool := false
deriving DecidableEq, Repr

def Place.step (p : Place) (c : Char) : Bool × Place :=
  if p.mode.shows c then (true, ⟨p.mode, true⟩)
  else if p.suspended && isVisible c then (true, ⟨if isAscii c then p.mode else .ground, true⟩)
  else (false, ⟨p.mode.next c, false⟩)

def plainFrom : Place → List Char → List Char
  | _, [] => []
  | p, c :: rest =>
    if (p.step c).1 then c :: plainFrom (p.step c).2 rest else plainFrom (p.step c).2 rest

def plain (s : String) : String := String.ofList (plainFrom {} s.toList)

theorem plainFrom_sublist (p : Place) (s : List Char) : (plainFrom p s).Sublist s := by
  induction s generalizing p with
  | nil => exact .slnil
  | cons c rest ih =>
    unfold plainFrom
    split
    · exact (ih _).cons_cons c
    · exact (ih _).cons c

theorem isVisible_of_shows (m : Mode) (c : Char) (h : m.shows c) : isVisible c := by
  cases m <;> simp_all [Mode.shows, isVisible]

theorem isVisible_of_step (p : Place) (c : Char) (h : (p.step c).1) : isVisible c := by
  unfold Place.step at h
  split at h
  · exact isVisible_of_shows p.mode c (by assumption)
  · split at h
    · simp_all
    · exact absurd h Bool.false_ne_true

theorem isVisible_of_mem (p : Place) (s : List Char) (c : Char) (h : c ∈ plainFrom p s) :
    isVisible c := by
  induction s generalizing p with
  | nil => exact absurd h List.not_mem_nil
  | cons d rest ih =>
    unfold plainFrom at h
    split at h
    · rcases List.mem_cons.mp h with rfl | h
      · exact isVisible_of_step p c (by assumption)
      · exact ih _ h
    · exact ih _ h

inductive Style where
  | heading
  | literal
  | rejected
deriving DecidableEq, Repr

def Style.codes : Style → List Nat
  | heading => [1, 31]
  | literal => [1]
  | rejected => [33]

def setting (code : Nat) : String := escapeChar.toString ++ s!"[{code}m"

def Style.apply (s : Style) (text : String) : String :=
  String.join (s.codes.map setting) ++ text ++ setting 0

def Style.quote (s : Style) (text : String) : String := s!"'{s.apply text}'"

end BootDisk.CommandLine.Terminal
