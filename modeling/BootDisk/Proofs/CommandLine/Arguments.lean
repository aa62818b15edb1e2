import BootDisk.CommandLine.Arguments
import BootDisk.Proofs.Step

set_option autoImplicit false

namespace BootDisk.CommandLine.Arguments

/-- What an argument does, unless it is the double dash. -/
def step (text : String) : State → Reading :=
  match text.toList with
  | '-' :: '-' :: body => fun s => long s body
  | ['-'] => fun s => plain s text
  | '-' :: body => fun s => letters s body
  | _ => fun s => plain s text

theorem step_cases (text : String) : (∃ body, step text = fun s => long s body) ∨
    (step text = fun s => plain s text) ∨
    ∃ body, body ≠ [] ∧ step text = fun s => letters s body := by
  unfold step
  split
  · exact .inl ⟨_, rfl⟩
  · exact .inr (.inl rfl)
  · rename_i alone _
    exact .inr (.inr ⟨_, alone, rfl⟩)
  · exact .inr (.inl rfl)

/-- What several arguments do. The value of the last one may still be awaited. -/
def scan : List String → State → Reading
  | [], s => .ok s
  | text :: rest, s => step text s >>= scan rest

theorem readAll_cons {text : String} (other : text ≠ "--") (s : State) (rest : List String) :
    readAll false s (text :: rest) = step text s >>= fun s => readAll false s rest := by
  have dashes : text.toList ≠ ['-', '-'] := fun same => other (String.toList_injective same)
  rw [readAll, step]
  generalize text.toList = chars at dashes ⊢
  split
  · exact absurd rfl dashes
  · rfl
  · rfl
  · simp_all
  · simp_all

theorem readAll_append {before : List String} (none : "--" ∉ before) (s : State)
    (after : List String) :
    readAll false s (before ++ after) = scan before s >>= fun s => readAll false s after := by
  induction before generalizing s with
  | nil => rfl
  | cons text rest ih =>
    rw [List.mem_cons, not_or] at none
    rw [List.cons_append, readAll_cons (Ne.symm none.1), scan]
    cases step text s with
    | error e => rfl
    | ok r => exact ih none.2 r

theorem path_eq_ok {slot : Slot} {old : Option Path} {text : String} {place : Path → State}
    {r : State} (h : path slot old text place = .ok r) : r = place ⟨text⟩ := by
  unfold path at h
  split at h
  · cases h
  · split at h
    · cases h
    · exact (Except.ok.inj h).symm

theorem store_keeps {s r : State} {slot : Slot} {text : String} (h : store s slot text = .ok r) :
    r.awaiting = s.awaiting ∧ r.positionals = s.positionals := by
  cases slot with
  | bootLoader | image | root | manifest =>
    simp only [store] at h
    rw [path_eq_ok h]
    exact ⟨rfl, rfl⟩
  | label =>
    simp only [store] at h
    split at h
    · cases h
    · cases h
      exact ⟨rfl, rfl⟩
  | serial =>
    simp only [store] at h
    split at h
    · cases h
    · split at h
      · cases h
        exact ⟨rfl, rfl⟩
      · cases h

section Settled
variable {s r : State} (settled : settle s = .ok r)
include settled

theorem settle_cases : r = s ∨
    (∃ slot value, s.awaiting = some (slot, some value)) ∧ r.awaiting = none ∧
      r.positionals = s.positionals := by
  rw [settle] at settled
  match awaiting : s.awaiting, settled with
  | none, settled => exact .inl (Except.ok.inj settled).symm
  | some (slot, some value), settled => exact .inr ⟨⟨slot, value, rfl⟩, store_keeps settled⟩

theorem settle_settled : settle r = settle s := by
  rcases settle_cases settled with rfl | ⟨_, none, _⟩
  · rfl
  · rw [settled, settle, none]

theorem positional_settled (text : String) : positional s text = positional r text := by
  rcases settle_cases settled with rfl | ⟨_, _, positionals⟩
  · rfl
  · have next : ∀ slot, positional.next s text slot = positional.next r text slot := by
      intro slot
      rw [positional.next, positional.next, settle_settled settled]
    simp only [positional, next, positionals]

theorem plain_settled (text : String) : plain s text = plain r text := by
  rcases settle_cases settled with rfl | ⟨⟨slot, value, come⟩, none, _⟩
  · rfl
  · rw [plain, plain, come, none]
    exact positional_settled settled text

theorem option_settled (slot : Slot) (value : Option String) :
    option s slot value = option r slot value := by
  cases value with
  | none => rw [option, option, settle_settled settled]
  | some text => rw [option, option, settle_settled settled]

theorem raise_settled (flag : Flag) : raise s flag = raise r flag := by
  rw [raise, raise, settle_settled settled]

theorem long_settled (body : List Char) : long s body = long r body := by
  simp only [long, option_settled settled, raise_settled settled]

theorem letters_settled {body : List Char} (some : body ≠ []) :
    letters s body = letters r body := by
  cases body with
  | nil => exact absurd rfl some
  | cons c rest => simp only [letters, option_settled settled, raise_settled settled]

theorem step_settled (text : String) : step text s = step text r := by
  rcases step_cases text with ⟨body, same⟩ | same | ⟨body, some, same⟩
  · rw [same]
    exact long_settled settled body
  · rw [same]
    exact plain_settled settled text
  · rw [same]
    exact letters_settled settled some

theorem readAll_settled (plain : Bool) (texts : List String) :
    readAll plain s texts = readAll plain r texts := by
  have positionals : ∀ texts, readAll true s texts = readAll true r texts := by
    intro texts
    cases texts with
    | nil => exact (settle_settled settled).symm
    | cons text rest => rw [readAll, readAll, positional_settled settled]
  cases plain with
  | true => exact positionals texts
  | false =>
    cases texts with
    | nil => exact (settle_settled settled).symm
    | cons text rest =>
      by_cases dashes : text = "--"
      · subst dashes
        exact positionals rest
      · rw [readAll_cons dashes, readAll_cons dashes, step_settled settled]

end Settled

end BootDisk.CommandLine.Arguments
