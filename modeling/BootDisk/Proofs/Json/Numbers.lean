import BootDisk.Json.Printer
import BootDisk.Json.Skip
import BootDisk.Proofs.Json.Strings

set_option autoImplicit false

/-!
# Numbers as they are written

A number ends where something else begins, so it is read with what stands behind it: a comma, a
closing bracket or the end of the text. A natural number that was written is read back, and a number
of any form is passed over.
-/
namespace BootDisk.Json

/-- What may stand behind a value. -/
def Delimited : List Char → Prop
  | [] => True
  | c :: _ => c = ',' ∨ c = ']' ∨ c = '\x7d'

namespace Number

/-! ## Digits -/

def Undigited (s : List Char) : Prop := ∀ c ∈ s.head?, isDigit c = false

theorem undigited_of_delimited {s : List Char} (h : Delimited s) : Undigited s := by
  intro c first
  match s, h with
  | d :: rest, h =>
    cases first
    rcases h with rfl | rfl | rfl
    all_goals rfl

section Digits
variable {s rest : List Char}

theorem takeWhile_digits (digits : ∀ c ∈ s, isDigit c = true) (stop : Undigited rest) :
    (s ++ rest).takeWhile isDigit = s ∧ (s ++ rest).dropWhile isDigit = rest := by
  rw [List.takeWhile_append_of_pos digits, List.dropWhile_append_of_pos digits]
  match rest, stop with
  | [], _ => exact ⟨List.append_nil s, rfl⟩
  | c :: more, stop =>
    have other : ¬ isDigit c = true := Bool.not_eq_true _ ▸ stop c rfl
    rw [List.takeWhile_cons_of_neg other, List.dropWhile_cons_of_neg other]
    exact ⟨List.append_nil s, rfl⟩

theorem digits_append (some : s ≠ []) (all : ∀ c ∈ s, isDigit c = true) (stop : Undigited rest) :
    digits (s ++ rest) = .ok (s, rest) := by
  match s, some, all with
  | c :: more, _, all =>
    obtain ⟨taken, left⟩ := takeWhile_digits (fun d hd => all d (List.mem_cons_of_mem c hd)) stop
    rw [List.cons_append, digits, if_pos (all c List.mem_cons_self), taken, left]

theorem whole_append {c : Char} (all : ∀ d ∈ c :: s, isDigit d = true)
    (lead : c = '0' → s = []) (stop : Undigited rest) :
    whole (c :: s ++ rest) = .ok (c :: s, rest) := by
  rw [List.cons_append, whole.eq_def]
  dsimp only
  by_cases zero : c = '0'
  · rw [if_pos zero, lead zero, List.nil_append]
    match rest, stop with
    | [], _ => rfl
    | d :: more, stop =>
      dsimp only
      rw [stop d rfl, if_neg Bool.false_ne_true]
  · obtain ⟨taken, left⟩ := takeWhile_digits (fun d hd => all d (List.mem_cons_of_mem c hd)) stop
    rw [if_neg zero, if_pos (all c List.mem_cons_self), taken, left]

theorem extend_concat {m k : Nat} {d : Char} (before : extend m s = (k, 0))
    (fits : 10 * k + digitValue d < significandLimit) :
    extend m (s ++ [d]) = (10 * k + digitValue d, 0) := by
  induction s generalizing m with
  | nil =>
    cases before
    rw [List.nil_append, extend, if_pos fits, extend]
  | cons c s ih =>
    rw [extend] at before
    by_cases small : 10 * m + digitValue c < significandLimit
    · rw [if_pos small] at before
      rw [List.cons_append, extend, if_pos small]
      exact ih before
    · rw [if_neg small] at before
      cases before

end Digits

/-! ## Natural numbers -/

theorem digitChar_facts : ∀ d < 10, isDigit (Nat.digitChar d) = true ∧
    digitValue (Nat.digitChar d) = d ∧ (Nat.digitChar d = '0' → d = 0) := by decide

/-- The digits of a number: a zero leads only when it is the number itself, and they have its value. -/
structure Decimal (n : Nat) (s : List Char) : Prop where
  all : ∀ c ∈ s, isDigit c = true
  lead : s ≠ [] ∧ ∀ c more, s = c :: more → c = '0' → n = 0 ∧ more = []
  value : n < significandLimit → extend 0 s = (n, 0)

theorem decimal_toDigits (n : Nat) : Decimal n (Nat.toDigits 10 n) := by
  induction n using Nat.strongRecOn with
  | ind n ih =>
    have last := digitChar_facts (n % 10) (Nat.mod_lt n (by decide))
    rw [Nat.toDigits_eq_if (by decide)]
    by_cases small : n < 10
    · rw [Nat.mod_eq_of_lt small] at last
      obtain ⟨digit, value, zero⟩ := last
      rw [if_pos small]
      refine ⟨?_, ⟨List.cons_ne_nil _ _, ?_⟩, fun fits => ?_⟩
      · intro c hc
        rw [List.mem_singleton.1 hc]
        exact digit
      · intro c more same first
        obtain ⟨rfl, rfl⟩ := List.cons.inj same
        exact ⟨zero first, rfl⟩
      · rw [extend, value, Nat.mul_zero, Nat.zero_add, if_pos fits, extend]
    · obtain ⟨digit, value, _⟩ := last
      have before := ih (n / 10) (by omega)
      have whole : 10 * (n / 10) + digitValue (Nat.digitChar (n % 10)) = n := by
        rw [value]
        omega
      rw [if_neg small]
      refine ⟨?_, ⟨by simp, ?_⟩, fun fits => ?_⟩
      · intro c hc
        rcases List.mem_append.1 hc with front | back
        · exact before.all c front
        · rw [List.mem_singleton.1 back]
          exact digit
      · intro c more same first
        match front : Nat.toDigits 10 (n / 10), before.lead with
        | [], lead => exact absurd rfl lead.1
        | d :: others, lead =>
          rw [front, List.cons_append] at same
          obtain ⟨rfl, _⟩ := List.cons.inj same
          have none := (lead.2 d others rfl first).1
          omega
      · have fitted := before.value (by omega)
        have more := extend_concat fitted (d := Nat.digitChar (n % 10)) (by omega)
        rw [whole] at more
        exact more

theorem natural_begins (n : Nat) : ∃ c more, Printer.natural n = c :: more ∧ isDigit c = true := by
  have decimal := decimal_toDigits n
  rw [Printer.natural]
  match Nat.toDigits 10 n, decimal with
  | [], decimal => exact absurd rfl decimal.lead.1
  | c :: more, decimal => exact ⟨c, more, rfl, decimal.all c List.mem_cons_self⟩

section Reading
variable {n : Nat} {rest : List Char}

theorem whole_natural (n : Nat) (stop : Undigited rest) :
    whole (Printer.natural n ++ rest) = .ok (Printer.natural n, rest) := by
  have decimal := decimal_toDigits n
  rw [Printer.natural]
  match Nat.toDigits 10 n, decimal with
  | [], decimal => exact absurd rfl decimal.lead.1
  | c :: more, decimal =>
    exact whole_append decimal.all (fun zero => (decimal.lead.2 c more rfl zero).2) stop

theorem fraction_none (h : ∀ c ∈ rest.head?, c ≠ '.') : fraction rest = .ok (none, rest) := by
  rw [fraction]
  intro more same
  exact h '.' (by rw [same]; rfl) rfl

theorem exponent_none (h : ∀ c ∈ rest.head?, c ≠ 'e' ∧ c ≠ 'E') :
    exponent rest = .ok (none, rest) := by
  match rest, h with
  | [], _ => rfl
  | c :: more, h =>
    have other := h c rfl
    rw [exponent, if_neg (not_or.2 other)]

theorem first_of_delimited {c : Char} (h : Delimited rest) (first : c ∈ rest.head?) :
    c = ',' ∨ c = ']' ∨ c = '\x7d' := by
  match rest, h with
  | d :: more, h =>
    cases first
    exact h

theorem fraction_of_delimited (h : Delimited rest) : fraction rest = .ok (none, rest) :=
  fraction_none fun c first => by
    rcases first_of_delimited h first with rfl | rfl | rfl
    all_goals decide

theorem exponent_of_delimited (h : Delimited rest) : exponent rest = .ok (none, rest) :=
  exponent_none fun c first => by
    rcases first_of_delimited h first with rfl | rfl | rfl
    all_goals decide

theorem read_natural (fits : n < significandLimit) (h : Delimited rest) :
    read (Printer.natural n ++ rest) = .ok (.natural n, rest) := by
  rw [read]
  · rw [unsigned, Reader.bind_ok (whole_natural n (undigited_of_delimited h)),
      Reader.bind_ok (fraction_of_delimited h), Reader.bind_ok (exponent_of_delimited h),
      Printer.natural, (decimal_toDigits n).value fits]
    rfl
  · intro others same
    obtain ⟨c, more, whole, digit⟩ := natural_begins n
    rw [whole] at same
    cases same
    exact absurd digit (by decide)

end Reading

/-! ## Numbers of any form -/

structure Digits where
  chars : List Char
  nonempty : chars ≠ []
  all : ∀ c ∈ chars, isDigit c = true

structure Exponent where
  capital : Bool
  /-- Whether a written sign is a plus. -/
  sign : Option Bool
  digits : Digits

/-- A number in any form that JSON has for it. -/
structure Numeral where
  negative : Bool
  whole : Nat
  fraction : Option Digits
  exponent : Option Exponent

def Digits.fraction : Option Digits → List Char
  | none => []
  | some d => '.' :: d.chars

def Exponent.signText : Option Bool → List Char
  | none => []
  | some true => ['+']
  | some false => ['-']

def Exponent.write : Option Exponent → List Char
  | none => []
  | some e => (if e.capital then 'E' else 'e') :: (signText e.sign ++ e.digits.chars)

def Numeral.unsigned (n : Numeral) : List Char :=
  Printer.natural n.whole ++ (Digits.fraction n.fraction ++ Exponent.write n.exponent)

def Numeral.write (n : Numeral) : List Char :=
  if n.negative then '-' :: n.unsigned else n.unsigned

section Skipping
variable {rest : List Char}

theorem Digits.read (d : Digits) (stop : Undigited rest) :
    digits (d.chars ++ rest) = .ok (d.chars, rest) := digits_append d.nonempty d.all stop

theorem signedDigits_write (sign : Option Bool) (d : Digits) (stop : Undigited rest) :
    ∃ a, signedDigits (Exponent.signText sign ++ d.chars ++ rest) = .ok (a, rest) := by
  match sign with
  | some true => exact ⟨_, Reader.map_ok _ (d.read stop)⟩
  | some false => exact ⟨_, Reader.map_ok _ (d.read stop)⟩
  | none =>
    have read := d.read stop
    change ∃ a, signedDigits (d.chars ++ rest) = .ok (a, rest)
    match chars : d.chars, d.nonempty, d.all, read with
    | c :: more, _, all, read =>
      have digit := all c List.mem_cons_self
      rw [List.cons_append, signedDigits]
      · exact ⟨_, Reader.map_ok _ read⟩
      · rintro others ⟨⟩
        exact absurd digit (by decide)
      · rintro others ⟨⟩
        exact absurd digit (by decide)

theorem exponent_write (e : Option Exponent) (h : Delimited rest) :
    ∃ a, exponent (Exponent.write e ++ rest) = .ok (a, rest) := by
  match e with
  | none => exact ⟨_, exponent_of_delimited h⟩
  | some e =>
    obtain ⟨a, read⟩ := signedDigits_write e.sign e.digits (undigited_of_delimited h)
    have letter : (if e.capital then 'E' else 'e') = 'e' ∨ (if e.capital then 'E' else 'e') = 'E' := by
      cases e.capital with
      | true => exact .inr rfl
      | false => exact .inl rfl
    refine ⟨some a, ?_⟩
    rw [Exponent.write, List.cons_append, exponent, if_pos letter]
    exact Reader.map_ok some read

theorem first_of_exponent (e : Option Exponent) (h : Delimited rest) :
    ∀ c ∈ (Exponent.write e ++ rest).head?, isDigit c = false ∧ c ≠ '.' := by
  intro c first
  match e with
  | none =>
    rcases first_of_delimited h first with rfl | rfl | rfl
    all_goals decide
  | some e =>
    cases first
    cases e.capital with
    | true => decide
    | false => decide

theorem fraction_write (f : Option Digits) (stop : ∀ c ∈ rest.head?, isDigit c = false ∧ c ≠ '.') :
    (∃ a, fraction (Digits.fraction f ++ rest) = .ok (a, rest)) ∧
      Undigited (Digits.fraction f ++ rest) := by
  match f with
  | none => exact ⟨⟨_, fraction_none fun c first => (stop c first).2⟩, fun c first => (stop c first).1⟩
  | some d =>
    refine ⟨⟨_, Reader.map_ok some (d.read fun c first => (stop c first).1)⟩, ?_⟩
    intro c first
    cases first
    rfl

theorem skip_write (n : Numeral) (h : Delimited rest) : skip (n.unsigned ++ rest) = .ok rest := by
  obtain ⟨e, passedExponent⟩ := exponent_write n.exponent h
  obtain ⟨⟨f, passedFraction⟩, stop⟩ := fraction_write n.fraction (first_of_exponent n.exponent h)
  have passedWhole := whole_natural n.whole stop
  have grammar : (do discard whole; discard fraction; discard exponent : Reader Unit)
      (n.unsigned ++ rest) = .ok ((), rest) := by
    rw [Numeral.unsigned, List.append_assoc, List.append_assoc]
    refine (Reader.bind_ok (Reader.map_ok _ passedWhole)).trans ?_
    refine (Reader.bind_ok (Reader.map_ok _ passedFraction)).trans ?_
    exact Reader.map_ok _ passedExponent
  rw [skip, grammar]

end Skipping

end Number

end BootDisk.Json
