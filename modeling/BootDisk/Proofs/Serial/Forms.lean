import BootDisk.Proofs.Serial.Digits

set_option autoImplicit false

/-!
# Forms of a serial

A serial is read as its value when it is digits, with or without one mark in front of them. What is
accepted beyond that is stated exactly: any number of marks `0x`, then of marks `0X`, then one plus
sign. Every other text is refused. A mark that is typed twice is therefore not noticed, and neither
is a sign.
-/
namespace BootDisk.Serial

def marks (x : Char) (k : Nat) : List Char := (List.replicate k ['0', x]).flatten

theorem marks_succ (x : Char) (k : Nat) : marks x (k + 1) = '0' :: x :: marks x k := rfl

theorem dropMarks_unmarked {x : Char} {s : List Char} (stop : ¬ ['0', x] <+: s) :
    dropMarks '0' x s = s := by
  match s, stop with
  | [], _ => rfl
  | [c], _ => rfl
  | c :: d :: rest, stop =>
    refine if_neg ?_
    rintro ⟨rfl, rfl⟩
    exact stop (List.prefix_append ['0', d] rest)

theorem dropMarks_marks {x : Char} {s : List Char} (k : Nat) (stop : ¬ ['0', x] <+: s) :
    dropMarks '0' x (marks x k ++ s) = s := by
  induction k with
  | zero => exact dropMarks_unmarked stop
  | succ k ih => exact (if_pos ⟨rfl, rfl⟩).trans ih

theorem exists_marks (x : Char) (s : List Char) : ∃ k, s = marks x k ++ dropMarks '0' x s := by
  induction s using dropMarks.induct '0' x with
  | case1 c d rest here ih =>
    obtain ⟨rfl, rfl⟩ := here
    obtain ⟨k, split⟩ := ih
    refine ⟨k + 1, ?_⟩
    rw [dropMarks, if_pos ⟨rfl, rfl⟩, marks_succ, List.cons_append, List.cons_append, ← split]
  | case2 c d rest other =>
    refine ⟨0, ?_⟩
    rw [dropMarks, if_neg other]
    rfl
  | case3 s short =>
    refine ⟨0, (dropMarks_unmarked fun marked => ?_).symm⟩
    obtain ⟨rest, same⟩ := marked
    exact short _ _ _ same.symm

def sign (signed : Bool) : List Char := if signed then ['+'] else []

theorem number_unsigned {c : Char} {rest : List Char} (plain : c ≠ '+') :
    number (c :: rest) = extend 0 (c :: rest) := by
  rw [number]
  · exact List.cons_ne_nil c rest
  · rintro ⟨⟩
    exact plain rfl
  · rintro others ⟨⟩
    exact plain rfl

theorem number_sign (signed : Bool) {digits : List Char} (written : Digits digits) :
    number (sign signed ++ digits) = extend 0 digits := by
  match digits, written with
  | c :: rest, written =>
    cases signed with
    | true => rfl
    | false =>
      apply number_unsigned
      rintro rfl
      exact written.not_mem rfl List.mem_cons_self

theorem exists_sign {s : List Char} {n : Nat} (h : number s = .ok n) :
    ∃ signed digits, sign signed ++ digits = s ∧ digits ≠ [] ∧ extend 0 digits = .ok n := by
  match s, h with
  | c :: rest, h =>
    by_cases plus : c = '+'
    · subst plus
      match rest, h with
      | d :: rest, h => exact ⟨true, d :: rest, rfl, List.cons_ne_nil d rest, h⟩
    · rw [number_unsigned plus] at h
      exact ⟨false, c :: rest, rfl, List.cons_ne_nil c rest, h⟩

/-- A way to write a serial that is accepted. -/
structure Form where
  lower : Nat
  upper : Nat
  signed : Bool
  digits : List Char
  written : Digits digits

namespace Form

def text (f : Form) : List Char :=
  marks 'x' f.lower ++ (marks 'X' f.upper ++ (sign f.signed ++ f.digits))

variable (f : Form)

/-- What stands behind the marks is no mark, because its second character is no digit. -/
theorem unmarked {x : Char} (letter : digit? x = none) :
    ¬ ['0', x] <+: sign f.signed ++ f.digits := by
  intro marked
  cases signed : f.signed with
  | true =>
    rw [signed] at marked
    cases (List.cons_prefix_cons.1 marked).1
  | false =>
    rw [signed] at marked
    exact f.written.not_mem letter (marked.subset (List.mem_cons_of_mem _ List.mem_cons_self))

theorem dropMarks_text :
    dropMarks '0' 'X' (dropMarks '0' 'x' f.text) = sign f.signed ++ f.digits := by
  have upper : ¬ ['0', 'x'] <+: marks 'X' f.upper ++ (sign f.signed ++ f.digits) := by
    cases f.upper with
    | zero => exact f.unmarked (by decide)
    | succ k =>
      intro marked
      cases (List.cons_prefix_cons.1 (List.cons_prefix_cons.1 marked).2).1
  rw [text, dropMarks_marks _ upper, dropMarks_marks _ (f.unmarked (by decide))]

theorem parse_text {s : String} (same : f.text = s.toList) :
    parse s = if value f.digits < 0x100000000 then .ok (UInt32.ofNat (value f.digits))
      else .error .tooLarge := by
  rw [parse, ← same, f.dropMarks_text, number_sign f.signed f.written,
    extend_eq 0 _ (by decide) f.written.all]
  change UInt32.ofNat <$> (if value f.digits < 0x100000000 then _ else _) = _
  split
  · rfl
  · rfl

end Form

theorem form_of_parse {s : String} {v : UInt32} (h : parse s = .ok v) :
    ∃ f : Form, f.text = s.toList ∧ Renders v.toNat f.digits := by
  obtain ⟨i, lower⟩ := exists_marks 'x' s.toList
  obtain ⟨j, upper⟩ := exists_marks 'X' (dropMarks '0' 'x' s.toList)
  rw [parse] at h
  match read : number (dropMarks '0' 'X' (dropMarks '0' 'x' s.toList)), h with
  | .ok n, h =>
    obtain ⟨signed, digits, rest, nonempty, extended⟩ := exists_sign read
    obtain ⟨all, same, fits⟩ := extend_eq_ok_iff.1 extended
    have written : Digits digits := ⟨nonempty, all⟩
    cases h
    refine ⟨⟨i, j, signed, digits, written⟩, ?_, ?_⟩
    · change marks 'x' i ++ (marks 'X' j ++ (sign signed ++ digits)) = _
      rw [rest, ← upper, ← lower]
    · rw [UInt32.toNat_ofNat_of_lt' fits, ← same]
      exact written.renders

/-- The texts that are accepted, and what they are read as. -/
theorem parse_eq_ok_iff (s : String) (v : UInt32) :
    parse s = .ok v ↔ ∃ f : Form, f.text = s.toList ∧ Renders v.toNat f.digits := by
  constructor
  · exact form_of_parse
  · rintro ⟨f, text, renders⟩
    rw [f.parse_text text, renders.value_eq, if_pos v.toNat_lt, UInt32.ofNat_toNat]

def single : List (List Char) := [[], ['0', 'x'], ['0', 'X']]

theorem mem_single_iff {mark : List Char} : mark ∈ single ↔
    ∃ lower upper, lower + upper ≤ 1 ∧ marks 'x' lower ++ marks 'X' upper = mark := by
  simp only [single, List.mem_cons, List.not_mem_nil, or_false]
  constructor
  · rintro (rfl | rfl | rfl)
    · exact ⟨0, 0, by decide, rfl⟩
    · exact ⟨1, 0, by decide, rfl⟩
    · exact ⟨0, 1, by decide, rfl⟩
  · rintro ⟨lower, upper, few, rfl⟩
    obtain ⟨rfl, rfl⟩ | ⟨rfl, rfl⟩ | ⟨rfl, rfl⟩ :
        lower = 0 ∧ upper = 0 ∨ lower = 1 ∧ upper = 0 ∨ lower = 0 ∧ upper = 1 := by omega
    · exact .inl rfl
    · exact .inr (.inl rfl)
    · exact .inr (.inr rfl)

/-- Behind no mark or one, every rendering of a number of 32 bits is read as this number. A larger
number is refused, however it is written, and so is a mark without digits. -/
theorem parse_renderings (mark : String) (known : mark ∈ ["", "0x", "0X"]) :
    (∀ (n : UInt32) (s : String), Renders n.toNat s.toList → parse (mark ++ s) = .ok n) ∧
    (∀ (n : Nat) (s : String), 0x100000000 ≤ n → Renders n s.toList →
      parse (mark ++ s) = .error .tooLarge) ∧
    parse mark = .error .noDigits := by
  simp only [List.mem_cons, List.not_mem_nil, or_false] at known
  have listed : mark.toList ∈ single := by
    rcases known with rfl | rfl | rfl
    all_goals decide
  obtain ⟨lower, upper, _, split⟩ := mem_single_iff.1 listed
  have text (s : String) (written : Digits s.toList) :
      (⟨lower, upper, false, s.toList, written⟩ : Form).text = (mark ++ s).toList := by
    rw [Form.text, String.toList_append, ← split, List.append_assoc]
    rfl
  refine ⟨fun n s renders => ?_, fun n s large renders => ?_, ?_⟩
  · exact (parse_eq_ok_iff _ n).2 ⟨_, text s renders.digits, renders⟩
  · rw [Form.parse_text _ (text s renders.digits), renders.value_eq, if_neg (Nat.not_lt.2 large)]
  · rcases known with rfl | rfl | rfl
    all_goals rfl

theorem mixedCase_renderings : "0X" ∈ ["", "0x", "0X"] ∧
    Renders (0xcafe : UInt32).toNat "00cAfE".toList ∧ parse ("0X" ++ "00cAfE") = .ok 0xcafe ∧
    Renders (0xffffffff : UInt32).toNat "0FFFFffff".toList ∧
    parse ("0X" ++ "0FFFFffff") = .ok 0xffffffff ∧
    Renders (0x100000000) "100000000".toList ∧ parse ("0X" ++ "100000000") = .error .tooLarge := by
  have known : "0X" ∈ ["", "0x", "0X"] := by decide
  have word : Renders (0xcafe : UInt32).toNat "00cAfE".toList := ⟨2, by decide⟩
  have last : Renders (0xffffffff : UInt32).toNat "0FFFFffff".toList := ⟨1, by decide⟩
  have large : Renders (0x100000000) "100000000".toList := ⟨0, by decide⟩
  obtain ⟨read, refused, _⟩ := parse_renderings "0X" known
  exact ⟨known, word, read _ _ word, last, read _ _ last, large,
    refused _ _ (Nat.le_refl _) large⟩

/-- Digits with at most one mark in front of them. -/
def Plain (s : List Char) : Prop := ∃ mark ∈ single, ∃ digits, mark ++ digits = s ∧ Digits digits

theorem any_single_iff {s : List Char} : (single.any fun mark =>
    mark.isPrefixOf s && decide (Digits (s.drop mark.length))) = true ↔ Plain s := by
  simp only [List.any_eq_true, Bool.and_eq_true, List.isPrefixOf_iff_prefix, decide_eq_true_eq]
  constructor
  · rintro ⟨mark, listed, ⟨rest, rfl⟩, written⟩
    rw [List.drop_left] at written
    exact ⟨mark, listed, rest, rfl, written⟩
  · rintro ⟨mark, listed, digits, rfl, written⟩
    exact ⟨mark, listed, List.prefix_append _ _, by rwa [List.drop_left]⟩

instance : DecidablePred Plain := fun _ => decidable_of_iff _ any_single_iff

def isMarkLetter (c : Char) : Bool := c = 'x' || c = 'X'

/-- The letters of more than one mark, or a sign. -/
def Loose (s : List Char) : Prop := 1 < s.countP isMarkLetter ∨ '+' ∈ s

instance (s : List Char) : Decidable (Loose s) := inferInstanceAs (Decidable (_ ∨ _))

theorem countP_marks {x : Char} (letter : isMarkLetter x = true) (k : Nat) :
    (marks x k).countP isMarkLetter = k := by
  induction k with
  | zero => rfl
  | succ k ih =>
    rw [marks_succ, List.countP_cons_of_neg (by decide), List.countP_cons_of_pos letter, ih]

theorem sign_not_mem_marks {x : Char} (letter : isMarkLetter x = true) (k : Nat) :
    '+' ∉ marks x k := by
  induction k with
  | zero => exact List.not_mem_nil
  | succ k ih =>
    rw [marks_succ, List.mem_cons, List.mem_cons, not_or, not_or]
    refine ⟨by decide, ?_, ih⟩
    rintro rfl
    cases letter

theorem countP_digits {s : List Char} (digits : Digits s) : s.countP isMarkLetter = 0 := by
  refine List.countP_eq_zero.2 fun c there letter => ?_
  simp only [isMarkLetter, Bool.or_eq_true, decide_eq_true_eq] at letter
  rcases letter with rfl | rfl
  · exact digits.not_mem rfl there
  · exact digits.not_mem rfl there

theorem Form.loose_text_iff (f : Form) :
    Loose f.text ↔ 1 < f.lower + f.upper ∨ f.signed = true := by
  have plus : (sign f.signed).countP isMarkLetter = 0 ∧
      ('+' ∈ sign f.signed ↔ f.signed = true) := by
    cases f.signed with
    | false => decide
    | true => decide
  have lower : isMarkLetter 'x' = true := rfl
  have upper : isMarkLetter 'X' = true := rfl
  rw [Loose, text, List.countP_append, List.countP_append, List.countP_append, countP_marks lower,
    countP_marks upper, plus.1, countP_digits f.written, List.mem_append, List.mem_append,
    List.mem_append, plus.2, or_iff_right (sign_not_mem_marks lower _),
    or_iff_right (sign_not_mem_marks upper _), or_iff_left (f.written.not_mem rfl)]
  rfl

theorem plain_iff {s : List Char} : Plain s ↔
    ∃ f : Form, f.text = s ∧ f.lower + f.upper ≤ 1 ∧ f.signed = false := by
  constructor
  · rintro ⟨mark, listed, digits, rfl, written⟩
    obtain ⟨lower, upper, few, rfl⟩ := mem_single_iff.1 listed
    exact ⟨⟨lower, upper, false, digits, written⟩, (List.append_assoc ..).symm, few, rfl⟩
  · rintro ⟨f, rfl, few, unsigned⟩
    refine ⟨_, mem_single_iff.2 ⟨f.lower, f.upper, few, rfl⟩, f.digits, ?_, f.written⟩
    rw [Form.text, unsigned, List.append_assoc]
    rfl

theorem Plain.not_loose {s : List Char} (h : Plain s) : ¬ Loose s := by
  obtain ⟨f, rfl, few, unsigned⟩ := plain_iff.1 h
  rw [f.loose_text_iff, unsigned]
  simp only [Bool.false_eq_true, or_false]
  exact Nat.not_lt.2 few

/-- What is accepted has a form and is read as the number behind its marks and its sign. A text that
is not plain is refused, unless it has a sign or the letters of more than one mark, and no such text
is plain. -/
theorem parse_accepts (s : String) :
    (∀ v, parse s = .ok v ↔ ∃ f : Form, f.text = s.toList ∧ Renders v.toNat f.digits) ∧
    (¬ Plain s.toList → ¬ Loose s.toList → ∃ e, parse s = .error e) ∧
    (Loose s.toList → ¬ Plain s.toList) := by
  refine ⟨parse_eq_ok_iff s, fun mistyped tight => ?_, fun loose plain => plain.not_loose loose⟩
  cases h : parse s with
  | error e => exact ⟨e, rfl⟩
  | ok v =>
    obtain ⟨f, text, renders⟩ := form_of_parse h
    rw [← text, f.loose_text_iff, not_or, Bool.not_eq_true] at tight
    exact absurd (plain_iff.2 ⟨f, text, Nat.le_of_not_lt tight.1, tight.2⟩) mistyped

theorem typed_accepts : (¬ Plain "0xCAFG".toList ∧ ¬ Loose "0xCAFG".toList ∧
      ∃ e, parse "0xCAFG" = .error e) ∧
    Renders (0xcafe : UInt32).toNat "CAFE".toList ∧ parse "0x0X+CAFE" = .ok 0xcafe ∧
    Loose "0x0X+CAFE".toList ∧ ¬ Plain "0x0X+CAFE".toList := by
  have letter : ¬ Plain "0xCAFG".toList := by decide
  have tight : ¬ Loose "0xCAFG".toList := by decide
  have word : Renders (0xcafe : UInt32).toNat "CAFE".toList := ⟨0, by decide⟩
  have loose : Loose "0x0X+CAFE".toList := by decide
  obtain ⟨_, refused, _⟩ := parse_accepts "0xCAFG"
  obtain ⟨read, _, mistyped⟩ := parse_accepts "0x0X+CAFE"
  exact ⟨⟨letter, tight, refused letter tight⟩, word,
    (read 0xcafe).2 ⟨⟨1, 1, true, "CAFE".toList, word.digits⟩, rfl, word⟩, loose, mistyped loose⟩

theorem mistyped_accepted : parse "0x0x1" = .ok 1 ∧ ¬ Plain "0x0x1".toList ∧
    parse "0x0X1" = .ok 1 ∧ ¬ Plain "0x0X1".toList ∧
    parse "+1" = .ok 1 ∧ ¬ Plain "+1".toList := by decide

end BootDisk.Serial
