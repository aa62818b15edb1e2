import BootDisk.Proofs.Json.Numbers

set_option autoImplicit false

/-!
# Values as they are written

Every JSON value that is written without blanks is passed over as a whole, however deep it is. One
token is taken at a time, so the way through a list or an object is made of the ways through its items.
-/
namespace BootDisk.Json

/-- The texts of all values, written without blanks. -/
inductive Written : List Char → Prop
  | null : Written "null".toList
  | bool (b : Bool) : Written (Printer.bool b)
  | number (n : Number.Numeral) : Written n.write
  | text (s : String) : Written (Printer.text s)
  | list (items : List (List Char)) : (∀ t ∈ items, Written t) → Written (Printer.list items)
  | object (members : List (String × List Char)) :
      (∀ m ∈ members, Written m.2) → Written (Printer.object members)

def Begins (text : List Char) : Prop :=
  ∃ c more, text = c :: more ∧ isBlank c = false ∧ ¬ Delimited text

theorem begins_cons {c : Char} (plain : isBlank c = false) (other : c ∉ [',', ']', '\x7d'])
    (more : List Char) : Begins (c :: more) := by
  simp only [List.mem_cons, List.not_mem_nil, or_false] at other
  exact ⟨c, more, rfl, plain, other⟩

theorem skipBlanks_cons {c : Char} (plain : isBlank c = false) (s : List Char) :
    skipBlanks (c :: s) = c :: s :=
  List.dropWhile_cons_of_neg (by rw [plain]; exact Bool.false_ne_true)

theorem commas_cons (t : List Char) (ts : List (List Char)) :
    Printer.commas (t :: ts) = t ++ ts.flatMap (',' :: ·) := by
  induction ts generalizing t with
  | nil => rw [Printer.commas, List.intercalate_singleton, List.flatMap_nil, List.append_nil]
  | cons u us ih =>
    rw [Printer.commas, List.intercalate_cons_cons, List.append_assoc, List.flatMap_cons]
    exact congrArg (t ++ ',' :: ·) (ih u)

theorem start_ne {c : Char} {l : List Char} (start : c = '-' ∨ Number.isDigit c = true)
    (others : l.all (fun d => d != '-' && !Number.isDigit d) = true) : ∀ d ∈ l, c ≠ d := by
  rintro d hd rfl
  have other := List.all_eq_true.1 others c hd
  rw [Bool.and_eq_true, bne_iff_ne, Bool.not_eq_true'] at other
  rcases start with rfl | digit
  · exact other.1 rfl
  · rw [other.2] at digit
    cases digit

theorem plain_of_start {c : Char} (start : c = '-' ∨ Number.isDigit c = true) :
    isBlank c = false := by
  have ne := start_ne (l := [' ', '\t', '\n', '\r']) start rfl
  simp only [List.mem_cons, List.not_mem_nil, or_false, forall_eq_or_imp, forall_eq] at ne
  simp only [isBlank, Bool.or_eq_false_iff, beq_eq_false_iff_ne]
  exact ⟨⟨⟨ne.1, ne.2.1⟩, ne.2.2.1⟩, ne.2.2.2⟩

theorem begins_of_start {c : Char} (start : c = '-' ∨ Number.isDigit c = true) (more : List Char) :
    Begins (c :: more) :=
  begins_cons (plain_of_start start)
    (fun inside => start_ne (l := [',', ']', '\x7d']) start rfl c inside rfl) more

theorem begins_natural (n : Nat) : Begins (Printer.natural n) := by
  obtain ⟨c, more, whole, digit⟩ := Number.natural_begins n
  rw [whole]
  exact begins_of_start (.inr digit) more

theorem numeral_cases (n : Number.Numeral) : ∃ c more, n.write = c :: more ∧
    (c = '-' ∨ Number.isDigit c = true) ∧
    ∀ rest, (if c = '-' then more ++ rest else c :: (more ++ rest)) = n.unsigned ++ rest := by
  obtain ⟨c, more, whole, digit⟩ := Number.natural_begins n.whole
  have other : c ≠ '-' := by
    rintro rfl
    cases digit
  rw [Number.Numeral.write]
  cases n.negative with
  | true => exact ⟨'-', n.unsigned, rfl, .inl rfl, fun _ => rfl⟩
  | false =>
    refine ⟨c, more ++ (Number.Digits.fraction n.fraction ++ Number.Exponent.write n.exponent), ?_,
      .inr digit, ?_⟩
    · rw [if_neg Bool.false_ne_true, Number.Numeral.unsigned, whole]
      rfl
    · intro rest
      rw [if_neg other, Number.Numeral.unsigned, whole]
      rfl

theorem begins_text (s : String) : Begins (Printer.text s) := begins_cons rfl (by decide) _

theorem begins_member (m : String × List Char) : Begins (Printer.member m) :=
  begins_cons rfl (by decide) _

theorem begins_list (items : List (List Char)) : Begins (Printer.list items) :=
  begins_cons rfl (by decide) _

theorem begins_object (members : List (String × List Char)) : Begins (Printer.object members) :=
  begins_cons rfl (by decide) _

theorem Written.begins {t : List Char} (h : Written t) : Begins t := by
  cases h with
  | null => exact begins_cons rfl (by decide) _
  | bool b =>
    cases b with
    | true => exact begins_cons rfl (by decide) _
    | false => exact begins_cons rfl (by decide) _
  | number n =>
    obtain ⟨c, more, whole, start, _⟩ := numeral_cases n
    rw [whole]
    exact begins_of_start start more
  | text s => exact begins_text s
  | list items => exact begins_list items
  | object members => exact begins_object members

theorem length_lt_commas (front : List Char) (texts : List (List Char)) (c : Char)
    (rest : List Char) :
    texts.length < (front ++ (texts.flatMap (',' :: ·) ++ c :: rest)).length := by
  induction texts with
  | nil =>
    simp only [List.length_nil, List.flatMap_nil, List.length_append, List.length_cons]
    omega
  | cons t ts ih =>
    simp only [List.flatMap_cons, List.cons_append, List.length_cons, List.length_append] at ih ⊢
    omega

namespace Skip

/-- Step by step, each of which takes something, one state leads to another. -/
inductive Leads : State → State → Prop
  | refl (s : State) : Leads s s
  | step {s m t : State} : s.done = false → step s = .ok m → m.rest.length < s.rest.length →
      Leads m t → Leads s t

variable {s t u : State} {opened : List Bracket} {rest more : List Char} {c : Char}

theorem Leads.single (unfinished : s.done = false) (h : Skip.step s = .ok t)
    (less : t.rest.length < s.rest.length) : Leads s t := .step unfinished h less (.refl t)

theorem Leads.trans (h : Leads s t) (k : Leads t u) : Leads s u := by
  induction h with
  | refl => exact k
  | step unfinished run less _ ih => exact .step unfinished run less (ih k)

theorem steps_of_leads (h : Leads s t) (finished : t.done = true) {bound : List Char}
    (enough : s.rest.length ≤ bound.length) : steps bound s = .ok t.rest := by
  -- each step takes a character, so the bound lasts as long as the text
  induction h generalizing bound with
  | refl s =>
    cases bound with
    | nil => rw [steps, if_pos finished]
    | cons b bound => rw [steps, if_pos finished]
  | step unfinished run less _ ih =>
    cases bound with
    | nil => exact absurd (Nat.lt_of_lt_of_le less enough) (Nat.not_lt_zero _)
    | cons b bound =>
      rw [steps, unfinished, if_neg Bool.false_ne_true, run]
      exact ih finished (Nat.lt_succ_iff.1 (Nat.lt_of_lt_of_le less enough))

theorem step_text (h : Text.skip more = .ok ((), rest)) :
    step ⟨.value, opened, '"' :: more⟩ = .ok ⟨.after, opened, rest⟩ := by
  change (Text.skip more >>= fun p => pure _) = _
  rw [h]
  rfl

theorem step_number (start : c = '-' ∨ Number.isDigit c = true)
    (h : Number.skip (if c = '-' then more else c :: more) = .ok rest) :
    step ⟨.value, opened, c :: more⟩ = .ok ⟨.after, opened, rest⟩ := by
  have ne := start_ne (l := ['n', 't', 'f', '"', '[', '\x7b']) start rfl
  simp only [List.mem_cons, List.not_mem_nil, or_false, forall_eq_or_imp, forall_eq] at ne
  obtain ⟨n, t, f, quote, list, object⟩ := ne
  rw [step, skipBlanks_cons (plain_of_start start)]
  dsimp only
  rw [if_neg n, if_neg t, if_neg f, if_neg quote, if_neg list, if_neg object, if_pos start, h]
  rfl

theorem step_key (h : Text.skip more = .ok ((), ':' :: rest)) :
    step ⟨.key, opened, '"' :: more⟩ = .ok ⟨.value, opened, rest⟩ := by
  change (Text.skip more >>= fun p => _) = _
  rw [h]
  rfl

theorem step_comma (b : Bracket) :
    step ⟨.after, b :: opened, ',' :: rest⟩ = .ok ⟨b.item, b :: opened, rest⟩ := rfl

theorem step_close (b : Bracket) :
    step ⟨.after, b :: opened, b.close :: rest⟩ = .ok ⟨.after, opened, rest⟩ := by
  cases b with
  | list => rfl
  | object => rfl

def Bracket.opening : Bracket → Char
  | list => '['
  | object => '\x7b'

theorem step_open (b : Bracket) : step ⟨.value, opened, b.opening :: rest⟩ = enter b opened rest := by
  cases b with
  | list => rfl
  | object => rfl

theorem enter_nil (b : Bracket) : enter b opened (b.close :: rest) = .ok ⟨.after, opened, rest⟩ := by
  cases b with
  | list => rfl
  | object => rfl

theorem enter_begins {b : Bracket} (h : Begins more) :
    enter b opened (more ++ rest) = .ok ⟨b.item, b :: opened, more ++ rest⟩ := by
  obtain ⟨c, others, rfl, plain, inside⟩ := h
  have other : c ≠ b.close := by
    rintro rfl
    cases b with
    | list => exact inside (.inr (.inl rfl))
    | object => exact inside (.inr (.inr rfl))
  rw [List.cons_append, enter, skipBlanks_cons plain]
  exact if_neg other

/-- The text is passed over as one value, or as one member if a key is expected. -/
def Passes (expect : Expect) (text : List Char) : Prop :=
  ∀ opened rest, Delimited rest → Leads ⟨expect, opened, text ++ rest⟩ ⟨.after, opened, rest⟩

theorem length_lt_append {text : List Char} (h : Begins text) (rest : List Char) :
    rest.length < (text ++ rest).length := by
  obtain ⟨c, more, rfl, _⟩ := h
  rw [List.cons_append, List.length_cons, List.length_append]
  omega

theorem delimited_close (b : Bracket) (rest : List Char) : Delimited (b.close :: rest) := by
  cases b with
  | list => exact .inr (.inl rfl)
  | object => exact .inr (.inr rfl)

theorem delimited_items (b : Bracket) (texts : List (List Char)) (rest : List Char) :
    Delimited (texts.flatMap (',' :: ·) ++ b.close :: rest) := by
  cases texts with
  | nil => exact delimited_close b rest
  | cons t ts => exact .inl rfl

theorem leads_items (b : Bracket) {texts : List (List Char)} (each : ∀ t ∈ texts, Passes b.item t)
    (opened : List Bracket) (rest : List Char) :
    Leads ⟨.after, b :: opened, texts.flatMap (',' :: ·) ++ b.close :: rest⟩
      ⟨.after, opened, rest⟩ := by
  induction texts with
  | nil => exact .single rfl (step_close b) (Nat.lt_succ_self _)
  | cons t ts ih =>
    have item := each t List.mem_cons_self (b :: opened) _ (delimited_items b ts rest)
    rw [List.flatMap_cons, List.cons_append, List.cons_append, List.append_assoc]
    exact .step rfl (step_comma b) (Nat.lt_succ_self _)
      (item.trans (ih fun u hu => each u (List.mem_cons_of_mem t hu)))

theorem passes_bracket (b : Bracket) {texts : List (List Char)}
    (each : ∀ t ∈ texts, Passes b.item t ∧ Begins t) :
    Passes .value (b.opening :: Printer.commas texts ++ [b.close]) := by
  intro opened rest _
  rw [List.cons_append, List.cons_append, List.append_assoc, List.singleton_append]
  cases texts with
  | nil =>
    refine .single rfl ((step_open b).trans (enter_nil b)) ?_
    exact Nat.lt_succ_of_lt (Nat.lt_succ_self _)
  | cons t ts =>
    obtain ⟨item, begins⟩ := each t List.mem_cons_self
    rw [commas_cons, List.append_assoc]
    refine .step rfl ((step_open b).trans (enter_begins begins)) (Nat.lt_succ_self _) ?_
    exact (item (b :: opened) _ (delimited_items b ts rest)).trans
      (leads_items b (fun u hu => (each u (List.mem_cons_of_mem t hu)).1) opened rest)

theorem passes_token {text : List Char} (begins : Begins text)
    (h : ∀ opened rest, Delimited rest →
      step ⟨.value, opened, text ++ rest⟩ = .ok ⟨.after, opened, rest⟩) : Passes .value text :=
  fun opened rest delimited => .single rfl (h opened rest delimited) (length_lt_append begins rest)

theorem passes_member {m : String × List Char} (h : Passes .value m.2) :
    Passes .key (Printer.member m) := by
  intro opened rest delimited
  have key : step ⟨.key, opened, Text.write m.1 ++ ':' :: (m.2 ++ rest)⟩ =
      .ok ⟨.value, opened, m.2 ++ rest⟩ := by
    rw [Text.write_append]
    exact step_key (Text.skip_written _ _)
  rw [Printer.member, List.append_assoc, List.cons_append]
  refine .step rfl key ?_ (h opened rest delimited)
  simp only [List.length_append, List.length_cons]
  omega

theorem passes_written {text : List Char} (h : Written text) : Passes .value text := by
  induction h with
  | null => exact passes_token Written.null.begins fun _ _ _ => rfl
  | bool b =>
    cases b with
    | true => exact passes_token (Written.bool true).begins fun _ _ _ => rfl
    | false => exact passes_token (Written.bool false).begins fun _ _ _ => rfl
  | number n =>
    refine passes_token (Written.number n).begins fun opened rest delimited => ?_
    obtain ⟨c, more, whole, start, unsigned⟩ := numeral_cases n
    rw [whole, List.cons_append]
    refine step_number start ?_
    rw [unsigned]
    exact Number.skip_write n delimited
  | text s =>
    refine passes_token (begins_text s) fun opened rest _ => ?_
    rw [Printer.text, Text.write_append]
    exact step_text (Text.skip_written _ _)
  | list items written ih =>
    exact passes_bracket .list fun t ht => ⟨ih t ht, (written t ht).begins⟩
  | object members written ih =>
    refine passes_bracket .object fun t ht => ?_
    obtain ⟨m, hm, rfl⟩ := List.mem_map.1 ht
    exact ⟨passes_member (ih m hm), begins_member m⟩

/-- Every written value is passed over, whatever stands behind it. -/
theorem value_written {text rest : List Char} (h : Written text) (delimited : Delimited rest) :
    value (text ++ rest) = .ok ((), rest) := by
  have passed := steps_of_leads (passes_written h [] rest delimited) rfl (Nat.le_refl _)
  change (steps (text ++ rest) ⟨.value, [], text ++ rest⟩ >>= fun s => pure ((), s)) = _
  rw [passed]
  rfl

end Skip

end BootDisk.Json
