import BootDisk.Json.Shape
import BootDisk.Proofs.Json.Values
import Mathlib.Data.List.Forall2

set_option autoImplicit false

namespace BootDisk.Json

/-- The reader takes the text for the value, whatever stands behind it. -/
structure Takes {α : Type} (r : Reader α) (text : List Char) (a : α) : Prop where
  begins : Begins text
  reads : ∀ rest, Delimited rest → r (text ++ rest) = .ok (a, rest)

theorem get_run (s : List Char) : (get : Reader (List Char)) s = .ok (s, s) := rfl

theorem set_run (s rest : List Char) : (set rest : Reader PUnit) s = .ok (⟨⟩, rest) := rfl

theorem toNext_cons {c : Char} (plain : isBlank c = false) (s : List Char) :
    Reader.toNext (c :: s) = .ok ((), c :: s) := by
  rw [Reader.toNext, skipBlanks_cons plain]

theorem toNext_begins {text : List Char} (h : Begins text) (rest : List Char) :
    Reader.toNext (text ++ rest) = .ok ((), text ++ rest) := by
  obtain ⟨c, more, rfl, plain, _⟩ := h
  exact toNext_cons plain _

section Takes
variable {α β : Type} {r : Reader α} {text : List Char} {a b : α}

theorem Takes.unique (h : Takes r text a) (k : Takes r text b) : a = b := by
  have same := (h.reads [] trivial).symm.trans (k.reads [] trivial)
  cases same
  rfl

theorem Takes.bind_pure (h : Takes r text a) (f : α → β) :
    Takes (do return f (← r)) text (f a) :=
  ⟨h.begins, fun rest delimited => Reader.bind_ok (h.reads rest delimited)⟩

theorem Takes.run (h : Takes r text a) : r.run (String.ofList text) = .ok a := by
  have read := h.reads [] trivial
  rw [List.append_nil] at read
  rw [Reader.run, String.toList_ofList]
  change (r text >>= _) = _
  rw [read]
  rfl

end Takes

namespace Shape

theorem takes_text (s : String) : Takes text (Printer.text s) s := by
  refine ⟨begins_text s, fun rest _ => ?_⟩
  rw [Printer.text, Text.write_append]
  exact Text.read_written s rest

theorem takes_bool (b : Bool) : Takes bool (Printer.bool b) b := by
  refine ⟨(Written.bool b).begins, fun rest _ => ?_⟩
  cases b with
  | true => rfl
  | false => rfl

theorem takes_word32 (n : UInt32) : Takes word32 (Printer.natural n.toNat) n := by
  refine ⟨begins_natural _, fun rest delimited => ?_⟩
  have fits : n.toNat < 0x100000000 := n.toNat_lt
  have read := Number.read_natural (n := n.toNat)
    (Nat.lt_trans fits (by decide)) delimited
  have next := toNext_begins (begins_natural n.toNat) rest
  obtain ⟨c, more, whole, digit⟩ := Number.natural_begins n.toNat
  rw [whole] at read next ⊢
  rw [word32, Reader.bind_ok next]
  change (if c = '-' ∨ Number.isDigit c = true then _ else _ : Reader UInt32) (c :: more ++ rest) = _
  rw [if_pos (.inr digit), Reader.bind_ok read]
  dsimp only
  rw [if_pos fits]
  exact congrArg (fun m => Except.ok (m, rest)) UInt32.ofNat_toNat

theorem takes_null {α : Type} (r : Reader α) : Takes (optional r) "null".toList none :=
  ⟨Written.null.begins, fun _ _ => rfl⟩

theorem takes_some {α : Type} {r : Reader α} {text : List Char} {a : α} (h : Takes r text a)
    (other : ∀ c ∈ text.head?, c ≠ 'n') : Takes (Shape.optional r) text (some a) := by
  refine ⟨h.begins, fun rest delimited => ?_⟩
  have read := h.reads rest delimited
  obtain ⟨c, more, rfl, plain, _⟩ := h.begins
  rw [Shape.optional, List.cons_append, skipBlanks_cons plain]
  split
  case h_1 same => exact absurd (List.cons.inj same).1 (other c rfl)
  case h_2 => exact Reader.map_ok some read

theorem takes_optional {α : Type} {r : Reader α} {write : α → List Char}
    (each : ∀ a, Takes r (write a) a ∧ ∀ c ∈ (write a).head?, c ≠ 'n') (o : Option α) :
    Takes (optional r) (Printer.optional write o) o := by
  cases o with
  | none => exact takes_null r
  | some a => exact takes_some (each a).1 (each a).2

section List
variable {α : Type} {item : Reader α} {t rest : List Char} {texts : List (List Char)} {as : List α}

theorem another_none (first : Bool) (rest : List Char) :
    another first (']' :: rest) = .ok (false, ']' :: rest) := rfl

theorem another_first (h : Begins t) (rest : List Char) :
    another true (t ++ rest) = .ok (true, t ++ rest) := by
  have next := toNext_begins h rest
  obtain ⟨c, more, rfl, _, inside⟩ := h
  rw [List.cons_append] at next ⊢
  rw [another, Reader.bind_ok next, Reader.bind_ok (get_run _)]
  refine congrFun (g := (pure true : Reader Bool)) ?_ _
  split
  case h_1 same => exact absurd (.inr (.inl (List.cons.inj same).1)) inside
  case h_2 same => exact absurd (.inl (List.cons.inj same).1) inside
  case h_3 => rfl

theorem another_next (h : Begins t) (rest : List Char) :
    another false (',' :: (t ++ rest)) = .ok (true, t ++ rest) := by
  have next := toNext_begins h rest
  obtain ⟨c, more, rfl, _, inside⟩ := h
  rw [List.cons_append] at next ⊢
  change (Reader.toNext >>= fun _ => get >>= _) (c :: (more ++ rest)) = _
  rw [Reader.bind_ok next, Reader.bind_ok (get_run _)]
  refine congrFun (g := (pure true : Reader Bool)) ?_ _
  split
  case h_1 same => exact absurd (.inr (.inl (List.cons.inj same).1)) inside
  case h_2 => rfl

theorem delimited_texts (texts : List (List Char)) (rest : List Char) :
    Delimited (texts.flatMap (',' :: ·) ++ ']' :: rest) := Skip.delimited_items .list texts rest

theorem items_run (each : List.Forall₂ (Takes item) texts as) {bound : List Char}
    (enough : texts.length < bound.length) {got : List α} (behind : got ≠ []) (rest : List Char) :
    items item bound got (texts.flatMap (',' :: ·) ++ ']' :: rest) =
      .ok (got.reverse ++ as, ']' :: rest) := by
  have later : got.isEmpty = false := by
    rw [Bool.eq_false_iff, Ne, List.isEmpty_iff]
    exact behind
  -- the items read before are general; behind the first one, a comma stands before each
  induction each generalizing bound got with
  | nil =>
    match bound, enough with
    | b :: bound, _ =>
      rw [items, List.flatMap_nil, List.nil_append, Reader.bind_ok (another_none _ rest),
        List.append_nil]
      rfl
  | @cons t a ts as takes _ ih =>
    match bound, enough with
    | b :: bound, enough =>
      have more := another_next takes.begins (ts.flatMap (',' :: ·) ++ ']' :: rest)
      have read := takes.reads _ (delimited_texts ts rest)
      rw [List.flatMap_cons, List.cons_append, List.cons_append, List.append_assoc, items, later,
        Reader.bind_ok more, if_pos rfl, Reader.bind_ok read,
        ih (Nat.lt_of_succ_lt_succ enough) (List.cons_ne_nil a got) rfl, List.reverse_cons,
        List.append_assoc, List.singleton_append]

theorem items_commas (each : List.Forall₂ (Takes item) texts as) (rest : List Char) :
    items item (Printer.commas texts ++ ']' :: rest) [] (Printer.commas texts ++ ']' :: rest) =
      .ok (as, ']' :: rest) := by
  cases each with
  | nil => rfl
  | @cons t a ts as takes each =>
    have first := another_first takes.begins (ts.flatMap (',' :: ·) ++ ']' :: rest)
    have read := takes.reads _ (delimited_texts ts rest)
    rw [commas_cons, List.append_assoc]
    obtain ⟨c, more, rfl, _⟩ := takes.begins
    rw [List.cons_append] at first read ⊢
    rw [items, List.isEmpty_nil, Reader.bind_ok first, if_pos rfl, Reader.bind_ok read]
    exact items_run each (length_lt_commas more ts ']' rest) (List.cons_ne_nil a []) rest

theorem takes_list (each : List.Forall₂ (Takes item) texts as) :
    Takes (list item) (Printer.list texts) as := by
  refine ⟨begins_list texts, fun rest _ => ?_⟩
  rw [Printer.list, List.cons_append, List.cons_append, List.append_assoc, List.singleton_append]
  change (items item _ [] >>= fun got => close >>= fun _ => pure got) _ = _
  rw [Reader.bind_ok (items_commas each rest)]
  rfl

end List

end Shape

end BootDisk.Json
