import BootDisk.Proofs.Json.Shapes

set_option autoImplicit false

namespace BootDisk.Json

abbrev Member := String × List Char

namespace Shape

section Keyed
variable {σ : Type} (fields : List (Field σ)) (draft : List String → σ)

/-- The keys of the members that a record has fields for. -/
def knownKeys (members : List Member) : List String :=
  (members.map Prod.fst).filter fun key => key ∈ fields.map Field.name

/-- The member is the value of a field. What was read before it is known from the keys that were met. -/
def Sets (m : Member) : Prop :=
  ∃ f, fields.find? (·.name == m.1) = some f ∧
    ∀ seen, Takes (f.read (draft seen)) m.2 (draft (m.1 :: seen))

/-- The member is the value of a field, or it has another key. -/
def Settles (m : Member) : Prop :=
  Sets fields draft m ∨ (fields.find? (·.name == m.1) = none ∧ Written m.2)

variable {fields draft} {m : Member} {members : List Member} {seen : List String}
  {first : Bool} {s rest bound : List Char}

theorem key?_none (first : Bool) (rest : List Char) :
    key? first ('\x7d' :: rest) = .ok (none, rest) := rfl

theorem key?_first (name : String) (rest : List Char) :
    key? true (Text.write name ++ rest) = .ok (some name, rest) := by
  rw [Text.write_append]
  change (Text.read >>= fun name => pure (some name)) _ = _
  rw [Reader.bind_ok (Text.read_written name rest)]
  rfl

theorem key?_next (name : String) (rest : List Char) :
    key? false (',' :: (Text.write name ++ rest)) = .ok (some name, rest) := by
  rw [Text.write_append]
  change (Text.read >>= fun name => pure (some name)) _ = _
  rw [Reader.bind_ok (Text.read_written name rest)]
  rfl

theorem colon_run (rest : List Char) : colon (':' :: rest) = .ok ((), rest) := rfl

theorem find?_ne_none_iff {key : String} :
    fields.find? (·.name == key) ≠ none ↔ key ∈ fields.map Field.name := by
  rw [Ne, List.find?_eq_none, List.mem_map]
  simp only [beq_iff_eq, not_forall, not_not, exists_prop]

theorem knownKeys_known (h : m.1 ∈ fields.map Field.name) (members : List Member) :
    knownKeys fields (m :: members) = m.1 :: knownKeys fields members :=
  List.filter_cons_of_pos (decide_eq_true h)

theorem knownKeys_unknown (h : m.1 ∉ fields.map Field.name) (members : List Member) :
    knownKeys fields (m :: members) = knownKeys fields members :=
  List.filter_cons_of_neg (by rw [decide_eq_true_iff]; exact h)

theorem knownKeys_none (h : ∀ m ∈ members, m.1 ∉ fields.map Field.name) :
    knownKeys fields members = [] := by
  rw [knownKeys, List.filter_eq_nil_iff]
  intro key hk
  obtain ⟨m, hm, rfl⟩ := List.mem_map.1 hk
  rw [decide_eq_true_iff]
  exact h m hm

theorem keyed_member (settles : Settles fields draft m) (fresh : (knownKeys fields [m] ++ seen).Nodup)
    (key : key? first s = .ok (some m.1, ':' :: (m.2 ++ rest))) (delimited : Delimited rest)
    (b : Char) (bound : List Char) :
    keyed fields (b :: bound) first seen (draft seen) s =
      keyed fields bound false (knownKeys fields [m] ++ seen)
        (draft (knownKeys fields [m] ++ seen)) rest := by
  rw [keyed, Reader.bind_ok key]
  dsimp only
  rcases settles with ⟨f, found, takes⟩ | ⟨none, written⟩
  · have known : m.1 ∈ fields.map Field.name := find?_ne_none_iff.1 (by rw [found]; simp)
    rw [knownKeys_known known] at fresh ⊢
    have new : seen.contains m.1 = false := by
      rw [Bool.eq_false_iff, Ne, List.contains_iff_mem]
      exact (List.nodup_cons.1 fresh).1
    rw [found]
    dsimp only
    rw [new, if_neg Bool.false_ne_true]
    change (colon >>= fun _ => f.read (draft seen) >>= _) _ = _
    rw [Reader.bind_ok (colon_run _), Reader.bind_ok ((takes seen).reads rest delimited)]
    rfl
  · have unknown : m.1 ∉ fields.map Field.name := fun known => find?_ne_none_iff.2 known none
    rw [none, knownKeys_unknown unknown]
    dsimp only
    rw [Reader.bind_ok (colon_run _), Reader.bind_ok (Skip.value_written written delimited)]
    rfl

def closing (members : List Member) (rest : List Char) : List Char :=
  (members.map Printer.member).flatMap (',' :: ·) ++ '\x7d' :: rest

theorem delimited_closing (members : List Member) (rest : List Char) :
    Delimited (closing members rest) := Skip.delimited_items .object _ rest

theorem closing_cons (m : Member) (members : List Member) (rest : List Char) :
    closing (m :: members) rest =
      ',' :: (Text.write m.1 ++ ':' :: (m.2 ++ closing members rest)) := by
  rw [closing, List.map_cons, List.flatMap_cons, List.cons_append, List.cons_append,
    List.append_assoc, Printer.member, List.append_assoc, List.cons_append]
  rfl

theorem knownKeys_append_perm (fields : List (Field σ)) (m : Member) (members : List Member)
    (seen : List String) :
    (knownKeys fields (m :: members) ++ seen).Perm
      (knownKeys fields members ++ (knownKeys fields [m] ++ seen)) := by
  have whole : knownKeys fields (m :: members) = knownKeys fields [m] ++ knownKeys fields members := by
    rw [knownKeys, knownKeys, knownKeys, ← List.filter_append, ← List.map_append]
    rfl
  rw [whole, ← List.append_assoc]
  exact List.perm_append_comm.append_right seen

theorem keyed_run (settles : ∀ m ∈ members, Settles fields draft m)
    (fresh : (knownKeys fields members ++ seen).Nodup) (enough : members.length < bound.length)
    (rest : List Char) : ∃ keys, keys.Perm (knownKeys fields members ++ seen) ∧
      keyed fields bound false seen (draft seen) (closing members rest) =
        .ok (draft keys, rest) := by
  -- the keys met before are general: each member that has a field adds its own to them
  induction members generalizing bound seen with
  | nil =>
    match bound, enough with
    | b :: bound, _ =>
      refine ⟨seen, .refl _, ?_⟩
      rw [keyed]
      exact Reader.bind_ok (key?_none false rest)
  | cons m ms ih =>
    match bound, enough with
    | b :: bound, enough =>
      have perm := knownKeys_append_perm fields m ms seen
      have later := perm.nodup_iff.1 fresh
      obtain ⟨keys, met, run⟩ := ih (fun n hn => settles n (List.mem_cons_of_mem m hn)) later
        (Nat.lt_of_succ_lt_succ enough)
      refine ⟨keys, met.trans perm.symm, ?_⟩
      rw [closing_cons, keyed_member (settles m List.mem_cons_self) (List.nodup_append.1 later).2.1
        (key?_next _ _) (delimited_closing ms rest)]
      exact run

theorem length_lt_closing (front : List Char) (members : List Member) (rest : List Char) :
    members.length < (front ++ closing members rest).length := by
  have less := length_lt_commas front (members.map Printer.member) '\x7d' rest
  rw [List.length_map] at less
  exact less

theorem keyed_commas (settles : ∀ m ∈ members, Settles fields draft m)
    (fresh : (knownKeys fields members).Nodup) (rest : List Char) :
    ∃ keys, keys.Perm (knownKeys fields members) ∧
      keyed fields (Printer.commas (members.map Printer.member) ++ '\x7d' :: rest) true [] (draft [])
        (Printer.commas (members.map Printer.member) ++ '\x7d' :: rest) = .ok (draft keys, rest) := by
  cases members with
  | nil =>
    refine ⟨[], .refl _, ?_⟩
    change keyed fields ('\x7d' :: rest) true [] (draft []) ('\x7d' :: rest) = _
    rw [keyed]
    exact Reader.bind_ok (key?_none true rest)
  | cons m ms =>
    have perm := knownKeys_append_perm fields m ms []
    rw [List.append_nil (knownKeys fields (m :: ms))] at perm
    have later := perm.nodup_iff.1 fresh
    have text : Printer.commas ((m :: ms).map Printer.member) ++ '\x7d' :: rest =
        Printer.member m ++ closing ms rest := by
      rw [List.map_cons, commas_cons, List.append_assoc]
      rfl
    have key : key? true (Printer.member m ++ closing ms rest) =
        .ok (some m.1, ':' :: (m.2 ++ closing ms rest)) := by
      rw [Printer.member, List.append_assoc, List.cons_append]
      exact key?_first _ _
    obtain ⟨c, more, begins, _⟩ := begins_member m
    obtain ⟨keys, met, run⟩ := keyed_run (fun n hn => settles n (List.mem_cons_of_mem m hn)) later
      (length_lt_closing more ms rest) rest
    refine ⟨keys, met.trans perm.symm, ?_⟩
    rw [text]
    rw [begins, List.cons_append] at key ⊢
    rw [keyed_member (settles m List.mem_cons_self) (List.nodup_append.1 later).2.1 key
      (delimited_closing ms rest)]
    exact run

/-- A record is read from its members if what is known at their end makes a value. -/
theorem takes_record {α : Type} {finish : σ → Option α} {a : α}
    (settles : ∀ m ∈ members, Settles fields draft m) (fresh : (knownKeys fields members).Nodup)
    (finished : ∀ keys, keys.Perm (knownKeys fields members) → finish (draft keys) = some a) :
    Takes (record fields (draft []) finish) (Printer.object members) a := by
  refine ⟨begins_object members, fun rest _ => ?_⟩
  obtain ⟨keys, met, run⟩ := keyed_commas settles fresh rest
  rw [Printer.object, List.cons_append, List.cons_append, List.append_assoc, List.singleton_append]
  rw [record, Reader.bind_ok (toNext_cons rfl _), Reader.bind_ok (get_run _)]
  refine (Reader.bind_ok (set_run _ _)).trans ((Reader.bind_ok run).trans ?_)
  rw [finished keys met]
  rfl

end Keyed

end Shape

end BootDisk.Json
