import BootDisk.Install
import Mathlib.Data.List.DropRight

set_option autoImplicit false

/-!
# The parent of a path

A parent is a text again. Segments that name nothing may be left out of it or come back as an empty
one at its end, so the parent of a path and the segments before its last one are spelled differently;
they agree up to such segments.
-/
namespace BootDisk

namespace Path

section Split
variable {s piece : List Char} {pieces : List (List Char)}

theorem split_ne_nil (s : List Char) : split s ≠ [] := by
  cases s with
  | nil => simp [split]
  | cons c rest =>
    rw [split]
    split
    · simp
    · split <;> simp

theorem split_separator (rest : List Char) : split (separator :: rest) = [] :: split rest := by
  rw [split]
  match h : split rest with
  | [] => exact absurd h (split_ne_nil rest)
  | piece :: pieces => rfl

theorem split_cons {c : Char} (other : c ≠ separator) (h : split s = piece :: pieces) :
    split (c :: s) = (c :: piece) :: pieces := by
  rw [split, h]
  exact if_neg other

theorem split_piece (plain : separator ∉ piece) : split piece = [piece] := by
  induction piece with
  | nil => rfl
  | cons c rest ih =>
    rw [List.mem_cons, not_or] at plain
    exact split_cons (Ne.symm plain.1) (ih plain.2)

theorem split_append (s rest : List Char) :
    split (s ++ separator :: rest) = split s ++ split rest := by
  induction s with
  | nil => exact split_separator rest
  | cons c tail ih =>
    match known : split tail with
    | [] => exact absurd known (split_ne_nil tail)
    | first :: others =>
      rw [known, List.cons_append] at ih
      by_cases same : c = separator
      · subst same
        rw [List.cons_append, split_separator, split_separator, ih, known]
        rfl
      · rw [List.cons_append, split_cons same ih, split_cons same known]
        rfl

theorem separator_not_mem (h : piece ∈ split s) : separator ∉ piece := by
  induction s generalizing piece with
  | nil =>
    rw [split, List.mem_singleton] at h
    rw [h]
    exact List.not_mem_nil
  | cons c rest ih =>
    match tail : split rest with
    | [] => exact absurd tail (split_ne_nil rest)
    | first :: others =>
      by_cases same : c = separator
      · subst same
        rw [split_separator] at h
        rcases List.mem_cons.1 h with rfl | later
        · exact List.not_mem_nil
        · exact ih later
      · rw [split_cons same tail] at h
        rcases List.mem_cons.1 h with rfl | later
        · rw [List.mem_cons, not_or]
          exact ⟨Ne.symm same, ih (by rw [tail]; simp)⟩
        · exact ih (by rw [tail]; simp [later])

theorem split_intercalate (nonempty : pieces ≠ []) (plain : ∀ p ∈ pieces, separator ∉ p) :
    split (List.intercalate [separator] pieces) = pieces := by
  induction pieces with
  | nil => exact absurd rfl nonempty
  | cons p rest ih =>
    have here := plain p (by simp)
    cases rest with
    | nil =>
      rw [List.intercalate_singleton]
      exact split_piece here
    | cons q others =>
      rw [List.intercalate_cons_cons, List.append_assoc, List.singleton_append,
        split_append, split_piece here, ih (by simp) fun r hr => plain r (by simp [hr])]
      rfl

theorem intercalate_split (s : List Char) : List.intercalate [separator] (split s) = s := by
  induction s with
  | nil => rfl
  | cons c rest ih =>
    match tail : split rest with
    | [] => exact absurd tail (split_ne_nil rest)
    | first :: others =>
      by_cases same : c = separator
      · subst same
        rw [split_separator, tail, List.intercalate_cons_cons, ← tail, ih]
        rfl
      · rw [split_cons same tail]
        rw [tail] at ih
        cases others with
        | nil =>
          rw [List.intercalate_singleton] at ih ⊢
          rw [ih]
        | cons q more =>
          rw [List.intercalate_cons_cons] at ih ⊢
          rw [← ih]
          rfl

end Split

section Characters
variable {c : Char} {pieces : List (List Char)}

theorem mem_intercalate (h : c ∈ List.intercalate [separator] pieces) :
    c = separator ∨ ∃ p ∈ pieces, c ∈ p := by
  induction pieces with
  | nil =>
    rw [List.intercalate_nil] at h
    cases h
  | cons p rest ih =>
    cases rest with
    | nil =>
      rw [List.intercalate_singleton] at h
      exact .inr ⟨p, by simp, h⟩
    | cons q others =>
      rw [List.intercalate_cons_cons, List.mem_append, List.mem_append, List.mem_singleton] at h
      obtain (here | here) | later := h
      · exact .inr ⟨p, by simp, here⟩
      · exact .inl here
      · exact (ih later).imp_right fun ⟨r, hr, inside⟩ => ⟨r, by simp [hr], inside⟩

theorem mem_intercalate_of_mem {piece : List Char} (h : piece ∈ pieces) (inside : c ∈ piece) :
    c ∈ List.intercalate [separator] pieces := by
  induction pieces with
  | nil => cases h
  | cons p rest ih =>
    cases rest with
    | nil =>
      rw [List.mem_singleton] at h
      rw [List.intercalate_singleton, ← h]
      exact inside
    | cons q others =>
      rw [List.intercalate_cons_cons, List.mem_append, List.mem_append]
      rcases List.mem_cons.1 h with rfl | later
      · exact .inl (.inl inside)
      · exact .inr (ih later)

theorem hasNul_eq_false_iff {p : Path} : p.hasNul = false ↔ '\x00' ∉ p.text.toList := by
  rw [hasNul, Bool.eq_false_iff, Ne, List.contains_iff_mem]

theorem mem_join {p q : Path} (h : c ∈ q.text.toList) : c ∈ (p.join q).text.toList := by
  rw [join]
  by_cases absolute : q.isAbsolute = true
  · rw [if_pos absolute]
    exact h
  · rw [if_neg absolute]
    dsimp only
    split
    · rw [String.toList_append]
      exact List.mem_append_right _ h
    · rw [String.toList_append]
      exact List.mem_append_right _ h

theorem hasNul_join {p q : Path} (left : p.hasNul = false) (right : q.hasNul = false) :
    (p.join q).hasNul = false := by
  rw [hasNul_eq_false_iff] at left right ⊢
  rw [join]
  by_cases absolute : q.isAbsolute = true
  · rw [if_pos absolute]
    exact right
  · rw [if_neg absolute]
    dsimp only
    by_cases joined : (p.text.toList.isEmpty || p.text.toList.getLast? == some separator) = true
    · rw [if_pos joined]
      simp only [String.toList_append, List.mem_append, not_or]
      exact ⟨left, right⟩
    · rw [if_neg joined]
      simp only [String.toList_append, List.mem_append, not_or]
      exact ⟨⟨left, by decide⟩, right⟩

end Characters

/-- The pieces without those at the end that name nothing. -/
abbrev trimmed (pieces : List (List Char)) : List (List Char) := pieces.rdropWhile isIdle

theorem parent?_eq {p : Path} {front body name : List Char} {before : List (List Char)}
    (cut : lead p.text.toList = (front, body)) (pieces : split body = before ++ [name])
    (named : isIdle name = false) : p.parent? =
    some ⟨String.ofList (front ++ List.intercalate [separator] (trimmed before))⟩ := by
  have reverse : (split body).reverse.dropWhile isIdle = name :: before.reverse := by
    rw [pieces, List.reverse_append, List.reverse_singleton, List.singleton_append,
      List.dropWhile_cons_of_neg (by rw [named]; exact Bool.false_ne_true)]
  rw [parent?, cut]
  dsimp only
  rw [reverse]
  rfl

theorem lead_cases (s : List Char) :
    (∃ rest, s = separator :: rest ∧ lead s = ([separator], rest)) ∨ s = ['.'] ∨
    (∃ rest, s = '.' :: separator :: rest ∧ lead s = (['.'], separator :: rest)) ∨
    lead s = ([], s) ∧ s.head? ≠ some separator := by
  match s with
  | [] => exact .inr (.inr (.inr ⟨rfl, by simp⟩))
  | c :: rest =>
    by_cases slash : c = separator
    · subst slash
      exact .inl ⟨rest, rfl, rfl⟩
    · have head : (c :: rest).head? ≠ some separator := by simpa using slash
      by_cases dot : c = '.'
      · subst dot
        match rest with
        | [] => exact .inr (.inl rfl)
        | d :: more =>
          by_cases next : d = separator
          · subst next
            exact .inr (.inr (.inl ⟨more, rfl, rfl⟩))
          · refine .inr (.inr (.inr ⟨?_, head⟩))
            unfold lead
            split <;> simp_all [separator]
      · refine .inr (.inr (.inr ⟨?_, head⟩))
        unfold lead
        split <;> simp_all [separator]

theorem idle_ofList {piece : List Char} (h : isIdle piece = true) :
    String.ofList piece = "" ∨ String.ofList piece = "." := by
  rw [isIdle, Bool.or_eq_true, beq_iff_eq, beq_iff_eq] at h
  rcases h with rfl | rfl
  · exact .inl rfl
  · exact .inr rfl

/-- Two spellings that agree up to segments at the end that name nothing. -/
structure SameWay (left right : List (List Char)) : Prop where
  agree : ∃ common, ∃ l r, left = common ++ l ∧ right = common ++ r ∧
    (∀ s ∈ l, isIdle s = true) ∧ ∀ s ∈ r, isIdle s = true

theorem trimmed_plain {s : List Char} {before : List (List Char)} {name : List Char}
    (pieces : split s = before ++ [name]) : ∀ p ∈ trimmed before, separator ∉ p := by
  intro p hp
  apply separator_not_mem (s := s)
  rw [pieces]
  exact List.mem_append_left _ ((List.rdropWhile_prefix _ _).subset hp)

theorem idle_of_trimmed {pieces : List (List Char)} (h : trimmed pieces = []) :
    ∀ s ∈ pieces, isIdle s = true := List.rdropWhile_eq_nil_iff.1 h

/-- What is trimmed away are segments that name nothing, and the last one that is kept does name
something. -/
theorem trimmed_cases (pieces : List (List Char)) : trimmed pieces = [] ∨
    ∃ rest, pieces = trimmed pieces ++ rest ∧ (∀ s ∈ rest, isIdle s = true) ∧
      trimmed pieces ≠ [[]] ∧ trimmed pieces ≠ [] := by
  by_cases none : trimmed pieces = []
  · exact .inl none
  · refine .inr ⟨pieces.rtakeWhile isIdle, List.rdropWhile_append_rtakeWhile.symm,
      fun _ hs => List.mem_rtakeWhile_imp hs, ?_, none⟩
    intro single
    have last := List.rdropWhile_last_not isIdle pieces none
    simp only [single, List.getLast_singleton] at last
    exact last rfl

theorem sameWay_split {s name : List Char} {before : List (List Char)} (front : List (List Char))
    (pieces : split s = before ++ [name]) : SameWay (front ++ before)
      (front ++ split (List.intercalate [separator] (trimmed before))) := by
  obtain none | ⟨rest, whole, idle, _, some⟩ := trimmed_cases before
  · rw [none]
    exact ⟨front, before, [[]], rfl, rfl, idle_of_trimmed none, by simp [isIdle]⟩
  · rw [split_intercalate some (trimmed_plain pieces)]
    exact ⟨front ++ trimmed before, rest, [], by rw [List.append_assoc, ← whole],
      (List.append_nil _).symm, idle, by simp⟩

theorem head_of_split {s : List Char} {rest : List (List Char)} (h : split s = [] :: rest)
    (more : rest ≠ []) : s.head? = some separator := by
  cases s with
  | nil => exact absurd (List.cons.inj h).2.symm more
  | cons c tail =>
    by_cases same : c = separator
    · rw [same]
      rfl
    · match next : split tail with
      | [] => exact absurd next (split_ne_nil tail)
      | piece :: pieces =>
        rw [split_cons same next] at h
        cases h

theorem eq_of_single {first name : List Char} {before : List (List Char)}
    (h : [first] = before ++ [name]) : name = first := by
  cases before with
  | nil => exact (List.cons.inj h).1.symm
  | cons b tail => exact absurd (List.cons.inj h).2 (by simp)

theorem split_cons_eq {first name : List Char} {rest before : List (List Char)}
    (h : first :: rest = before ++ [name]) (more : rest ≠ []) :
    ∃ tail, before = first :: tail ∧ rest = tail ++ [name] := by
  cases before with
  | nil => exact absurd (List.cons.inj h).2 more
  | cons b tail =>
    obtain ⟨rfl, same⟩ := List.cons.inj h
    exact ⟨tail, rfl, same⟩

end Path

namespace Install
open BootDisk.Path

variable {p : Path} {before : List (List Char)} {name : List Char}

theorem directoryOf_cons {c : Char} {rest : List Char}
    (h : p.parent? = some ⟨String.ofList (c :: rest)⟩) :
    directoryOf p = ⟨String.ofList (c :: rest)⟩ := by
  have nonempty : (String.ofList (c :: rest)).isEmpty = false := by
    rw [Bool.eq_false_iff, Ne, String.isEmpty_iff, String.ofList_eq_empty_iff]
    exact List.cons_ne_nil c rest
  rw [directoryOf, h]
  dsimp only
  rw [nonempty, if_neg Bool.false_ne_true]

theorem directoryOf_nil (h : p.parent? = some ⟨String.ofList []⟩) : directoryOf p = ⟨"."⟩ := by
  rw [directoryOf, h]
  rfl

theorem isAbsolute_ofList (s : List Char) :
    isAbsolute ⟨String.ofList s⟩ = (s.head? == some separator) := by
  rw [isAbsolute, String.toList_ofList]

/-- The directory of a path starts where the path does, and leads where these segments lead. -/
structure Follows (p : Path) (before : List (List Char)) : Prop where
  start : (directoryOf p).isAbsolute = p.isAbsolute
  way : SameWay before (split (directoryOf p).text.toList)

theorem follows_absolute {rest : List Char} (text : p.text.toList = separator :: rest)
    (cut : lead p.text.toList = ([separator], rest))
    (pieces : split p.text.toList = before ++ [name]) (named : isIdle name = false) :
    Follows p before := by
  rw [text, split_separator] at pieces
  obtain ⟨tail, rfl, inner⟩ := split_cons_eq pieces (split_ne_nil rest)
  have parent := directoryOf_cons (parent?_eq cut inner named)
  constructor
  · rw [parent, isAbsolute_ofList, isAbsolute, text]
    rfl
  · rw [parent, String.toList_ofList]
    change SameWay _ (split (separator :: List.intercalate [separator] (trimmed tail)))
    rw [split_separator]
    exact sameWay_split [[]] inner

/-- A separator leads the body of a path that is spelled from the working directory. -/
theorem sameWay_dotted {s : List Char} {tail : List (List Char)}
    (body : split s = ([] :: tail) ++ [name]) : SameWay (['.'] :: tail)
      (split ('.' :: List.intercalate [separator] (trimmed ([] :: tail)))) := by
  obtain none | ⟨more, whole, idle, single, some⟩ := trimmed_cases ([] :: tail)
  · have all := idle_of_trimmed none
    rw [none]
    exact ⟨[['.']], tail, [], rfl, rfl, fun s hs => all s (List.mem_cons_of_mem _ hs), by simp⟩
  · have plain := trimmed_plain body
    match kept : trimmed ([] :: tail) with
    | [] => exact absurd kept some
    | [first] =>
      rw [kept] at whole single
      exact absurd (congrArg (fun s => [s]) (List.cons.inj whole).1.symm) single
    | first :: second :: others =>
      rw [kept] at whole plain
      obtain ⟨rfl, rest⟩ := List.cons.inj whole
      have parts := split_intercalate (List.cons_ne_nil second others)
        fun q hq => plain q (List.mem_cons_of_mem _ hq)
      rw [List.intercalate_cons_cons]
      change SameWay _ (split (['.'] ++ separator ::
        List.intercalate [separator] (second :: others)))
      rw [split_append, parts]
      exact ⟨['.'] :: second :: others, more, [], by rw [rest]; rfl, (List.append_nil _).symm, idle,
        by simp⟩

theorem follows_dotted {rest : List Char} (text : p.text.toList = '.' :: separator :: rest)
    (cut : lead p.text.toList = (['.'], separator :: rest))
    (pieces : split p.text.toList = before ++ [name]) (named : isIdle name = false) :
    Follows p before := by
  have dot : split p.text.toList = ['.'] :: split rest := by
    rw [text]
    exact split_append ['.'] rest
  rw [dot] at pieces
  obtain ⟨tail, rfl, inner⟩ := split_cons_eq pieces (split_ne_nil rest)
  have body : split (separator :: rest) = ([] :: tail) ++ [name] := by
    rw [split_separator, inner]
    rfl
  have parent := directoryOf_cons (parent?_eq cut body named)
  constructor
  · rw [parent, isAbsolute_ofList, isAbsolute, text]
    rfl
  · rw [parent, String.toList_ofList]
    exact sameWay_dotted body

theorem intercalate_head (c : Char) (first : List Char) (others : List (List Char)) :
    ∃ tail, List.intercalate [separator] ((c :: first) :: others) = c :: tail := by
  cases others with
  | nil => exact ⟨first, List.intercalate_singleton⟩
  | cons q qs => exact ⟨_, List.intercalate_cons_cons⟩

theorem follows_relative (cut : lead p.text.toList = ([], p.text.toList))
    (relative : p.text.toList.head? ≠ some separator)
    (pieces : split p.text.toList = before ++ [name]) (named : isIdle name = false) :
    Follows p before := by
  have absolute : p.isAbsolute = false := beq_eq_false_iff_ne.2 relative
  have parent := parent?_eq cut pieces named
  rw [List.nil_append] at parent
  obtain none | ⟨more, whole, idle, single, some⟩ := trimmed_cases before
  · rw [none] at parent
    have here := directoryOf_nil parent
    refine ⟨by rw [here, absolute]; rfl, ?_⟩
    rw [here]
    exact ⟨[], before, [['.']], rfl, rfl, idle_of_trimmed none, by simp [isIdle]⟩
  · have plain := trimmed_plain pieces
    match kept : trimmed before with
    | [] => exact absurd kept some
    | [] :: others =>
      rw [whole, kept] at pieces
      exact absurd (head_of_split pieces (by simp)) relative
    | (c :: first) :: others =>
      obtain ⟨tail, text⟩ := intercalate_head c first others
      rw [kept] at parent whole plain
      have start : separator ≠ c := fun same => plain _ List.mem_cons_self (same ▸ List.mem_cons_self)
      rw [text] at parent
      have there := directoryOf_cons parent
      constructor
      · rw [there, isAbsolute_ofList, absolute, List.head?_cons]
        simpa using start.symm
      · rw [there, String.toList_ofList, ← text, split_intercalate (List.cons_ne_nil _ _) plain]
        exact ⟨(c :: first) :: others, more, [], whole, (List.append_nil _).symm, idle, by simp⟩

/-- The segments of a path before its name are those of its directory. -/
theorem directoryOf_follows (pieces : split p.text.toList = before ++ [name])
    (named : isIdle name = false) : Follows p before := by
  obtain ⟨rest, text, cut⟩ | text | ⟨rest, text, cut⟩ | ⟨cut, relative⟩ :=
    lead_cases p.text.toList
  · exact follows_absolute text cut pieces named
  · -- the path is the working directory, which is no name
    rw [text] at pieces
    rw [eq_of_single pieces] at named
    cases named
  · exact follows_dotted text cut pieces named
  · exact follows_relative cut relative pieces named

theorem hasNul_directoryOf (pieces : split p.text.toList = before ++ [name])
    (named : isIdle name = false) (clean : p.hasNul = false) :
    (directoryOf p).hasNul = false := by
  rw [hasNul_eq_false_iff] at clean ⊢
  obtain ⟨common, left, right, rfl, spelled, _, idle⟩ := (directoryOf_follows pieces named).way
  rw [← intercalate_split (directoryOf p).text.toList, spelled]
  intro inside
  obtain ⟨piece, member, inside⟩ := (mem_intercalate inside).resolve_left (by decide)
  rcases List.mem_append.1 member with shared | added
  · refine clean ?_
    rw [← intercalate_split p.text.toList, pieces]
    exact mem_intercalate_of_mem (by simp [shared]) inside
  · rcases idle_ofList (idle piece added) with empty | dot
    · rw [String.ofList_eq_empty_iff.1 empty] at inside
      cases inside
    · have chars : piece = ['.'] := by
        rw [← String.toList_ofList (l := piece), dot]
        rfl
      rw [chars] at inside
      exact absurd inside (by decide)

end Install

end BootDisk
