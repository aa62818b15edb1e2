import BootDisk.FileTree
import BootDisk.Proofs.Step

set_option autoImplicit false

/-!
# Lookups in a changed tree

A node is put at an open place, where no directory stands. The places on the way of a lookup are
directories, so every path that led somewhere still leads there, and only the node at that one place
is new.
-/
namespace BootDisk.FileTree

section Sound
variable {t : FileTree} {place : List String} {name : String}
  (present : t.node? (place ++ [name]) ≠ none)
include present

theorem entry_of_present : EntryName name := (t.sound place name present).1

theorem directory_of_present : t.node? place = some .directory := (t.sound place name present).2

end Sound

section Enter
variable {t : FileTree} {place m : List String} {segment : String}

theorem enter_idle (idle : segment = "" ∨ segment = ".") : t.enter place segment = .ok place :=
  if_pos idle

theorem enter_up : t.enter place ".." = .ok place.dropLast := by
  rw [enter, if_neg (by decide), if_pos rfl]

theorem enter_plain (plain : PlainName segment) : t.enter place segment =
    if (t.node? (place ++ [segment])).isNone then .error .notFound else .ok (place ++ [segment]) := by
  have named : ¬ (segment = "" ∨ segment = ".") := not_or.2 ⟨plain.nonempty, plain.here⟩
  rw [enter, if_neg named, if_neg plain.up, plain.short, if_neg Bool.false_ne_true]

theorem enter_child (plain : PlainName segment) (present : t.node? (place ++ [segment]) ≠ none) :
    t.enter place segment = .ok (place ++ [segment]) := by
  rw [enter_plain plain, if_neg (by simpa using present)]

theorem enter_cases (h : t.enter place segment = .ok m) :
    ((segment = "" ∨ segment = ".") ∧ m = place) ∨ (segment = ".." ∧ m = place.dropLast) ∨
      (PlainName segment ∧ t.node? (place ++ [segment]) ≠ none ∧ m = place ++ [segment]) := by
  rw [enter] at h
  split at h
  · cases h
    exact .inl ⟨‹_›, rfl⟩
  · rename_i named
    split at h
    · cases h
      exact .inr (.inl ⟨‹_›, rfl⟩)
    · rename_i up
      split at h
      · cases h
      · rename_i short
        split at h
        · cases h
        · rename_i present
          cases h
          obtain ⟨nonempty, here⟩ := not_or.1 named
          exact .inr (.inr ⟨⟨nonempty, here, up, Bool.eq_false_iff.2 short⟩, by simpa using present,
            rfl⟩)

end Enter

section Follow
variable {t : FileTree} {place m : List String} {segment : String} {segments : List String}

theorem follow_cons_eq_ok : t.follow place (segment :: segments) = .ok m ↔
    t.node? place = some .directory ∧ ∃ next, t.enter place segment = .ok next ∧
      t.follow next segments = .ok m := by
  rw [follow, ← kindAt?_eq_directory_iff]
  by_cases directory : t.kindAt? place = some .directory
  · rw [if_neg (not_not_intro directory), Outcome.bind_eq_ok_iff, and_iff_right directory]
  · rw [if_pos directory]
    exact ⟨fun h => (nomatch h), fun h => absurd h.1 directory⟩

theorem follow_append (t : FileTree) (place : List String) (front back : List String) :
    t.follow place (front ++ back) = t.follow place front >>= fun m => t.follow m back := by
  induction front generalizing place with
  | nil => rfl
  | cons segment rest ih =>
    rw [List.cons_append, follow, follow]
    by_cases directory : t.kindAt? place ≠ some .directory
    · rw [if_pos directory, if_pos directory]
      rfl
    · rw [if_neg directory, if_neg directory]
      cases t.enter place segment with
      | error e => rfl
      | ok next => exact ih next

theorem follow_single (directory : t.node? place = some .directory) (plain : PlainName segment)
    (present : t.node? (place ++ [segment]) ≠ none) :
    t.follow place [segment] = .ok (place ++ [segment]) :=
  follow_cons_eq_ok.2 ⟨directory, _, enter_child plain present, rfl⟩

theorem follow_idle (directory : t.node? place = some .directory)
    (idle : ∀ s ∈ segments, s = "" ∨ s = ".") : t.follow place segments = .ok place := by
  induction segments with
  | nil => rfl
  | cons segment rest ih =>
    have here := idle segment List.mem_cons_self
    have tail := ih fun s hs => idle s (List.mem_cons_of_mem segment hs)
    exact follow_cons_eq_ok.2 ⟨directory, place, enter_idle here, tail⟩

theorem follow_idle_eq (idle : ∀ s ∈ segments, s = "" ∨ s = ".")
    (h : t.follow place segments = .ok m) : place = m := by
  induction segments with
  | nil => exact Except.ok.inj h
  | cons segment rest ih =>
    obtain ⟨_, next, entered, tail⟩ := follow_cons_eq_ok.1 h
    rw [enter_idle (idle segment List.mem_cons_self)] at entered
    cases entered
    exact ih (fun s hs => idle s (List.mem_cons_of_mem segment hs)) tail

end Follow

section Locate
variable {t : FileTree} {p : Path} {place : List String}

theorem checkText_eq_ok_iff : checkText p = .ok () ↔
    p.hasNul = false ∧ p.text ≠ "" ∧ p.text.utf8ByteSize ≤ maxPathBytes := by
  rw [checkText]
  cases nul : p.hasNul with
  | true => exact ⟨fun h => (nomatch h), fun h => (nomatch h.1)⟩
  | false =>
    rw [if_neg Bool.false_ne_true]
    by_cases empty : p.text.isEmpty = true
    · rw [if_pos empty]
      exact ⟨fun h => (nomatch h), fun h => absurd (String.isEmpty_iff.1 empty) h.2.1⟩
    · rw [if_neg empty]
      by_cases long : maxPathBytes < p.text.utf8ByteSize
      · rw [if_pos long]
        exact ⟨fun h => (nomatch h), fun h => absurd h.2.2 (Nat.not_le.2 long)⟩
      · rw [if_neg long]
        exact ⟨fun _ => ⟨rfl, fun none => empty (String.isEmpty_iff.2 none), Nat.not_lt.1 long⟩,
          fun _ => rfl⟩

theorem locate_eq_ok_iff : t.locate p = .ok place ↔
    checkText p = .ok () ∧ t.follow (t.origin p) p.segments = .ok place := by
  rw [locate]
  cases text : checkText p with
  | error e => exact ⟨fun h => (nomatch h), fun h => (nomatch h.1)⟩
  | ok _ => exact ⟨fun h => ⟨rfl, h⟩, fun h => h.2⟩

theorem kind?_eq_some_iff {kind : FileKind} : t.kind? p = some kind ↔
    ∃ place, t.locate p = .ok place ∧ t.kindAt? place = some kind := by
  rw [kind?]
  cases t.locate p with
  | error e => simp
  | ok q => simp

theorem file_eq_ok_iff {contents : ByteArray} : t.file p = .ok (place, contents) ↔
    t.locate p = .ok place ∧ t.node? place = some (.file contents) := by
  rw [file, Outcome.bind_eq_ok_iff]
  constructor
  · rintro ⟨q, located, answer⟩
    match node : t.node? q, answer with
    | some (.file c), answer =>
      cases answer
      exact ⟨located, node⟩
  · rintro ⟨located, node⟩
    refine ⟨place, located, ?_⟩
    rw [node]
    rfl

end Locate

section Put
variable {t : FileTree} {place : List String} {n : Node}

@[simp] theorem home_put : (t.put place n).home = t.home := by
  unfold put
  split
  · rfl
  · rfl

@[simp] theorem directorySize_put : (t.put place n).directorySize = t.directorySize := by
  unfold put
  split
  · rfl
  · rfl

@[simp] theorem origin_put (p : Path) : (t.put place n).origin p = t.origin p := by
  simp [origin]

variable (isOpen : t.Open place)
include isOpen

theorem node?_put (q : List String) :
    (t.put place n).node? q = if q = place then some n else t.node? q := by
  rw [put, dif_pos isOpen]
  exact Nodes.at?_put n isOpen.named q

theorem directory_put {q : List String} (directory : t.node? q = some .directory) :
    (t.put place n).node? q = some .directory := by
  rw [put, dif_pos isOpen]
  exact isOpen.directory_put n directory

theorem enter_put {q m : List String} {segment : String} (h : t.enter q segment = .ok m) :
    (t.put place n).enter q segment = .ok m := by
  obtain ⟨idle, rfl⟩ | ⟨rfl, rfl⟩ | ⟨plain, present, rfl⟩ := enter_cases h
  · exact enter_idle idle
  · exact enter_up
  · refine enter_child plain ?_
    rw [node?_put isOpen]
    split
    · exact Option.some_ne_none _
    · exact present

theorem follow_put {q m : List String} {segments : List String}
    (h : t.follow q segments = .ok m) : (t.put place n).follow q segments = .ok m := by
  induction segments generalizing q with
  | nil => exact h
  | cons segment rest ih =>
    obtain ⟨directory, next, entered, tail⟩ := follow_cons_eq_ok.1 h
    exact follow_cons_eq_ok.2
      ⟨directory_put isOpen directory, next, enter_put isOpen entered, ih tail⟩

theorem locate_put {p : Path} {q : List String} (h : t.locate p = .ok q) :
    (t.put place n).locate p = .ok q := by
  obtain ⟨text, followed⟩ := locate_eq_ok_iff.1 h
  rw [locate_eq_ok_iff, origin_put]
  exact ⟨text, follow_put isOpen followed⟩

end Put

section Files
variable {t : FileTree} {p : Path} {place : List String} {contents new : ByteArray}

theorem open_of_node? (h : t.node? place = some (.file contents)) : t.Open place := by
  have plain : t.kindAt? place ≠ some .directory := by
    rw [Ne, kindAt?_eq_directory_iff, h]
    simp
  have named : place ≠ [] := by
    rintro rfl
    exact plain rfl
  have whole := List.dropLast_concat_getLast named
  have present : t.node? (place.dropLast ++ [place.getLast named]) ≠ none := by
    rw [whole, h]
    exact Option.some_ne_none _
  exact ⟨⟨_, _, whole.symm, entry_of_present present,
    kindAt?_eq_directory_iff.2 (directory_of_present present)⟩, plain⟩

theorem open_of_file (h : t.file p = .ok (place, contents)) : t.Open place :=
  open_of_node? (file_eq_ok_iff.1 h).2

theorem plain_of_file (h : t.file p = .ok (place, contents)) : t.kind? p ≠ some .directory := by
  rw [kind?, (file_eq_ok_iff.1 h).1]
  exact (open_of_file h).vacant

theorem file_put_other {q : List String} (isOpen : t.Open q) (other : place ≠ q)
    (h : t.file p = .ok (place, contents)) :
    (t.put q (.file new)).file p = .ok (place, contents) := by
  obtain ⟨located, node⟩ := file_eq_ok_iff.1 h
  refine file_eq_ok_iff.2 ⟨locate_put isOpen located, ?_⟩
  rw [node?_put isOpen, if_neg other, node]

theorem file_put_self (isOpen : t.Open place) (located : t.locate p = .ok place) :
    (t.put place (.file new)).file p = .ok (place, new) := by
  refine file_eq_ok_iff.2 ⟨locate_put isOpen located, ?_⟩
  rw [node?_put isOpen, if_pos rfl]

end Files

end BootDisk.FileTree
