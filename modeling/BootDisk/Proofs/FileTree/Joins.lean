import BootDisk.Proofs.FileTree.Requests
import BootDisk.Proofs.Path

set_option autoImplicit false

namespace BootDisk

namespace Path

section Join
variable {p : Path} {name : String} (plain : separator ∉ name.toList)
include plain

theorem isAbsolute_of_plain : isAbsolute ⟨name⟩ = false := by
  rw [isAbsolute, beq_eq_false_iff_ne]
  exact fun first => plain (List.mem_of_mem_head? (Option.mem_def.2 first))

theorem toList_join : (p.join ⟨name⟩).text.toList =
    if p.text.toList = [] ∨ p.text.toList.getLast? = some separator
    then p.text.toList ++ name.toList else p.text.toList ++ separator :: name.toList := by
  rw [join, isAbsolute_of_plain plain, if_neg Bool.false_ne_true]
  dsimp only
  have test : ((p.text.toList.isEmpty || p.text.toList.getLast? == some separator) = true) =
      (p.text.toList = [] ∨ p.text.toList.getLast? = some separator) := by
    rw [Bool.or_eq_true, List.isEmpty_iff, beq_iff_eq]
  simp only [test]
  split
  · rw [String.toList_append]
  · rw [String.toList_append, String.toList_append]
    simp [separator]

theorem prefix_join : p.text.toList <+: (p.join ⟨name⟩).text.toList := by
  rw [toList_join plain]
  split
  · exact List.prefix_append _ _
  · exact List.prefix_append _ _

/-- The segments of the path come first. An empty one at their end gives way to the name. -/
theorem segments_join : (p.join ⟨name⟩).segments = p.segments ++ [name] ∨
    ∃ before, p.segments = before ++ [""] ∧ (p.join ⟨name⟩).segments = before ++ [name] := by
  have single : (split name.toList).map String.ofList = [name] := by
    rw [split_piece plain, List.map_singleton, String.ofList_toList]
  rw [segments, segments, toList_join plain]
  by_cases empty : p.text.toList = []
  · rw [if_pos (.inl empty), empty, List.nil_append, single]
    exact .inr ⟨[], rfl, rfl⟩
  · by_cases last : p.text.toList.getLast? = some separator
    · rw [if_pos (.inr last)]
      obtain ⟨front, whole⟩ := List.getLast?_eq_some_iff.1 last
      refine .inr ⟨(split front).map String.ofList, ?_, ?_⟩
      · rw [whole, split_append, List.map_append]
        rfl
      · rw [whole, List.append_assoc, List.singleton_append, split_append, List.map_append, single]
    · rw [if_neg (not_or.2 ⟨empty, last⟩), split_append, List.map_append, single]
      exact .inl rfl

theorem isAbsolute_join : (p.join ⟨name⟩).isAbsolute = p.isAbsolute := by
  by_cases empty : p.text.toList = []
  · have relative := isAbsolute_of_plain plain
    rw [isAbsolute] at relative
    rw [isAbsolute, toList_join plain, if_pos (.inl empty), empty, isAbsolute, empty]
    exact relative
  · obtain ⟨rest, whole⟩ := prefix_join (p := p) plain
    rw [isAbsolute, isAbsolute, ← whole, List.head?_append_of_ne_nil _ empty]

theorem size_le_join : p.text.utf8ByteSize ≤ (p.join ⟨name⟩).text.utf8ByteSize := by
  obtain ⟨rest, whole⟩ := prefix_join (p := p) plain
  have text : (p.join ⟨name⟩).text = p.text ++ String.ofList rest := by
    rw [← String.toList_inj, String.toList_append, String.toList_ofList, whole]
  rw [text, String.utf8ByteSize_append]
  exact Nat.le_add_right _ _

end Join

end Path

namespace FileTree
open BootDisk.Path

theorem checkText_join {p : Path} {name : String} (clean : p.hasNul = false)
    (entry : EntryName name) (short : (p.join ⟨name⟩).text.utf8ByteSize ≤ maxPathBytes) :
    checkText (p.join ⟨name⟩) = .ok () := by
  refine checkText_eq_ok_iff.2 ⟨hasNul_join clean entry.clean, ?_, short⟩
  intro empty
  obtain ⟨c, inside⟩ := List.exists_mem_of_ne_nil name.toList fun none =>
    entry.nonempty (String.toList_eq_nil_iff.1 none)
  have kept : c ∈ (p.join ⟨name⟩).text.toList := mem_join inside
  rw [empty] at kept
  cases kept

theorem follow_join (t : FileTree) (p : Path) {name : String} (plain : separator ∉ name.toList) :
    t.follow (t.origin (p.join ⟨name⟩)) (p.join ⟨name⟩).segments =
      t.follow (t.origin p) p.segments >>= fun place => t.follow place [name] := by
  have start : t.origin (p.join ⟨name⟩) = t.origin p := by
    rw [origin, origin, isAbsolute_join plain]
  rw [start]
  rcases segments_join (p := p) plain with whole | ⟨before, spelled, whole⟩
  · rw [whole, follow_append]
  · rw [whole, spelled, follow_append, follow_append]
    cases t.follow (t.origin p) before with
    | error e => rfl
    | ok place =>
      change t.follow place [name] = t.follow place [""] >>= fun m => t.follow m [name]
      -- the empty segment asks for a directory, and so does the name
      by_cases directory : t.node? place = some .directory
      · have stays : t.follow place [""] = .ok place := follow_idle directory (by simp)
        rw [stays]
        rfl
      · have missing : t.kindAt? place ≠ some .directory := fun kind =>
          directory (kindAt?_eq_directory_iff.1 kind)
        rw [follow, follow, if_pos missing, if_pos missing]
        rfl

/-- The path leads to the directory at this place. -/
structure Reaches (t : FileTree) (p : Path) (place : List String) : Prop where
  way : t.follow (t.origin p) p.segments = .ok place
  directory : t.node? place = some .directory

section Reaches
variable {t : FileTree} {p : Path} {place : List String} {name : String}

theorem follow_entry {q : List String} (entry : EntryName name)
    (h : t.follow place [name] = .ok q) : t.node? place = some .directory ∧
      t.node? (place ++ [name]) ≠ none ∧ q = place ++ [name] := by
  obtain ⟨directory, next, entered, arrived⟩ := follow_cons_eq_ok.1 h
  cases arrived
  obtain ⟨idle, _⟩ | ⟨up, _⟩ | ⟨_, present, same⟩ := enter_cases entered
  · exact absurd idle (not_or.2 ⟨entry.nonempty, entry.here⟩)
  · exact absurd up entry.up
  · exact ⟨directory, present, same⟩

theorem locate_join_eq_ok_iff (reaches : t.Reaches p place) (entry : EntryName name)
    {q : List String} : t.locate (p.join ⟨name⟩) = .ok q ↔ checkText (p.join ⟨name⟩) = .ok () ∧
      t.node? (place ++ [name]) ≠ none ∧ q = place ++ [name] := by
  rw [locate_eq_ok_iff, follow_join t p entry.single, Outcome.bind_ok reaches.way]
  refine and_congr_right fun _ => ?_
  constructor
  · exact fun h => (follow_entry entry h).2
  · rintro ⟨present, rfl⟩
    exact follow_single reaches.directory entry.toPlainName present

theorem Reaches.join (reaches : t.Reaches p place) (entry : EntryName name)
    (directory : t.node? (place ++ [name]) = some .directory) :
    t.Reaches (p.join ⟨name⟩) (place ++ [name]) := by
  refine ⟨?_, directory⟩
  rw [follow_join t p entry.single, Outcome.bind_ok reaches.way]
  exact follow_single reaches.directory entry.toPlainName
    (directory ▸ Option.some_ne_none _)

theorem Reaches.eq_of_join (reaches : t.Reaches p place) (entry : EntryName name) {q : List String}
    (below : t.Reaches (p.join ⟨name⟩) q) : q = place ++ [name] := by
  have way := below.way
  rw [follow_join t p entry.single, Outcome.bind_ok reaches.way] at way
  exact (follow_entry entry way).2.2

theorem read_join_eq_ok_iff (reaches : t.Reaches p place) (entry : EntryName name)
    {contents : ByteArray} : t.read (p.join ⟨name⟩) = .ok contents ↔
      checkText (p.join ⟨name⟩) = .ok () ∧ t.node? (place ++ [name]) = some (.file contents) := by
  rw [read_eq_ok_iff]
  constructor
  · rintro ⟨q, h⟩
    obtain ⟨located, node⟩ := file_eq_ok_iff.1 h
    obtain ⟨text, _, rfl⟩ := (locate_join_eq_ok_iff reaches entry).1 located
    exact ⟨text, node⟩
  · rintro ⟨text, node⟩
    refine ⟨place ++ [name], file_eq_ok_iff.2 ⟨?_, node⟩⟩
    exact (locate_join_eq_ok_iff reaches entry).2 ⟨text, by rw [node]; simp, rfl⟩

theorem kind?_join_eq_some_iff (reaches : t.Reaches p place) (entry : EntryName name)
    {kind : FileKind} : t.kind? (p.join ⟨name⟩) = some kind ↔
      checkText (p.join ⟨name⟩) = .ok () ∧
        (t.node? (place ++ [name])).map Node.kind = some kind := by
  rw [kind?_eq_some_iff]
  constructor
  · rintro ⟨q, located, found⟩
    obtain ⟨text, _, rfl⟩ := (locate_join_eq_ok_iff reaches entry).1 located
    exact ⟨text, found⟩
  · rintro ⟨text, found⟩
    refine ⟨_, (locate_join_eq_ok_iff reaches entry).2 ⟨text, fun none => ?_, rfl⟩, found⟩
    rw [none] at found
    cases found

theorem names_of_reaches (reaches : t.Reaches p place) (text : checkText p = .ok ()) :
    t.names p = .ok (t.children place) := by
  rw [FileTree.names, Outcome.bind_ok (locate_eq_ok_iff.2 ⟨text, reaches.way⟩), reaches.directory]
  rfl

theorem reaches_of_read (entry : EntryName name) {contents : ByteArray}
    (h : t.read (p.join ⟨name⟩) = .ok contents) : ∃ place, t.Reaches p place := by
  obtain ⟨q, found⟩ := read_eq_ok_iff.1 h
  obtain ⟨located, -⟩ := file_eq_ok_iff.1 found
  have way := (locate_eq_ok_iff.1 located).2
  rw [follow_join t p entry.single] at way
  obtain ⟨place, front, back⟩ := Outcome.bind_eq_ok_iff.1 way
  exact ⟨place, front, (follow_entry entry back).1⟩

end Reaches

end FileTree

end BootDisk
