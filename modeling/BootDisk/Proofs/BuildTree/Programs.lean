import BootDisk.Proofs.BuildTree.Order
import BootDisk.Proofs.FileTree.Joins

set_option autoImplicit false

/-!
# Which programs are found

A search that ends with files has found every program below the user directory once, but for two kinds
of files that it passes over without a word: those in the first directory whose name is that of the
first program up to case, and those whose path is too long for a system.
-/
namespace BootDisk.BuildTree
open FileTree

section Extension
variable {name : String} {stem ext : List Char}

theorem stemAndExtension_of_concat (nonempty : stem ≠ []) (extended : ext ≠ []) (plain : '.' ∉ ext)
    (whole : name.toList = stem ++ '.' :: ext) :
    Path.stemAndExtension name = (String.ofList stem, some (String.ofList ext)) := by
  have dots : name.toList ≠ ['.', '.'] := by
    intro dots
    have same : (stem ++ '.' :: ext).getLast? = ['.', '.'].getLast? := by rw [← whole, dots]
    rw [List.getLast?_append_of_ne_nil _ (List.cons_ne_nil _ _),
      List.getLast?_cons_of_ne_nil extended] at same
    exact plain (List.mem_of_getLast? same)
  have reverse : name.toList.reverse = ext.reverse ++ '.' :: stem.reverse := by
    rw [whole, List.reverse_append, List.reverse_cons, List.append_assoc, List.singleton_append]
  have cut : name.toList.reverse.takeWhile (· ≠ '.') = ext.reverse := by
    rw [reverse, List.takeWhile_append_of_pos]
    · rw [List.takeWhile_cons_of_neg (by simp), List.append_nil]
    · exact fun c hc => decide_eq_true fun dot => plain (dot ▸ List.mem_reverse.1 hc)
  rw [Path.stemAndExtension]
  dsimp only
  rw [if_neg dots, cut, reverse, List.drop_left]
  match back : stem.reverse with
  | [] => exact absurd (List.reverse_eq_nil_iff.1 back) nonempty
  | c :: rest =>
    change (String.ofList (c :: rest).reverse, some (String.ofList ext.reverse.reverse)) = _
    rw [← back, List.reverse_reverse, List.reverse_reverse]

theorem concat_of_extension (h : (Path.stemAndExtension name).2 = some (String.ofList ext)) :
    ∃ stem, stem ≠ [] ∧ name.toList = stem ++ '.' :: ext := by
  rw [Path.stemAndExtension] at h
  dsimp only at h
  by_cases dots : name.toList = ['.', '.']
  · rw [if_pos dots] at h
    cases h
  · rw [if_neg dots] at h
    obtain ⟨rest, whole⟩ := List.takeWhile_prefix (l := name.toList.reverse) (· ≠ '.')
    generalize name.toList.reverse.takeWhile (· ≠ '.') = back at h whole
    rw [← whole, List.drop_left] at h
    split at h
    case h_1 => cases h
    case h_3 => cases h
    case h_2 before single =>
      have same : back.reverse = ext := String.ofList_injective (Option.some.inj h)
      refine ⟨before.reverse, fun none => single (List.reverse_eq_nil_iff.1 none), ?_⟩
      rw [← List.reverse_reverse name.toList, ← whole, ← same, List.reverse_append,
        List.reverse_cons, List.append_assoc, List.singleton_append]

end Extension

/-- A regular file two levels below the user directory, with a stem and the extension in its name. -/
structure Program (t : FileTree) (place : List String) (p : String × String) : Prop where
  file : ∃ contents, t.node? (place ++ [userDirectory, p.1, p.2]) = some (.file contents)
  name : ∃ stem, stem ≠ [] ∧ p.2.toList = stem ++ '.' :: extension.toList

/-- The place is that of the first program, up to case, or the path is too long for a system. -/
def PassedOver (root : Path) (p : String × String) : Prop :=
  (p.1 = firstDirectory ∧ p.2.map Char.toLower = firstProgram) ∨
    maxPathBytes < (programPath root p).text.utf8ByteSize

instance (root : Path) (p : String × String) : Decidable (PassedOver root p) :=
  decidable_of_iff ((p.1 = firstDirectory ∧ p.2.toList.map Char.toLower = firstProgram.toList) ∨
    maxPathBytes < (programPath root p).text.utf8ByteSize) (by
      rw [PassedOver, ← String.toList_map, String.toList_inj])

theorem isProgram_iff {d n : String} : isProgram d n = true ↔
    (∃ stem, stem ≠ [] ∧ n.toList = stem ++ '.' :: extension.toList) ∧
      ¬ (d = firstDirectory ∧ n.map Char.toLower = firstProgram) := by
  have cut : (Path.stemAndExtension n).2 = some extension ↔
      ∃ stem, stem ≠ [] ∧ n.toList = stem ++ '.' :: extension.toList := by
    constructor
    · intro h
      rw [← String.ofList_toList (s := extension)] at h
      exact concat_of_extension h
    · rintro ⟨stem, nonempty, whole⟩
      rw [stemAndExtension_of_concat nonempty (by decide) (by decide) whole,
        String.ofList_toList]
  have first : isFirst d n = true ↔ d = firstDirectory ∧ n.map Char.toLower = firstProgram := by
    rw [isFirst, Bool.and_eq_true, beq_iff_eq, beq_iff_eq]
  rw [isProgram, Bool.and_eq_true, beq_iff_eq, cut, Bool.not_eq_true', ← first, Bool.not_eq_true]

section Gathered
variable {t : FileTree} {p root : Path} {place : List String} {name : String}

theorem mem_listing_iff (reaches : t.Reaches p place) (text : checkText p = .ok ()) :
    name ∈ listing t p ↔ t.node? (place ++ [name]) ≠ none := by
  rw [listing, names_of_reaches reaches text]
  exact (sorted_perm _).mem_iff.trans mem_children_iff

/-- What is listed and has a kind is what stands there, but for paths that are too long. -/
theorem mem_listing_and_kind_iff (reaches : t.Reaches p place)
    (text : checkText p = .ok ()) {kind : FileKind} :
    (name ∈ listing t p ∧ t.kind? (p.join ⟨name⟩) = some kind) ↔
      (t.node? (place ++ [name])).map Node.kind = some kind ∧
        (p.join ⟨name⟩).text.utf8ByteSize ≤ maxPathBytes := by
  rw [mem_listing_iff reaches text]
  constructor
  · rintro ⟨present, found⟩
    obtain ⟨whole, node⟩ := (kind?_join_eq_some_iff reaches (entry_of_present present)).1 found
    exact ⟨node, (checkText_eq_ok_iff.1 whole).2.2⟩
  · rintro ⟨node, short⟩
    have present : t.node? (place ++ [name]) ≠ none := by
      intro none
      rw [none] at node
      cases node
    have entry := entry_of_present present
    exact ⟨present, (kind?_join_eq_some_iff reaches entry).2
      ⟨checkText_join (checkText_eq_ok_iff.1 text).1 entry short, node⟩⟩

theorem mem_directoriesIn_iff (reaches : t.Reaches (userPath root) place)
    (text : checkText (userPath root) = .ok ()) {d : String} :
    d ∈ directoriesIn t root ↔ t.node? (place ++ [d]) = some .directory ∧
      ((userPath root).join ⟨d⟩).text.utf8ByteSize ≤ maxPathBytes := by
  rw [directoriesIn, List.mem_filter, decide_eq_true_iff,
    mem_listing_and_kind_iff reaches text, Node.kind_eq_directory_iff]

theorem mem_programsIn_iff {d n : String}
    (reaches : t.Reaches ((userPath root).join ⟨d⟩) place)
    (text : checkText ((userPath root).join ⟨d⟩) = .ok ()) :
    n ∈ programsIn t root d ↔ (∃ contents, t.node? (place ++ [n]) = some (.file contents)) ∧
      isProgram d n = true ∧ (programPath root (d, n)).text.utf8ByteSize ≤ maxPathBytes := by
  have found : (n ∈ listing t ((userPath root).join ⟨d⟩) ∧
      t.kind? (programPath root (d, n)) = some .file) ↔ _ :=
    mem_listing_and_kind_iff reaches text
  rw [Node.kind_eq_file_iff] at found
  rw [programsIn, List.mem_filter, List.mem_filter, decide_eq_true_iff]
  constructor
  · rintro ⟨⟨listed, named⟩, kind⟩
    obtain ⟨stands, size⟩ := found.1 ⟨listed, kind⟩
    exact ⟨stands, named, size⟩
  · rintro ⟨stands, named, size⟩
    obtain ⟨listed, kind⟩ := found.2 ⟨stands, size⟩
    exact ⟨⟨listed, named⟩, kind⟩

theorem mem_gathered {d n : String} :
    (d, n) ∈ gathered t root ↔ d ∈ directoriesIn t root ∧ n ∈ programsIn t root d := by
  rw [gathered, List.mem_flatMap]
  constructor
  · rintro ⟨e, he, h⟩
    obtain ⟨m, hm, same⟩ := List.mem_map.1 h
    cases same
    exact ⟨he, hm⟩
  · rintro ⟨hd, hn⟩
    exact ⟨d, hd, List.mem_map_of_mem hn⟩

theorem reaches_userPath (reaches : t.Reaches root place)
    (user : ∃ names, t.names (userPath root) = .ok names) :
    t.Reaches (userPath root) (place ++ [userDirectory]) ∧ checkText (userPath root) = .ok () := by
  have entry : EntryName userDirectory := by decide
  obtain ⟨names, listed⟩ := user
  obtain ⟨l, located, answer⟩ := Outcome.bind_eq_ok_iff.1 listed
  obtain ⟨text, -, rfl⟩ := (locate_join_eq_ok_iff reaches entry).1 located
  refine ⟨reaches.join entry ?_, text⟩
  match node : t.node? (place ++ [userDirectory]), answer with
  | some .directory, _ => rfl

theorem node?_of_read (above : t.Reaches (userPath root) place) {d n : String} (dir : EntryName d)
    (entry : EntryName n) {contents : ByteArray}
    (h : t.read (programPath root (d, n)) = .ok contents) :
    t.node? (place ++ [d] ++ [n]) = some (.file contents) := by
  obtain ⟨q, reached⟩ := reaches_of_read entry h
  have same := above.eq_of_join dir reached
  subst same
  exact ((read_join_eq_ok_iff reached entry).1 h).2

/-- The programs that a search gathers are those of the tree, but for the ones that it passes over. -/
theorem mem_gathered_iff (reaches : t.Reaches root place)
    (user : ∃ names, t.names (userPath root) = .ok names) {p : String × String} :
    p ∈ gathered t root ↔ Program t place p ∧ ¬ PassedOver root p := by
  obtain ⟨d, n⟩ := p
  obtain ⟨above, text⟩ := reaches_userPath reaches user
  have way : place ++ [userDirectory, d, n] = place ++ [userDirectory] ++ [d] ++ [n] := by simp
  -- below a directory that is reached, the names are looked up as in the user directory
  have below : t.node? (place ++ [userDirectory] ++ [d]) = some .directory →
      ((userPath root).join ⟨d⟩).text.utf8ByteSize ≤ maxPathBytes →
      (n ∈ programsIn t root d ↔ Program t place (d, n) ∧ ¬ PassedOver root (d, n)) := by
    intro node short
    have entry : EntryName d := entry_of_present (by rw [node]; exact Option.some_ne_none _)
    rw [mem_programsIn_iff (above.join entry node)
      (checkText_join (checkText_eq_ok_iff.1 text).1 entry short), isProgram_iff, ← way,
      PassedOver, not_or, Nat.not_lt]
    exact ⟨fun ⟨stands, ⟨named, other⟩, size⟩ => ⟨⟨stands, named⟩, other, size⟩,
      fun ⟨⟨stands, named⟩, other, size⟩ => ⟨stands, ⟨named, other⟩, size⟩⟩
  rw [mem_gathered, mem_directoriesIn_iff above text]
  constructor
  · rintro ⟨⟨node, short⟩, inside⟩
    exact (below node short).1 inside
  · rintro ⟨program, found⟩
    have present : t.node? (place ++ [userDirectory] ++ [d] ++ [n]) ≠ none := by
      obtain ⟨contents, stands⟩ := program.file
      rw [← way, stands]
      exact Option.some_ne_none _
    have node := directory_of_present present
    have short : ((userPath root).join ⟨d⟩).text.utf8ByteSize ≤ maxPathBytes :=
      (Path.size_le_join (entry_of_present present).single).trans (Nat.le_of_not_lt (not_or.1 found).2)
    exact ⟨⟨node, short⟩, (below node short).2 ⟨program, found⟩⟩

end Gathered

/-- A search that ends has found the kernel, the first program and every other program once, with its
contents, but for those that it passes over. -/
theorem collect_complete (t : FileTree) (root : Path) (files : List SourceFile)
    (u : FileTree) (h : (collect root : Step FileTree (List SourceFile)) t = (.ok files, u)) :
    ∃ place kernel first rest programs,
      files = ⟨"KERNEL", "ELF", kernel⟩ :: ⟨"USER", "ELF", first⟩ :: rest ∧
      t.Reaches root place ∧ t.node? (place ++ ["kernel.elf"]) = some (.file kernel) ∧
      t.node? (place ++ ["user", "user1", "user.elf"]) = some (.file first) ∧ programs.Nodup ∧
      List.Forall₂ (fun p f => f.name = imageName p.2 ∧ f.ext = "ELF" ∧
        t.node? (place ++ ["user", p.1, p.2]) = some (.file f.contents)) programs rest ∧
      ∀ p, p ∈ programs ↔ Program t place p ∧ ¬ PassedOver root p := by
  obtain ⟨⟨kernel, first, rest, rfl, collected⟩, -⟩ := collect_eq_ok_iff.1 h
  have kernelName : EntryName "kernel.elf" := by decide
  obtain ⟨place, reaches⟩ := reaches_of_read kernelName collected.kernel.contents
  have above := (reaches_userPath reaches collected.user).1
  have member := fun p => mem_gathered_iff reaches collected.user (p := p)
  have way : ∀ d n, place ++ ["user", d, n] = place ++ [userDirectory] ++ [d] ++ [n] := by
    simp [userDirectory]
  have present : ∀ p ∈ gathered t root,
      t.node? (place ++ [userDirectory] ++ [p.1] ++ [p.2]) ≠ none := by
    intro p hp
    obtain ⟨contents, stands⟩ := ((member p).1 hp).1.file
    rw [← way, show "user" = userDirectory from rfl, stands]
    exact Option.some_ne_none _
  have each := (List.forall₂_and_left _ _).2 ⟨present, collected.rest⟩
  have distinct : (gathered t root).Nodup := (gathered_increasing t root).imp Before.ne
  refine ⟨place, kernel.contents, first.contents, rest, gathered t root, ?_, reaches, ?_, ?_,
    distinct, ?_, member⟩
  · rw [← collected.kernel.eq, ← collected.first.eq]
  · exact ((read_join_eq_ok_iff reaches kernelName).1 collected.kernel.contents).2
  · rw [way]
    exact node?_of_read above (by decide) (by decide) collected.first.contents
  · refine each.imp fun p f ⟨stands, sourced⟩ => ⟨sourced.name, sourced.ext, ?_⟩
    rw [way]
    have between : t.node? (place ++ [userDirectory] ++ [p.1]) ≠ none := by
      rw [directory_of_present stands]
      exact Option.some_ne_none _
    exact node?_of_read above (entry_of_present between) (entry_of_present stands) sourced.contents

theorem twinTree_complete : ∃ kernel first rest programs u,
    (collect ⟨"."⟩ : Step FileTree (List SourceFile)) twinTree =
      (.ok (⟨"KERNEL", "ELF", kernel⟩ :: ⟨"USER", "ELF", first⟩ :: rest), u) ∧ programs.Nodup ∧
    List.Forall₂ (fun p f => f.name = imageName p.2 ∧ f.ext = "ELF" ∧
      twinTree.node? ["work", "user", p.1, p.2] = some (.file f.contents)) programs rest ∧
    ("a", "a.elf") ∈ programs ∧ ("b", "b.elf") ∈ programs ∧ ("user1", "user.elf") ∉ programs := by
  obtain ⟨files, u, run⟩ := twinTree_collects
  obtain ⟨place, kernel, first, rest, programs, rfl, reaches, _, _, distinct, each, member⟩ :=
    collect_complete twinTree ⟨"."⟩ files u run
  have way : twinTree.follow (twinTree.origin ⟨"."⟩) (Path.segments ⟨"."⟩) = .ok ["work"] := rfl
  cases way.symm.trans reaches.way
  refine ⟨kernel, first, rest, programs, u, run, distinct, each, ?_, ?_, ?_⟩
  · exact (member _).2 ⟨⟨⟨⟨#[65]⟩, rfl⟩, ['a'], by simp, by decide⟩, by decide⟩
  · exact (member _).2 ⟨⟨⟨⟨#[66]⟩, rfl⟩, ['b'], by simp, by decide⟩, by decide⟩
  · exact fun h => ((member _).1 h).2 (by decide)

def shadowTree : FileTree :=
  (((FileTree.fresh ["work"]).addFile ["kernel.elf"] ⟨#[75]⟩).addFile
    ["user", "user1", "user.elf"] ⟨#[85]⟩).addFile ["user", "user1", "USER.elf"] ⟨#[49]⟩

theorem shadowTree_gathered : gathered shadowTree ⟨"."⟩ = [] := by
  have reaches : shadowTree.Reaches ⟨"."⟩ ["work"] := ⟨rfl, rfl⟩
  rw [List.eq_nil_iff_forall_not_mem]
  rintro ⟨d, n⟩ h
  obtain ⟨⟨⟨contents, stands⟩, _⟩, found⟩ := (mem_gathered_iff reaches ⟨["user1"], rfl⟩).1 h
  have present : ["work", "user", d, n] ∈ shadowTree.nodes.map Prod.fst :=
    (node?_ne_none_iff (List.cons_ne_nil _ _)).1 (stands ▸ Option.some_ne_none _)
  have keys : shadowTree.nodes.map Prod.fst = [["work"], ["work", "kernel.elf"], ["work", "user"],
    ["work", "user", "user1"], ["work", "user", "user1", "user.elf"],
    ["work", "user", "user1", "USER.elf"]] := rfl
  rw [keys] at present
  simp only [List.mem_cons, List.cons.injEq, List.not_mem_nil, reduceCtorEq, and_false, and_true,
    true_and, or_false, false_or] at present
  obtain ⟨rfl, rfl⟩ | ⟨rfl, rfl⟩ := present
  · exact found (by decide)
  · exact found (by decide)

/-- The second program is a regular file of the tree, and a search of it ends without that file. -/
theorem shadowed_program_lost : Program shadowTree ["work"] ("user1", "USER.elf") ∧
    shadowTree.node? ["work", "user", "user1", "user.elf"] = some (.file ⟨#[85]⟩) ∧
    shadowTree.node? ["work", "user", "user1", "USER.elf"] = some (.file ⟨#[49]⟩) ∧
    (collect ⟨"."⟩ : Step FileTree (List SourceFile)) shadowTree =
      (.ok [⟨"KERNEL", "ELF", ⟨#[75]⟩⟩, ⟨"USER", "ELF", ⟨#[85]⟩⟩], shadowTree) := by
  refine ⟨⟨⟨_, rfl⟩, ['U', 'S', 'E', 'R'], by simp, by decide⟩, rfl, rfl, ?_⟩
  refine collect_eq_ok_iff.2 ⟨⟨_, _, [], rfl, ⟨rfl, rfl, rfl⟩, ⟨rfl, rfl, rfl⟩, ⟨["user1"], rfl⟩, ?_⟩,
    rfl⟩
  rw [shadowTree_gathered]
  exact .nil

end BootDisk.BuildTree
