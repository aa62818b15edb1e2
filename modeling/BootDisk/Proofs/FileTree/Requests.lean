import BootDisk.Proofs.FileTree.Lookup
import BootDisk.Proofs.Path

set_option autoImplicit false

/-!
# What a tree grants

A request is described by what it finds and by the one change it makes: where a moved file lands,
which file has a size, and what is written over. A request that is refused changes nothing, on trees
as on every storage.
-/
namespace BootDisk

namespace FileTree

/-! ## Where a moved file lands -/

section Destination
variable {t : FileTree} {p : Path} {place directory target : List String} {name : String}

theorem land_eq_ok_iff {slashes : List String} :
    t.land directory name slashes = .ok target ↔ t.node? directory = some .directory ∧
      (name ≠ "." ∧ name ≠ "..") ∧ isLongName name = false ∧ slashes = [] ∧
      t.kindAt? (directory ++ [name]) ≠ some .directory ∧ target = directory ++ [name] := by
  rw [land, ← kindAt?_eq_directory_iff]
  constructor
  · intro h
    split at h
    · cases h
    · rename_i found
      split at h
      · cases h
      · rename_i dots
        split at h
        · cases h
        · rename_i short
          split at h
          · cases h
          · rename_i slash
            split at h
            · cases h
            · rename_i vacant
              cases h
              exact ⟨not_not.1 found, not_or.1 dots, Bool.eq_false_iff.2 short, by simpa using slash,
                vacant, rfl⟩
  · rintro ⟨found, dots, short, rfl, vacant, rfl⟩
    rw [if_neg (not_not_intro found), if_neg (not_or.2 dots), short, if_neg Bool.false_ne_true,
      if_neg (by simp), if_neg vacant]

theorem arrive_eq_ok_iff {fromEnd : List String} :
    t.arrive place fromEnd = .ok target ↔ ∃ before name directory, fromEnd = name :: before ∧
      name ≠ "" ∧ t.follow place before.reverse = .ok directory ∧
      t.land directory name [] = .ok target := by
  rw [arrive]
  constructor
  · intro h
    match cut : fromEnd.drop (fromEnd.takeWhile (· == "")).length, h with
    | name :: before, h =>
      obtain ⟨directory, followed, landed⟩ := Outcome.bind_eq_ok_iff.1 h
      have none := (land_eq_ok_iff.1 landed).2.2.2.1
      rw [none] at landed
      rw [none, List.length_nil, List.drop_zero] at cut
      refine ⟨before, name, directory, cut, ?_, followed, landed⟩
      rintro rfl
      rw [cut] at none
      cases none
  · rintro ⟨before, name, directory, rfl, nonempty, followed, landed⟩
    have none : (name :: before).takeWhile (· == "") = [] := by
      rw [List.takeWhile_cons_of_neg]
      simpa using nonempty
    rw [none]
    exact Outcome.bind_eq_ok_iff.2 ⟨directory, followed, landed⟩

/-- A file lands under a plain name in the directory that the segments before it lead to. -/
structure Lands (t : FileTree) (p : Path) (target : List String) : Prop where
  text : checkText p = .ok ()
  way : ∃ before name directory, p.segments = before ++ [name] ∧ PlainName name ∧
    t.follow (t.origin p) before = .ok directory ∧ t.node? directory = some .directory ∧
    target = directory ++ [name]
  vacant : t.kindAt? target ≠ some .directory

theorem destination_eq_ok_iff : t.destination p = .ok target ↔ t.Lands p target := by
  rw [destination]
  constructor
  · intro h
    split at h
    · cases h
    · obtain ⟨_, text, arrived⟩ := Outcome.bind_eq_ok_iff.1 h
      obtain ⟨before, name, directory, reverse, nonempty, followed, landed⟩ :=
        arrive_eq_ok_iff.1 arrived
      obtain ⟨found, ⟨here, up⟩, short, _, vacant, rfl⟩ := land_eq_ok_iff.1 landed
      refine ⟨text, ⟨before.reverse, name, directory, ?_, ⟨nonempty, here, up, short⟩, followed,
        found, rfl⟩, vacant⟩
      rw [← List.reverse_reverse p.segments, reverse, List.reverse_cons]
  · rintro ⟨text, ⟨before, name, directory, split, plain, followed, found, rfl⟩, vacant⟩
    rw [(checkText_eq_ok_iff.1 text).1, if_neg Bool.false_ne_true, text]
    refine arrive_eq_ok_iff.2 ⟨before.reverse, name, directory, ?_, plain.nonempty, ?_, ?_⟩
    · rw [split, List.reverse_append]
      rfl
    · rw [List.reverse_reverse, followed]
    · exact land_eq_ok_iff.2 ⟨found, ⟨plain.here, plain.up⟩, plain.short, rfl, vacant, rfl⟩

theorem entry_of_segment (plain : PlainName name) (member : name ∈ p.segments)
    (clean : p.hasNul = false) : EntryName name := by
  obtain ⟨piece, inside, rfl⟩ := List.mem_map.1 member
  refine ⟨plain, ?_, ?_⟩
  · rw [String.toList_ofList]
    exact Path.separator_not_mem inside
  · rw [Path.hasNul_eq_false_iff] at clean ⊢
    rw [String.toList_ofList]
    intro nul
    rw [← Path.intercalate_split p.text.toList] at clean
    exact clean (Path.mem_intercalate_of_mem inside nul)

theorem Lands.isOpen (h : t.Lands p target) : t.Open target := by
  obtain ⟨before, name, directory, split, plain, followed, found, rfl⟩ := h.way
  have member : name ∈ p.segments := by simp [split]
  have entry := entry_of_segment plain member (checkText_eq_ok_iff.1 h.text).1
  exact ⟨⟨directory, name, rfl, entry, kindAt?_eq_directory_iff.2 found⟩, h.vacant⟩

/-- What was moved to a path is the file at this path. -/
theorem Lands.file_put (h : t.Lands p target) (new : ByteArray) :
    (t.put target (.file new)).file p = .ok (target, new) := by
  have isOpen := h.isOpen
  obtain ⟨before, name, directory, split, plain, followed, found, rfl⟩ := h.way
  have node : (t.put (directory ++ [name]) (.file new)).node? (directory ++ [name]) =
      some (.file new) := by
    rw [node?_put isOpen, if_pos rfl]
  refine file_eq_ok_iff.2 ⟨locate_eq_ok_iff.2 ⟨h.text, ?_⟩, node⟩
  rw [split, follow_append, origin_put, follow_put isOpen followed]
  exact follow_single (directory_put isOpen found) plain (node ▸ Option.some_ne_none _)

end Destination

/-! ## What is found -/

section Present
variable {t : FileTree} {place m : List String} {segment : String}

theorem enter_present (h : t.node? place ≠ none) (entered : t.enter place segment = .ok m) :
    t.node? m ≠ none := by
  obtain ⟨_, rfl⟩ | ⟨_, rfl⟩ | ⟨_, present, rfl⟩ := enter_cases entered
  · exact h
  · by_cases root : place = []
    · subst root
      exact h
    · rw [← List.dropLast_concat_getLast root] at h
      rw [directory_of_present h]
      exact Option.some_ne_none _
  · exact present

theorem follow_present {segments : List String} (h : t.node? place ≠ none)
    (followed : t.follow place segments = .ok m) : t.node? m ≠ none := by
  induction segments generalizing place with
  | nil =>
    cases followed
    exact h
  | cons segment rest ih =>
    obtain ⟨_, next, entered, tail⟩ := follow_cons_eq_ok.1 followed
    exact ih (enter_present h entered) tail

theorem origin_directory (t : FileTree) (p : Path) : t.node? (t.origin p) = some .directory := by
  rw [origin]
  split
  · rfl
  · exact t.settled

theorem locate_present {p : Path} (located : t.locate p = .ok place) : t.node? place ≠ none := by
  refine follow_present ?_ (locate_eq_ok_iff.1 located).2
  rw [origin_directory]
  exact Option.some_ne_none _

end Present

section Requests
variable {t : FileTree} {p : Path} {place : List String} {contents : ByteArray}

theorem size_of_file (h : t.file p = .ok (place, contents)) : t.size p = .ok contents.size := by
  obtain ⟨located, node⟩ := file_eq_ok_iff.1 h
  rw [size, Outcome.bind_ok located, node]
  rfl

theorem size_of_directory (located : t.locate p = .ok place)
    (node : t.node? place = some .directory) : t.size p = .ok (t.directorySize place) := by
  rw [size, Outcome.bind_ok located, node]
  rfl

theorem file_of_size {n : Nat} (h : t.size p = .ok n) (plain : t.kind? p ≠ some .directory) :
    ∃ place contents, t.file p = .ok (place, contents) := by
  obtain ⟨place, located, _⟩ := Outcome.bind_eq_ok_iff.1 h
  cases node : t.node? place with
  | none => exact absurd node (locate_present located)
  | some n =>
    cases n with
    | file contents => exact ⟨place, contents, file_eq_ok_iff.2 ⟨located, node⟩⟩
    | directory =>
      exact absurd (kind?_eq_some_iff.2 ⟨place, located, kindAt?_eq_directory_iff.2 node⟩) plain

theorem read_eq_ok_iff : t.read p = .ok contents ↔ ∃ q, t.file p = .ok (q, contents) := by
  rw [FileTree.read]
  cases t.file p with
  | error e =>
    constructor
    · rintro ⟨⟩
    · rintro ⟨_, ⟨⟩⟩
  | ok f =>
    constructor
    · rintro ⟨⟩
      exact ⟨f.1, rfl⟩
    · rintro ⟨_, ⟨⟩⟩
      rfl

theorem locate_of_directory (h : t.kind? p = some .directory) :
    ∃ place, t.locate p = .ok place ∧ t.node? place = some .directory := by
  obtain ⟨place, located, kind⟩ := kind?_eq_some_iff.1 h
  exact ⟨place, located, kindAt?_eq_directory_iff.1 kind⟩

theorem file_of_directory (h : t.kind? p = some .directory) :
    t.file p = .error .isADirectory := by
  obtain ⟨place, located, node⟩ := locate_of_directory h
  rw [file, Outcome.bind_ok located, node]
  rfl

theorem names_of_directory (h : t.kind? p = some .directory) :
    ∃ names, t.names p = .ok names := by
  obtain ⟨place, located, node⟩ := locate_of_directory h
  rw [names, Outcome.bind_ok located, node]
  exact ⟨t.children place, rfl⟩

theorem read_of_kind (h : t.kind? p = some .file) : ∃ contents, t.read p = .ok contents := by
  obtain ⟨place, located, kind⟩ := kind?_eq_some_iff.1 h
  obtain ⟨contents, node⟩ := Node.kind_eq_file_iff.1 kind
  exact ⟨contents, read_eq_ok_iff.2 ⟨place, file_eq_ok_iff.2 ⟨located, node⟩⟩⟩

theorem replace_eq (t : FileTree) (scratch p : Path) (contents : ByteArray) :
    t.replace scratch p contents = match t.workshop scratch, t.destination p with
      | .error e, _ => .error (.scratch e)
      | .ok _, .error e => .error (.storage e)
      | .ok _, .ok target => .ok (t.put target (.file contents)) := by
  unfold replace
  generalize t.workshop scratch = workshop
  generalize t.destination p = destination
  match workshop, destination with
  | .error _, _ => rfl
  | .ok _, .error _ => rfl
  | .ok _, .ok _ => rfl

theorem replace_eq_ok {scratch : Path} {l target : List String} (workshop : t.workshop scratch = .ok l)
    (lands : t.Lands p target) :
    t.replace scratch p contents = .ok (t.put target (.file contents)) := by
  rw [replace_eq, workshop, destination_eq_ok_iff.2 lands]

theorem replace_cases (t : FileTree) (scratch p : Path) (contents : ByteArray) :
    (∃ e, t.replace scratch p contents = .error e) ∨
    ∃ l target, t.workshop scratch = .ok l ∧ t.Lands p target := by
  rw [replace_eq]
  generalize place : t.destination p = destination
  generalize t.workshop scratch = workshop
  match workshop, destination with
  | .error _, _ => exact .inl ⟨_, rfl⟩
  | .ok _, .error _ => exact .inl ⟨_, rfl⟩
  | .ok l, .ok target => exact .inr ⟨l, target, rfl, destination_eq_ok_iff.1 place⟩

theorem overwrite_eq_ok (h : t.file p = .ok (place, contents)) (pieces : List (Nat × ByteArray)) :
    t.overwrite p pieces = .ok (t.put place
      (.file (pieces.foldl (fun b piece => Bytes.writeAt b piece.1 piece.2) contents))) := by
  rw [overwrite, h]
  rfl

end Requests

end FileTree

/-! ## Requests that are refused -/

namespace Storage
variable {ε α σ : Type} {error : ε → DiskError} {request : StateM σ (Except ε α)} {s u : σ}

theorem orFail_ok {a : α} (h : request s = (.ok a, u)) :
    (orFail error request : Step σ α) s = (.ok a, u) := by
  have lifted : (liftM request : Step σ (Except ε α)) s = (.ok (.ok a), u) := by
    change (Except.ok (request s).1, (request s).2) = _
    rw [h]
  exact Step.bind_ok lifted

theorem orFail_error {e : ε} (h : request s = (.error e, u)) :
    (orFail error request : Step σ α) s = (.error (.error (error e)), u) := by
  have lifted : (liftM request : Step σ (Except ε α)) s = (.ok (.error e), u) := by
    change (Except.ok (request s).1, (request s).2) = _
    rw [h]
  exact Step.bind_ok lifted

theorem orFail_eq_ok {a : α} (h : (orFail error request : Step σ α) s = (.ok a, u)) :
    request s = (.ok a, u) := by
  match run : request s with
  | (.ok b, v) =>
    cases h.symm.trans (orFail_ok run)
    rfl
  | (.error e, v) => cases h.symm.trans (orFail_error run)

theorem keeps_orFail (h : ∀ s, (request s).2 = s) :
    Step.Keeps (orFail error request : Step σ α) := by
  refine (Step.keeps_lift h).bind fun answer => ?_
  cases answer with
  | ok a => exact Step.keeps_pure a
  | error e => exact fun _ => rfl

theorem orFail_refused (keeps : ∀ {s t e}, request s = (.error e, t) → t = s) {f : Failure}
    (h : (orFail error request : Step σ α) s = (.error f, u)) : u = s := by
  match run : request s with
  | (.ok a, v) => cases h.symm.trans (orFail_ok run)
  | (.error e, v) =>
    cases h.symm.trans (orFail_error run)
    exact keeps run

end Storage

theorem keeps_readInput {σ : Type} [Storage (StateM σ)] [LawfulStorage σ] (path : Path) :
    Step.Keeps (readInput path : Step σ ByteArray) :=
  Storage.keeps_orFail (LawfulStorage.read_keeps path)

theorem readInput_eq_ok_iff {path : Path} {t u : FileTree} {bytes : ByteArray} :
    (readInput path : Step FileTree ByteArray) t = (.ok bytes, u) ↔
      t.read path = .ok bytes ∧ u = t := by
  constructor
  · intro h
    have answered : (t.read path, t) = (.ok bytes, u) := Storage.orFail_eq_ok h
    exact ⟨congrArg Prod.fst answered, (congrArg Prod.snd answered).symm⟩
  · rintro ⟨found, rfl⟩
    exact Storage.orFail_ok (congrArg (·, u) found)

end BootDisk
