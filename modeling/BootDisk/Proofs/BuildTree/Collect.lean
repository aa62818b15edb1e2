import BootDisk.BuildTree
import BootDisk.Proofs.FileTree.Requests
import Mathlib.Data.List.Flatten

set_option autoImplicit false

namespace BootDisk.BuildTree
open FileTree

section Keeps
variable {σ : Type} [Storage (StateM σ)] [LawfulStorage σ]

theorem keeps_namesIn (directory : Path) :
    Step.Keeps (namesIn directory : Step σ (List String)) :=
  (Storage.keeps_orFail (LawfulStorage.names_keeps directory)).bind fun _ => Step.keeps_pure _

theorem keeps_ofKind (kind : FileKind) (directory : Path) (names : List String) :
    Step.Keeps (ofKind kind directory names : Step σ (List String)) := by
  induction names with
  | nil => exact Step.keeps_pure []
  | cons name rest ih =>
    exact (Step.keeps_lift (LawfulStorage.kind?_keeps _)).bind fun _ =>
      ih.bind fun _ => Step.keeps_pure _

theorem keeps_programsBelow (user : Path) (directories : List String) :
    Step.Keeps (programsBelow user directories : Step σ (List (Path × String))) := by
  induction directories with
  | nil => exact Step.keeps_pure []
  | cons directory rest ih =>
    exact (keeps_namesIn _).bind fun names => (keeps_ofKind .file _ _).bind fun _ =>
      ih.bind fun _ => Step.keeps_pure _

theorem keeps_programs (root : Path) :
    Step.Keeps (programs root : Step σ (List (Path × String))) :=
  (keeps_namesIn _).bind fun names => (keeps_ofKind .directory _ names).bind
    fun directories => keeps_programsBelow _ directories

theorem keeps_source (name : String) (path : Path) :
    Step.Keeps (source name path : Step σ SourceFile) :=
  (keeps_readInput path).bind fun _ => Step.keeps_pure _

theorem keeps_collect (root : Path) :
    Step.Keeps (collect root : Step σ (List SourceFile)) :=
  (keeps_source _ _).bind fun _ => (keeps_source _ _).bind fun _ =>
    (keeps_programs root).bind fun found => (Step.keeps_mapM (fun _ => keeps_source _ _) found).bind
      fun _ => Step.keeps_pure _

end Keeps

def userPath (root : Path) : Path := root.join ⟨userDirectory⟩

def firstPath (root : Path) : Path := ((userPath root).join ⟨firstDirectory⟩).join ⟨firstProgram⟩

def programPath (root : Path) (p : String × String) : Path :=
  ((userPath root).join ⟨p.1⟩).join ⟨p.2⟩

/-- The names in a directory in their order; none where there is no directory. -/
def listing (t : FileTree) (p : Path) : List String :=
  match t.names p with
  | .ok names => sorted names
  | .error _ => []

def directoriesIn (t : FileTree) (root : Path) : List String :=
  (listing t (userPath root)).filter fun d =>
    t.kind? ((userPath root).join ⟨d⟩) = some .directory

def programsIn (t : FileTree) (root : Path) (d : String) : List String :=
  ((listing t ((userPath root).join ⟨d⟩)).filter (isProgram d)).filter fun n =>
    t.kind? (programPath root (d, n)) = some .file

/-- The programs behind the first one, as pairs of a directory and a name. -/
def gathered (t : FileTree) (root : Path) : List (String × String) :=
  (directoriesIn t root).flatMap fun d => (programsIn t root d).map fun n => (d, n)

structure Sourced (t : FileTree) (name : String) (path : Path) (f : SourceFile) : Prop where
  name : f.name = name
  ext : f.ext = "ELF"
  contents : t.read path = .ok f.contents

section Runs
variable {t u : FileTree} {root : Path}

theorem Sourced.eq {name : String} {path : Path} {f : SourceFile} (h : Sourced t name path f) :
    f = ⟨name, "ELF", f.contents⟩ := by
  rw [← h.name, ← h.ext]

theorem source_eq_ok_iff {name : String} {path : Path} {f : SourceFile} :
    (source name path : Step FileTree SourceFile) t = (.ok f, u) ↔
      Sourced t name path f ∧ u = t := by
  rw [source, Step.bind_eq_ok_iff]
  constructor
  · rintro ⟨bytes, v, answered, made⟩
    obtain ⟨found, rfl⟩ := readInput_eq_ok_iff.1 answered
    cases made
    exact ⟨⟨rfl, rfl, found⟩, rfl⟩
  · rintro ⟨⟨name, ext, contents⟩, rfl⟩
    refine ⟨f.contents, u, readInput_eq_ok_iff.2 ⟨contents, rfl⟩, ?_⟩
    rw [← name, show imageExtension = f.ext from ext.symm]
    rfl

theorem namesIn_run {p : Path} {names : List String} (h : t.names p = .ok names) :
    (namesIn p : Step FileTree (List String)) t = (.ok (listing t p), t) := by
  have answered : (Storage.names p : StateM FileTree _) t = (.ok names, t) := congrArg (·, t) h
  rw [namesIn, Step.bind_ok (Storage.orFail_ok answered), listing, h]
  rfl

theorem names_of_namesIn {p : Path} {found : List String}
    (h : (namesIn p : Step FileTree (List String)) t = (.ok found, u)) :
    ∃ names, t.names p = .ok names := by
  obtain ⟨names, v, answered, _⟩ := Step.bind_eq_ok_iff.1 h
  have request : (t.names p, t) = (.ok names, v) := Storage.orFail_eq_ok answered
  exact ⟨names, congrArg Prod.fst request⟩

theorem ofKind_run (t : FileTree) (kind : FileKind) (directory : Path) (names : List String) :
    (ofKind kind directory names : Step FileTree (List String)) t =
      (.ok (names.filter fun n => t.kind? (directory.join ⟨n⟩) = some kind), t) := by
  induction names with
  | nil => rfl
  | cons name rest ih =>
    have asked : (liftM (Storage.kind? (directory.join ⟨name⟩) : StateM FileTree _) :
        Step FileTree (Option FileKind)) t = (.ok (t.kind? (directory.join ⟨name⟩)), t) := rfl
    rw [ofKind, Step.bind_ok asked, Step.bind_ok ih, List.filter_cons]
    by_cases same : t.kind? (directory.join ⟨name⟩) = some kind
    · rw [if_pos same, if_pos (by simpa using same)]
      rfl
    · rw [if_neg same, if_neg (by simpa using same)]
      rfl

theorem programsBelow_run {directories : List String}
    (all : ∀ d ∈ directories, t.kind? ((userPath root).join ⟨d⟩) = some .directory) :
    (programsBelow (userPath root) directories : Step FileTree (List (Path × String))) t =
      (.ok ((directories.flatMap fun d => (programsIn t root d).map fun n => (d, n)).map
        fun p => (programPath root p, p.2)), t) := by
  induction directories with
  | nil => rfl
  | cons d rest ih =>
    obtain ⟨names, listed⟩ := names_of_directory (all d List.mem_cons_self)
    rw [programsBelow, Step.bind_ok (namesIn_run listed), Step.bind_ok (ofKind_run _ _ _ _),
      Step.bind_ok (ih fun e he => all e (List.mem_cons_of_mem d he)), List.flatMap_cons,
      List.map_append, List.map_map]
    rfl

theorem programs_run {names : List String} (user : t.names (userPath root) = .ok names) :
    (programs root : Step FileTree (List (Path × String))) t =
      (.ok ((gathered t root).map fun p => (programPath root p, p.2)), t) := by
  have all : ∀ d ∈ directoriesIn t root, t.kind? ((userPath root).join ⟨d⟩) = some .directory :=
    fun d hd => of_decide_eq_true (List.mem_filter.1 hd).2
  exact (Step.bind_ok (namesIn_run user)).trans
    ((Step.bind_ok (ofKind_run _ _ _ _)).trans (programsBelow_run all))

/-- The kernel, the first program, and one file for each program that was gathered. -/
structure Collected (t : FileTree) (root : Path) (kernel first : SourceFile)
    (rest : List SourceFile) : Prop where
  kernel : Sourced t "KERNEL" (root.join kernelPath) kernel
  first : Sourced t "USER" (firstPath root) first
  user : ∃ names, t.names (userPath root) = .ok names
  rest : List.Forall₂ (fun p f => Sourced t (imageName p.2) (programPath root p) f)
    (gathered t root) rest

theorem collect_eq_ok_iff {files : List SourceFile} :
    (collect root : Step FileTree (List SourceFile)) t = (.ok files, u) ↔
      (∃ kernel first rest, files = kernel :: first :: rest ∧
        Collected t root kernel first rest) ∧ u = t := by
  constructor
  · intro h
    obtain ⟨kernel, t₁, head, tail⟩ := Step.bind_eq_ok_iff.1 h
    obtain ⟨standsKernel, rfl⟩ := source_eq_ok_iff.1 head
    obtain ⟨first, t₂, second, later⟩ := Step.bind_eq_ok_iff.1 tail
    obtain ⟨standsFirst, rfl⟩ := source_eq_ok_iff.1 second
    obtain ⟨found, t₃, searched, last⟩ := Step.bind_eq_ok_iff.1 later
    obtain ⟨_, _, listed, _⟩ := Step.bind_eq_ok_iff.1 searched
    obtain ⟨names, user⟩ := names_of_namesIn listed
    cases (programs_run user).symm.trans searched
    obtain ⟨rest, t₄, read, made⟩ := Step.bind_eq_ok_iff.1 last
    obtain ⟨each, rfl⟩ := (Step.mapM_eq_ok_iff fun _ => keeps_source _ _).1 read
    cases made
    rw [List.forall₂_map_left_iff] at each
    exact ⟨⟨kernel, first, rest, rfl, standsKernel, standsFirst, ⟨names, user⟩,
      each.imp fun p f made => (source_eq_ok_iff.1 made).1⟩, rfl⟩
  · rintro ⟨⟨kernel, first, rest, rfl, collected⟩, rfl⟩
    obtain ⟨names, user⟩ := collected.user
    have each : (((gathered u root).map fun p => (programPath root p, p.2)).mapM
        fun p => source (imageName p.2) p.1 : Step FileTree (List SourceFile)) u =
        (.ok rest, u) := by
      rw [Step.mapM_eq_ok_iff fun p : Path × String => keeps_source (imageName p.2) p.1,
        List.forall₂_map_left_iff]
      exact ⟨collected.rest.imp fun p f sourced => source_eq_ok_iff.2 ⟨sourced, rfl⟩, rfl⟩
    rw [collect, Step.bind_ok (source_eq_ok_iff.2 ⟨collected.kernel, rfl⟩)]
    refine (Step.bind_ok (source_eq_ok_iff.2 ⟨collected.first, rfl⟩)).trans ?_
    rw [Step.bind_ok (programs_run user), Step.bind_ok each]
    rfl

theorem kind?_of_mem_gathered {p : String × String} (h : p ∈ gathered t root) :
    t.kind? (programPath root p) = some .file := by
  obtain ⟨d, _, inner⟩ := List.mem_flatMap.1 h
  obtain ⟨n, hn, rfl⟩ := List.mem_map.1 inner
  exact of_decide_eq_true (List.mem_filter.1 hn).2

/-- A search needs the first two files and the listing of the user directory; what it gathers then can
be read. -/
theorem collect_isOk_iff :
    (∃ files u, (collect root : Step FileTree (List SourceFile)) t = (.ok files, u)) ↔
      (∃ kernel, t.read (root.join kernelPath) = .ok kernel) ∧
      (∃ first, t.read (firstPath root) = .ok first) ∧
      ∃ names, t.names (userPath root) = .ok names := by
  constructor
  · rintro ⟨files, u, h⟩
    obtain ⟨⟨kernel, first, rest, rfl, collected⟩, -⟩ := collect_eq_ok_iff.1 h
    exact ⟨⟨_, collected.kernel.contents⟩, ⟨_, collected.first.contents⟩, collected.user⟩
  · rintro ⟨⟨kernel, standsKernel⟩, ⟨first, standsFirst⟩, user⟩
    let contents p := (t.read (programPath root p)).toOption.getD .empty
    have each : List.Forall₂ (fun p f => Sourced t (imageName p.2) (programPath root p) f)
        (gathered t root) ((gathered t root).map fun p => ⟨imageName p.2, "ELF", contents p⟩) := by
      rw [List.forall₂_map_right_iff, List.forall₂_same]
      intro p hp
      obtain ⟨bytes, read⟩ := read_of_kind (kind?_of_mem_gathered hp)
      refine ⟨rfl, rfl, ?_⟩
      dsimp only [contents]
      rw [read]
      rfl
    exact ⟨_, t, collect_eq_ok_iff.2 ⟨⟨⟨"KERNEL", "ELF", kernel⟩, ⟨"USER", "ELF", first⟩, _, rfl,
      ⟨rfl, rfl, standsKernel⟩, ⟨rfl, rfl, standsFirst⟩, user, each⟩, rfl⟩⟩

end Runs

end BootDisk.BuildTree
