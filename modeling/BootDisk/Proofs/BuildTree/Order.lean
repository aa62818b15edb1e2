import BootDisk.Builder
import BootDisk.Proofs.BuildTree.Collect
import BootDisk.Proofs.FileTree.Listings

set_option autoImplicit false

/-!
# The order of programs

Names are sorted as soon as they are listed, so that a search ends alike on all trees that hold the
same, whatever the order of their listings. The directories are sorted and the names in each of them,
and so is the whole list of programs: by directory first and by name second.
-/
namespace BootDisk.BuildTree
open FileTree

section Sorted
variable {l m : List String}

theorem pairwise_sorted (l : List String) : (sorted l).Pairwise (· ≤ ·) := by
  have trans : ∀ a b c : String, decide (a ≤ b) = true → decide (b ≤ c) = true →
      decide (a ≤ c) = true := fun a b c ab bc =>
    decide_eq_true (String.le_trans (of_decide_eq_true ab) (of_decide_eq_true bc))
  have total : ∀ a b : String, (decide (a ≤ b) || decide (b ≤ a)) = true := by
    intro a b
    rw [Bool.or_eq_true, decide_eq_true_iff, decide_eq_true_iff]
    exact String.le_total a b
  have ordered := List.pairwise_mergeSort trans total l
  exact ordered.imp of_decide_eq_true

theorem sorted_perm (l : List String) : (sorted l).Perm l := List.mergeSort_perm l _

theorem sorted_eq_of_perm (h : l.Perm m) : sorted l = sorted m := by
  have perm : (sorted l).Perm (sorted m) := ((sorted_perm l).trans h).trans (sorted_perm m).symm
  exact perm.eq_of_pairwise (fun _ _ _ _ => String.le_antisymm) (pairwise_sorted l)
    (pairwise_sorted m)

theorem pairwise_sorted_lt (distinct : l.Nodup) : (sorted l).Pairwise (· < ·) := by
  have apart : (sorted l).Pairwise (· ≠ ·) := (sorted_perm l).nodup_iff.2 distinct
  refine ((pairwise_sorted l).and apart).imp fun {a b} h => ?_
  rw [← String.not_le]
  exact fun back => h.2 (String.le_antisymm h.1 back)

end Sorted

section Agrees
variable {t u : FileTree} (alike : t.Alike u)
include alike

theorem agrees_namesIn (p : Path) :
    Step.Agrees (namesIn p : Step FileTree (List String)) t u := by
  rcases alike.names p with ⟨e, left, right⟩ | ⟨l, m, left, right, perm⟩
  · have refused : ∀ v : FileTree, v.names p = .error e →
        (namesIn p : Step FileTree (List String)) v =
          (.error (.error (.unreadableInput p e)), v) := by
      intro v h
      have answered : (Storage.names p : StateM FileTree _) v = (.error e, v) := congrArg (·, v) h
      rw [namesIn, Step.bind_error (Storage.orFail_error answered)]
    exact ⟨_, refused t left, refused u right⟩
  · refine ⟨.ok (sorted l), ?_, ?_⟩
    · rw [namesIn_run left, listing, left]
    · rw [namesIn_run right, listing, right, sorted_eq_of_perm perm]

theorem agrees_ofKind (kind : FileKind) (directory : Path) (names : List String) :
    Step.Agrees (ofKind kind directory names : Step FileTree (List String)) t u := by
  refine ⟨_, ofKind_run t kind directory names, ?_⟩
  rw [ofKind_run]
  simp only [alike.kind?]

theorem agrees_programsBelow (user : Path) (directories : List String) :
    Step.Agrees (programsBelow user directories : Step FileTree (List (Path × String))) t u := by
  induction directories with
  | nil => exact Step.agrees_pure []
  | cons directory rest ih =>
    exact (agrees_namesIn alike _).bind fun names => (agrees_ofKind alike .file _ _).bind fun _ =>
      ih.bind fun _ => Step.agrees_pure _

theorem agrees_source (name : String) (path : Path) :
    Step.Agrees (source name path : Step FileTree SourceFile) t u := by
  refine Step.Agrees.bind ?_ fun _ => Step.agrees_pure _
  cases read : t.read path with
  | error e =>
    have again : u.read path = .error e := (alike.read path).symm.trans read
    exact ⟨_, Storage.orFail_error (congrArg (·, t) read),
      Storage.orFail_error (congrArg (·, u) again)⟩
  | ok bytes =>
    have again : u.read path = .ok bytes := (alike.read path).symm.trans read
    exact ⟨.ok bytes, readInput_eq_ok_iff.2 ⟨read, rfl⟩, readInput_eq_ok_iff.2 ⟨again, rfl⟩⟩

theorem agrees_collect (root : Path) :
    Step.Agrees (collect root : Step FileTree (List SourceFile)) t u := by
  refine (agrees_source alike _ _).bind fun _ => (agrees_source alike _ _).bind fun _ => ?_
  refine Step.Agrees.bind ?_ fun found => (Step.agrees_mapM
    (fun _ => agrees_source alike _ _) found).bind fun _ => Step.agrees_pure _
  exact (agrees_namesIn alike _).bind fun names => (agrees_ofKind alike .directory _ names).bind
    fun directories => agrees_programsBelow alike _ directories

end Agrees

/-- One program comes before another: by the directory first, by the name second. -/
def Before : String × String → String × String → Prop := Prod.Lex (· < ·) (· < ·)

theorem Before.ne {p q : String × String} (h : Before p q) : p ≠ q := by
  rintro rfl
  obtain ⟨d, n⟩ := p
  cases h with
  | left _ _ less => exact String.lt_irrefl d less
  | right _ less => exact String.lt_irrefl n less

section Order
variable (t : FileTree) (root : Path)

theorem listing_increasing (p : Path) : (listing t p).Pairwise (· < ·) := by
  rw [listing]
  cases found : t.names p with
  | error e => exact .nil
  | ok names =>
    exact pairwise_sorted_lt (nodup_names found)

theorem gathered_increasing : (gathered t root).Pairwise Before := by
  rw [gathered, List.pairwise_flatMap]
  constructor
  · intro d _
    rw [List.pairwise_map]
    exact (((listing_increasing t _).filter _).filter _).imp fun less => Prod.Lex.right d less
  · refine ((listing_increasing t _).filter _).imp fun less p hp q hq => ?_
    obtain ⟨a, _, rfl⟩ := List.mem_map.1 hp
    obtain ⟨b, _, rfl⟩ := List.mem_map.1 hq
    exact Prod.Lex.left a b less

end Order

def imageOf (root : Path) (s : Settings) : Step FileTree DiskImage := do
  DiskImage.build (← collect root) s

/-- Every order of listings occurs; a search and the image built from it do not depend on it; and the
programs behind the first one are strictly increasing. -/
theorem collect_ordered (t : FileTree) (root : Path) :
    (∀ order : List String → List String, (∀ place, (order place).Perm (t.children place)) →
      ∃ u, t.Alike u ∧ ∀ place, u.children place = order place) ∧
    (∀ u, t.Alike u → Step.Agrees (collect root : Step FileTree (List SourceFile)) t u ∧
      ∀ s, Step.Agrees (imageOf root s) t u) ∧
    ∀ files u, (collect root : Step FileTree (List SourceFile)) t = (.ok files, u) →
      ∃ kernel first rest programs, files = kernel :: first :: rest ∧
        programs.Pairwise Before ∧
        List.Forall₂ (fun p f => Sourced t (imageName p.2) (programPath root p) f) programs rest := by
  refine ⟨fun order perm => ⟨arrange perm, alike_arrange perm, children_arrange perm⟩, ?_, ?_⟩
  · intro u alike
    have agrees := agrees_collect alike root
    exact ⟨agrees, fun s => agrees.bind fun files => Step.agrees_outcome (DiskImage.build files s)⟩
  · intro files u h
    obtain ⟨⟨kernel, first, rest, rfl, collected⟩, -⟩ := collect_eq_ok_iff.1 h
    exact ⟨kernel, first, rest, gathered t root, rfl, gathered_increasing t root, collected.rest⟩

def twinTree : FileTree :=
  ((((FileTree.fresh ["work"]).addFile ["kernel.elf"] ⟨#[75]⟩).addFile
    ["user", "user1", "user.elf"] ⟨#[85]⟩).addFile ["user", "b", "b.elf"] ⟨#[66]⟩).addFile
    ["user", "a", "a.elf"] ⟨#[65]⟩

theorem twinTree_collects : ∃ files u,
    (collect ⟨"."⟩ : Step FileTree (List SourceFile)) twinTree = (.ok files, u) :=
  collect_isOk_iff.2 ⟨⟨⟨#[75]⟩, rfl⟩, ⟨⟨#[85]⟩, rfl⟩, ⟨["user1", "b", "a"], rfl⟩⟩

/-- The search on the tree and on one with every listing reversed. -/
theorem twinTree_ordered : ∃ u : FileTree,
    twinTree.children ["work", "user"] = ["user1", "b", "a"] ∧
    u.children ["work", "user"] = ["a", "b", "user1"] ∧
    Step.Agrees (collect ⟨"."⟩ : Step FileTree (List SourceFile)) twinTree u ∧
    ∃ files v, (collect ⟨"."⟩ : Step FileTree (List SourceFile)) twinTree = (.ok files, v) ∧
      ∃ kernel first rest programs, files = kernel :: first :: rest ∧ programs.Pairwise Before ∧
        List.Forall₂ (fun p f => Sourced twinTree (imageName p.2) (programPath ⟨"."⟩ p) f)
          programs rest := by
  obtain ⟨arranged, agrees, ordered⟩ := collect_ordered twinTree ⟨"."⟩
  obtain ⟨u, alike, children⟩ := arranged (fun place => (twinTree.children place).reverse)
    fun place => List.reverse_perm _
  obtain ⟨files, v, run⟩ := twinTree_collects
  exact ⟨u, rfl, children ["work", "user"], (agrees u alike).1, files, v, run, ordered files v run⟩

end BootDisk.BuildTree
