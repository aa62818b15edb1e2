import BootDisk.Proofs.FileTree.Requests
import Mathlib.Data.List.Dedup
import Mathlib.Data.List.Perm.Basic

set_option autoImplicit false

/-!
# The order of listings

Trees that hold the same at every place may list a directory in different orders, and in all orders
that there are. Nothing but a listing depends on the order: every path leads to the same place in such
trees, and what stands there is the same.
-/
namespace BootDisk.FileTree

/-! ## The names in a directory -/

section Children
variable {t : FileTree} {place : List String} {name : String}

theorem eq_concat_iff {l : List String} :
    l = place ++ [name] ↔ l.dropLast = place ∧ l.getLast? = some name := by
  constructor
  · rintro rfl
    exact ⟨List.dropLast_concat, List.getLast?_concat⟩
  · rintro ⟨rfl, last⟩
    exact (List.dropLast_append_getLast? name last).symm

theorem node?_ne_none_iff {q : List String} (named : q ≠ []) :
    t.node? q ≠ none ↔ q ∈ t.nodes.map Prod.fst := by
  rw [node?, Nodes.at?, if_neg named, Ne, List.lookup_eq_none_iff, List.mem_map]
  constructor
  · intro h
    by_contra absent
    exact h fun e he => bne_iff_ne.2 fun same => absent ⟨e, he, same.symm⟩
  · rintro ⟨e, he, rfl⟩ h
    exact absurd (h e he) (by simp)

theorem mem_children_iff : name ∈ t.children place ↔ t.node? (place ++ [name]) ≠ none := by
  rw [children, List.mem_filterMap, node?_ne_none_iff (by simp), List.mem_map]
  refine exists_congr fun e => and_congr_right fun _ => ?_
  rw [eq_concat_iff]
  by_cases below : e.1.dropLast = place
  · rw [if_pos below, and_iff_right below]
  · rw [if_neg below]
    exact ⟨fun h => (nomatch h), fun h => absurd h.1 below⟩

theorem nodup_children (t : FileTree) (place : List String) : (t.children place).Nodup := by
  have keys : t.children place = (t.nodes.map Prod.fst).filterMap fun k =>
      if k.dropLast = place then k.getLast? else none := by
    rw [List.filterMap_map]
    rfl
  rw [keys]
  refine t.distinct.filterMap fun k l name here there => ?_
  have whole : ∀ {q : List String},
      name ∈ (if q.dropLast = place then q.getLast? else none) → q = place ++ [name] := by
    intro q h
    split at h
    · exact eq_concat_iff.2 ⟨‹_›, h⟩
    · cases h
  rw [whole here, whole there]

theorem nodup_names {p : Path} {names : List String} (h : t.names p = .ok names) :
    names.Nodup := by
  obtain ⟨place, _, answer⟩ := Outcome.bind_eq_ok_iff.1 h
  match t.node? place, answer with
  | some .directory, answer =>
    cases answer
    exact nodup_children t place

end Children

/-! ## Trees that hold the same -/

/-- Both trees hold the same at every place and have one working directory. Their listings may differ
in order. -/
structure Alike (t u : FileTree) : Prop where
  node (place : List String) : t.node? place = u.node? place
  home : t.home = u.home

section Alike
variable {t u : FileTree} (alike : t.Alike u)
include alike

theorem Alike.children_perm (place : List String) :
    (t.children place).Perm (u.children place) := by
  rw [List.perm_ext_iff_of_nodup (nodup_children t place) (nodup_children u place)]
  intro name
  rw [mem_children_iff, mem_children_iff, alike.node]

theorem Alike.kindAt? (place : List String) : t.kindAt? place = u.kindAt? place := by
  rw [FileTree.kindAt?, FileTree.kindAt?, alike.node]

theorem Alike.enter (place : List String) (segment : String) :
    t.enter place segment = u.enter place segment := by
  rw [FileTree.enter, FileTree.enter, alike.node]

theorem Alike.follow (place : List String) (segments : List String) :
    t.follow place segments = u.follow place segments := by
  induction segments generalizing place with
  | nil => rfl
  | cons segment rest ih =>
    rw [FileTree.follow, FileTree.follow, alike.kindAt?, alike.enter]
    congr 2
    funext next
    exact ih next

theorem Alike.locate (p : Path) : t.locate p = u.locate p := by
  rw [FileTree.locate, FileTree.locate, origin, origin, alike.home, alike.follow]

theorem Alike.read (p : Path) : t.read p = u.read p := by
  rw [FileTree.read, FileTree.read, file, file, alike.locate]
  congr 2
  funext place
  rw [alike.node]

theorem Alike.kind? (p : Path) : t.kind? p = u.kind? p := by
  rw [FileTree.kind?, FileTree.kind?, alike.locate]
  cases u.locate p with
  | error e => rfl
  | ok place => exact alike.kindAt? place

/-- Both listings are refused alike, or they are the same up to their order. -/
theorem Alike.names (p : Path) : (∃ e, t.names p = .error e ∧ u.names p = .error e) ∨
    ∃ l m, t.names p = .ok l ∧ u.names p = .ok m ∧ l.Perm m := by
  rw [FileTree.names, FileTree.names, alike.locate]
  cases u.locate p with
  | error e => exact .inl ⟨e, rfl, rfl⟩
  | ok place =>
    rw [Outcome.bind_ok rfl, Outcome.bind_ok rfl, alike.node]
    cases u.node? place with
    | none => exact .inl ⟨_, rfl, rfl⟩
    | some n =>
      cases n with
      | file contents => exact .inl ⟨_, rfl, rfl⟩
      | directory => exact .inr ⟨_, _, rfl, rfl, alike.children_perm place⟩

end Alike

/-! ## Every order of listings occurs -/

section Arrange
variable (t : FileTree) (order : List String → List String)

theorem lookup_of_values {l : List (List String × Node)} (value : List String → Node)
    (values : ∀ e ∈ l, e.2 = value e.1) (q : List String) :
    l.lookup q = if q ∈ l.map Prod.fst then some (value q) else none := by
  induction l with
  | nil => rfl
  | cons e rest ih =>
    rw [List.lookup_cons, ih fun f hf => values f (List.mem_cons_of_mem e hf), List.map_cons,
      values e List.mem_cons_self]
    by_cases here : q = e.1
    · rw [beq_iff_eq.2 here, if_pos (List.mem_cons.2 (.inl here)), here]
    · rw [beq_eq_false_iff_ne.2 here]
      simp only [List.mem_cons, here, false_or]

theorem flatMap_single {α β : Type} [DecidableEq α] {l : List α} (distinct : l.Nodup) (a : α)
    (f : α → List β) :
    (l.flatMap fun b => if b = a then f b else []) = if a ∈ l then f a else [] := by
  induction l with
  | nil => rfl
  | cons b rest ih =>
    rw [List.flatMap_cons, ih distinct.of_cons]
    by_cases here : b = a
    · subst here
      rw [if_pos rfl, if_neg (List.nodup_cons.1 distinct).1, List.append_nil,
        if_pos List.mem_cons_self]
    · rw [if_neg here, List.nil_append]
      simp only [List.mem_cons, Ne.symm here, false_or]

def parents : List (List String) := (t.nodes.map fun e => e.1.dropLast).dedup

def entryAt (place : List String) (name : String) : List String × Node :=
  (place ++ [name], (t.node? (place ++ [name])).getD .directory)

def arrangedEntries : Nodes :=
  t.parents.flatMap fun place => (order place).map (t.entryAt place)

variable {t order} (perm : ∀ place, (order place).Perm (t.children place))
include perm

theorem mem_parents {place : List String} {name : String} (h : name ∈ order place) :
    place ∈ t.parents := by
  have present := (perm place).mem_iff.1 h
  rw [mem_children_iff, node?_ne_none_iff (by simp), List.mem_map] at present
  obtain ⟨e, he, key⟩ := present
  exact List.mem_dedup.2 (List.mem_map.2 ⟨e, he, by rw [key, List.dropLast_concat]⟩)

theorem arrangedEntries_distinct : ((t.arrangedEntries order).map Prod.fst).Nodup := by
  rw [arrangedEntries, List.map_flatMap, List.nodup_flatMap]
  constructor
  · intro place _
    rw [List.map_map]
    refine ((perm place).nodup_iff.2 (nodup_children t place)).map ?_
    intro a b same
    exact List.singleton_injective (List.append_cancel_left same)
  · refine (List.nodup_dedup _).imp ?_
    intro p q other k inP inQ
    simp only [List.map_map, List.mem_map, Function.comp_apply] at inP inQ
    obtain ⟨a, _, rfl⟩ := inP
    obtain ⟨b, _, same⟩ := inQ
    exact other (List.append_inj_left' same rfl).symm

theorem mem_arrangedEntries {q : List String} (named : q ≠ []) :
    q ∈ (t.arrangedEntries order).map Prod.fst ↔ t.node? q ≠ none := by
  obtain ⟨place, name, rfl⟩ : ∃ place name, q = place ++ [name] :=
    ⟨_, _, (List.dropLast_append_getLast named).symm⟩
  rw [← mem_children_iff, ← (perm place).mem_iff, List.mem_map]
  constructor
  · rintro ⟨e, he, key⟩
    obtain ⟨p, _, inner⟩ := List.mem_flatMap.1 he
    obtain ⟨n, hn, rfl⟩ := List.mem_map.1 inner
    obtain ⟨rfl, same⟩ := List.append_inj' key rfl
    rw [← List.singleton_injective same]
    exact hn
  · intro h
    exact ⟨t.entryAt place name,
      List.mem_flatMap.2 ⟨place, mem_parents perm h, List.mem_map_of_mem h⟩, rfl⟩

theorem at?_arrangedEntries (q : List String) : (t.arrangedEntries order).at? q = t.node? q := by
  by_cases root : q = []
  · rw [root]
    rfl
  · have values : ∀ e ∈ t.arrangedEntries order, e.2 = (t.node? e.1).getD .directory := by
      intro e he
      obtain ⟨place, _, inner⟩ := List.mem_flatMap.1 he
      obtain ⟨name, _, rfl⟩ := List.mem_map.1 inner
      rfl
    rw [Nodes.at?, if_neg root, lookup_of_values (fun k => (t.node? k).getD .directory) values]
    simp only [mem_arrangedEntries perm root]
    cases t.node? q with
    | none => rfl
    | some n => rfl

/-- The tree that lists every directory in the given order. -/
def arrange : FileTree where
  nodes := t.arrangedEntries order
  home := t.home
  directorySize := t.directorySize
  distinct := arrangedEntries_distinct perm
  sound place name present := by
    rw [at?_arrangedEntries perm] at present ⊢
    exact t.sound place name present
  settled := (at?_arrangedEntries perm t.home).trans t.settled

theorem alike_arrange : t.Alike (arrange perm) :=
  ⟨fun place => (at?_arrangedEntries perm place).symm, rfl⟩

theorem children_arrange (place : List String) : (arrange perm).children place = order place := by
  have below : ∀ p, ((order p).map (t.entryAt p)).filterMap
      (fun e => if e.1.dropLast = place then e.1.getLast? else none) =
      if p = place then order p else [] := by
    intro p
    rw [List.filterMap_map]
    by_cases here : p = place
    · rw [if_pos here]
      simp [Function.comp_def, entryAt, here]
    · rw [if_neg here]
      simp [entryAt, here]
  change (t.arrangedEntries order).filterMap _ = _
  rw [arrangedEntries, List.filterMap_flatMap]
  simp only [below]
  rw [flatMap_single (l := t.parents) (List.nodup_dedup _)]
  by_cases known : place ∈ t.parents
  · exact if_pos known
  · rw [if_neg known, eq_comm, List.eq_nil_iff_forall_not_mem]
    exact fun name h => known (mem_parents perm h)

end Arrange

end BootDisk.FileTree
