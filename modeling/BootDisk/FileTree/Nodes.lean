import BootDisk.Storage

set_option autoImplicit false

/-!
# Nodes and their places

A place is the list of names on the way from the root, which is at the empty place and always a
directory. A list of nodes says what stands at all other places.
-/
namespace BootDisk

inductive Node where
  | file (contents : ByteArray)
  | directory

def Node.kind : Node → FileKind
  | file _ => .file
  | directory => .directory

theorem Node.kind_eq_directory_iff {n : Option Node} :
    n.map kind = some .directory ↔ n = some .directory := by
  match n with
  | none => simp
  | some (.file _) => simp [kind]
  | some .directory => simp [kind]

theorem Node.kind_eq_file_iff {n : Option Node} :
    n.map kind = some .file ↔ ∃ contents, n = some (.file contents) := by
  match n with
  | none => simp
  | some (.file _) => simp [kind]
  | some .directory => simp [kind]

abbrev Nodes := List (List String × Node)

namespace Nodes

def at? (nodes : Nodes) (place : List String) : Option Node :=
  if place = [] then some .directory else nodes.lookup place

def replaceEntry (place : List String) (n : Node) (e : List String × Node) : List String × Node :=
  if e.1 = place then (place, n) else e

def put (nodes : Nodes) (place : List String) (n : Node) : Nodes :=
  if place ∈ nodes.map Prod.fst then nodes.map (replaceEntry place n) else nodes ++ [(place, n)]

variable {nodes : Nodes} {place q : List String} (n : Node)

theorem at?_root : nodes.at? [] = some .directory := rfl

theorem map_fst_replaceEntry : (nodes.map (replaceEntry place n)).map Prod.fst =
    nodes.map Prod.fst := by
  induction nodes with
  | nil => rfl
  | cons e rest ih =>
    have key : (replaceEntry place n e).1 = e.1 := by
      unfold replaceEntry
      split
      · simp_all
      · rfl
    simp only [List.map_cons, key, ih]

theorem distinct_put (distinct : (nodes.map Prod.fst).Nodup) :
    ((nodes.put place n).map Prod.fst).Nodup := by
  unfold put
  split
  · rw [map_fst_replaceEntry]
    exact distinct
  · rename_i absent
    simp only [List.map_append, List.map_cons, List.map_nil, List.nodup_append, List.mem_singleton]
    refine ⟨distinct, by simp, ?_⟩
    rintro a ha b rfl rfl
    exact absent ha

theorem lookup_replaceEntry_other (other : q ≠ place) :
    (nodes.map (replaceEntry place n)).lookup q = nodes.lookup q := by
  induction nodes with
  | nil => rfl
  | cons e rest ih =>
    rw [List.map_cons, List.lookup_cons, List.lookup_cons, ih, replaceEntry]
    by_cases here : e.1 = place
    · rw [if_pos here, here, beq_eq_false_iff_ne.2 other]
    · rw [if_neg here]

theorem lookup_replaceEntry_self (known : place ∈ nodes.map Prod.fst) :
    (nodes.map (replaceEntry place n)).lookup place = some n := by
  induction nodes with
  | nil => simp at known
  | cons e rest ih =>
    rw [List.map_cons, List.lookup_cons, replaceEntry]
    by_cases here : e.1 = place
    · rw [if_pos here, beq_self_eq_true]
    · rw [if_neg here, beq_eq_false_iff_ne.2 (Ne.symm here)]
      rw [List.map_cons, List.mem_cons] at known
      exact ih (known.resolve_left (Ne.symm here))

theorem lookup_put : (nodes.put place n).lookup q = if q = place then some n else nodes.lookup q := by
  unfold put
  split
  · rename_i known
    by_cases same : q = place
    · rw [if_pos same, same, lookup_replaceEntry_self n known]
    · rw [if_neg same, lookup_replaceEntry_other n same]
  · rename_i absent
    rw [List.lookup_append]
    by_cases same : q = place
    · have missing : nodes.lookup q = none := by
        rw [List.lookup_eq_none_iff]
        intro e he
        rw [same, bne_iff_ne]
        exact fun found => absent (found ▸ List.mem_map_of_mem he)
      rw [missing, if_pos same, Option.none_or, List.lookup_cons, beq_iff_eq.2 same]
    · rw [if_neg same, List.lookup_cons, beq_eq_false_iff_ne.2 same, List.lookup_nil,
        Option.or_none]

theorem at?_put (named : place ≠ []) (q : List String) :
    (nodes.put place n).at? q = if q = place then some n else nodes.at? q := by
  by_cases root : q = []
  · rw [root, at?_root, at?_root, if_neg named.symm]
  · rw [at?, at?, if_neg root, if_neg root, lookup_put]

end Nodes

end BootDisk
