import BootDisk.Proofs.AllocationTable.Chains
import Mathlib.Data.List.Nodup

set_option autoImplicit false

/-!
# Walks on any table

Nothing is assumed of the entries here: they may lead out of the table, into one another or round in
a loop. A walk follows them until one leads nowhere. Clusters are finitely many, so a walk that is
still going after as many steps as the table has entries has come back to a cluster, and one that
has come back never stops. The length alone therefore tells a loop from a chain.
-/
namespace BootDisk.AllocationTable

/-! ## Following entries -/

/-- A value of an entry behind which no chain goes on. -/
def Final (t : AllocationTable) (value : Nat) : Prop :=
  value = free ∨ value = 1 ∨ value = badMark ∨ isEndMark value = true ∨ t.capacity ≤ value

/-- The cluster that the entry of `c` leads to. The marks and free entries lead nowhere, also where
the table is large enough to have a cluster of that number. -/
def next? (t : AllocationTable) (c : Nat) : Option Nat :=
  if stops (t.entry c) then none
  else if Geometry.firstCluster ≤ t.entry c ∧ t.entry c < t.capacity then some (t.entry c)
  else none

def follow (t : AllocationTable) : Nat → Nat → Option Nat
  | 0, c => some c
  | k + 1, c => (t.next? c).bind (t.follow k)

/-- From `c` on the entries come back to a cluster that was met before. -/
def Returns (t : AllocationTable) (c : Nat) : Prop :=
  ∃ i j d, i < j ∧ t.follow i c = some d ∧ t.follow j c = some d

section Steps
variable {t : AllocationTable} {c d : Nat}

theorem next?_eq_some (h : t.next? c = some d) :
    d = t.entry c ∧ Geometry.firstCluster ≤ d ∧ d < t.capacity := by
  unfold next? at h
  split at h
  · cases h
  · split at h
    · rename_i bounds
      cases h
      exact ⟨rfl, bounds⟩
    · cases h

theorem next?_eq_none (h : t.next? c = none) : t.Final (t.entry c) := by
  unfold next? at h
  unfold Final
  split at h
  · rename_i stop
    simp only [stops, Bool.or_eq_true, beq_iff_eq] at stop
    rcases stop with (ended | bad) | empty
    · exact .inr (.inr (.inr (.inl ended)))
    · exact .inr (.inr (.inl bad))
    · exact .inl empty
  · split at h
    · cases h
    · unfold Geometry.firstCluster free at *
      omega

theorem follow_one : t.follow 1 c = t.next? c := Option.bind_fun_some (t.next? c)

theorem follow_add (i j : Nat) : t.follow (i + j) c = (t.follow i c).bind (t.follow j) := by
  induction i generalizing c with
  | zero => rw [Nat.zero_add]; rfl
  | succ i ih =>
    rw [Nat.add_right_comm, follow, follow, Option.bind_assoc]
    congr 1
    funext d
    exact ih

/-- Behind a return the walk repeats what it did before. -/
theorem Returns.endless (h : t.Returns c) (k : Nat) : ∃ d, t.follow k c = some d := by
  obtain ⟨i, j, d, before, first, again⟩ := h
  induction k using Nat.strongRecOn with
  | ind k ih =>
    by_cases early : k ≤ j
    · obtain ⟨rest, rfl⟩ := Nat.exists_eq_add_of_le early
      rw [follow_add] at again
      obtain ⟨e, here, _⟩ := Option.bind_eq_some_iff.1 again
      exact ⟨e, here⟩
    · obtain ⟨rest, rfl⟩ := Nat.exists_eq_add_of_le (Nat.le_of_not_le early)
      obtain ⟨e, earlier⟩ := ih (i + rest) (by omega)
      rw [follow_add, first] at earlier
      exact ⟨e, by rw [follow_add, again]; exact earlier⟩

end Steps

/-! ## The walk -/

section Path
variable {t : AllocationTable} {c : Nat} (inside : Geometry.firstCluster ≤ c ∧ c < t.capacity)

theorem length_path_le (t : AllocationTable) (fuel c : Nat) : (t.path fuel c).length ≤ fuel := by
  induction fuel generalizing c with
  | zero => simp [path]
  | succ fuel ih =>
    rw [path]
    split
    · split
      · simp
      · simpa using ih _
    · simp

include inside

theorem path_next (fuel : Nat) :
    t.path (fuel + 1) c = c :: (t.next? c).elim [] (t.path fuel) := by
  rw [path_succ fuel inside.1 inside.2, next?]
  split
  · rfl
  · split
    · rfl
    · cases fuel with
      | zero => rfl
      | succ fuel => simp [path, *]

/-- The walk lists what following the entries reaches, as far as its fuel goes. -/
theorem getElem?_path (fuel k : Nat) :
    (t.path fuel c)[k]? = if k < fuel then t.follow k c else none := by
  induction fuel generalizing c k with
  | zero => simp [path]
  | succ fuel ih =>
    rw [path_next inside]
    cases k with
    | zero => simp [follow]
    | succ k =>
      rw [List.getElem?_cons_succ, follow]
      cases h : t.next? c with
      | none => simp
      | some d => simpa using ih (next?_eq_some h).2 k

theorem follow_of_getElem? {fuel k d : Nat} (h : (t.path fuel c)[k]? = some d) :
    t.follow k c = some d := by
  rw [getElem?_path inside] at h
  split at h
  · exact h
  · cases h

theorem nodup_of_not_returns (fuel : Nat) (h : ¬ t.Returns c) : (t.path fuel c).Nodup := by
  rw [List.nodup_iff_getElem?_ne_getElem?]
  intro i j before last same
  have later := List.getElem?_eq_getElem last
  exact h ⟨i, j, _, before, follow_of_getElem? inside (same.trans later),
    follow_of_getElem? inside later⟩

/-- Distinct clusters with an entry are fewer than the entries. -/
theorem length_path_lt (h : ¬ t.Returns c) : (t.path t.capacity c).length < t.capacity := by
  have known : t.path t.capacity c ⊆ List.range' Geometry.firstCluster (t.capacity - 2) := by
    intro d hd
    have := mem_path hd
    rw [List.mem_range'_1]
    unfold Geometry.firstCluster at *
    omega
  have bound := (nodup_of_not_returns inside t.capacity h).length_le_of_subset known
  rw [List.length_range'] at bound
  unfold Geometry.firstCluster at inside
  omega

theorem length_path_eq_iff : (t.path t.capacity c).length = t.capacity ↔ t.Returns c := by
  constructor
  · intro full
    apply Classical.byContradiction
    intro never
    have := length_path_lt inside never
    omega
  · intro h
    apply Nat.le_antisymm (length_path_le t t.capacity c)
    apply Nat.le_of_not_lt
    intro short
    obtain ⟨d, reached⟩ := h.endless (t.path t.capacity c).length
    have ended := getElem?_path inside t.capacity (t.path t.capacity c).length
    rw [List.getElem?_eq_none (Nat.le_refl _), if_pos short, reached] at ended
    cases ended

theorem final_of_short {fuel : Nat} (short : (t.path fuel c).length < fuel) :
    ∃ last, (t.path fuel c).getLast? = some last ∧ t.Final (t.entry last) := by
  obtain ⟨rest, rfl⟩ : ∃ rest, fuel = rest + 1 := ⟨fuel - 1, by omega⟩
  obtain ⟨n, length⟩ : ∃ n, (t.path (rest + 1) c).length = n + 1 := by
    rw [path_next inside]
    exact ⟨_, rfl⟩
  obtain ⟨last, found⟩ : ∃ last, (t.path (rest + 1) c)[n]? = some last :=
    ⟨_, List.getElem?_eq_getElem (by omega)⟩
  have behind := getElem?_path inside (rest + 1) (n + 1)
  rw [List.getElem?_eq_none (by omega), if_pos (by omega), follow_add,
    follow_of_getElem? inside found, Option.bind_some, follow_one] at behind
  refine ⟨last, ?_, next?_eq_none behind.symm⟩
  rw [List.getLast?_eq_getElem?, length]
  exact found

end Path

/-- The clusters of a walk, each found in the entry of the one before. -/
structure Walk (t : AllocationTable) (start : Nat) (clusters : List Nat) : Prop where
  head : clusters.head? = some start
  inside : ∀ c ∈ clusters, Geometry.firstCluster ≤ c ∧ c < t.capacity
  linked : ∀ k c d, clusters[k]? = some c → clusters[k + 1]? = some d → d = t.entry c

structure Ended (t : AllocationTable) (clusters : List Nat) : Prop where
  distinct : clusters.Nodup
  short : clusters.length < t.capacity
  final : ∃ last, clusters.getLast? = some last ∧ t.Final (t.entry last)

theorem walk_chain {t : AllocationTable} {start : Nat}
    (inside : Geometry.firstCluster ≤ start ∧ start < t.capacity) :
    t.Walk start (t.chain start) where
  head := by
    rw [chain_eq, List.head?_eq_getElem?, getElem?_path inside, if_pos (by omega)]
    rfl
  inside := fun c hc => mem_chain hc
  linked := by
    intro k c d here behind
    rw [chain_eq] at here behind
    have reached := follow_of_getElem? inside behind
    rw [follow_add, follow_of_getElem? inside here, Option.bind_some, follow_one] at reached
    exact (next?_eq_some reached).1

/-- The chain of any number in any table. It has as many clusters as the table has entries exactly
when the entries lead round in a loop, and otherwise it is a proper chain. -/
theorem chain_exact (t : AllocationTable) (start : Nat) :
    (¬ (Geometry.firstCluster ≤ start ∧ start < t.capacity) → t.chain start = []) ∧
    (Geometry.firstCluster ≤ start ∧ start < t.capacity →
      t.Walk start (t.chain start) ∧
      (t.Ended (t.chain start) ∨ (t.chain start).length = t.capacity) ∧
      ((t.chain start).length = t.capacity ↔ t.Returns start)) := by
  constructor
  · intro outside
    rw [chain_eq]
    cases t.capacity <;> simp [path, outside]
  · intro inside
    have full := length_path_eq_iff inside
    rw [← chain_eq] at full
    refine ⟨walk_chain inside, ?_, full⟩
    by_cases returns : t.Returns start
    · exact .inr (full.2 returns)
    · left
      have short := length_path_lt inside returns
      rw [chain_eq]
      exact ⟨nodup_of_not_returns inside _ returns, short, final_of_short inside short⟩

def looped : AllocationTable :=
  ⟨Bytes.ofList [0xf8, 0xff, 0xff, 0x03, 0x20, 0x00, 0x05, 0xf0, 0xff]⟩

theorem looped_exact :
    looped.chain 2 = [2, 3, 2, 3, 2, 3] ∧ looped.Returns 2 ∧ looped.Walk 2 (looped.chain 2) ∧
    looped.chain 4 = [4, 5] ∧ ¬ looped.Returns 4 ∧ looped.Ended (looped.chain 4) ∧
    looped.chain 6 = [] := by
  have loop : looped.chain 2 = [2, 3, 2, 3, 2, 3] := by decide
  have straight : looped.chain 4 = [4, 5] := by decide
  obtain ⟨walk, _, round⟩ := (chain_exact looped 2).2 (by decide)
  obtain ⟨_, ending, ends⟩ := (chain_exact looped 4).2 (by decide)
  have short : (looped.chain 4).length ≠ looped.capacity := by rw [straight]; decide
  exact ⟨loop, round.1 (by rw [loop]; rfl), walk, straight, fun back => short (ends.2 back),
    ending.resolve_right short, (chain_exact looped 6).1 (by decide)⟩

/-! ## Linking -/

theorem path_congr {t u : AllocationTable} (capacity : u.capacity = t.capacity) {fuel c : Nat}
    (same : ∀ d ∈ t.path fuel c, u.entry d = t.entry d) : u.path fuel c = t.path fuel c := by
  induction fuel generalizing c with
  | zero => rfl
  | succ fuel ih =>
    rw [path] at same ⊢
    rw [path, capacity]
    split
    · rename_i bounds
      rw [if_pos bounds] at same
      rw [same c List.mem_cons_self]
      split
      · rfl
      · rename_i goes
        rw [if_neg goes] at same
        rw [ih fun d hd => same d (List.mem_cons_of_mem _ hd)]
    · rfl

/-- Linking a run makes one chain of it, whatever the table held before, and leaves the entries of
all other clusters and the chains that kept out of the run. -/
theorem link_chained (t : AllocationTable) (start count : Nat)
    (lower : Geometry.firstCluster ≤ start) (positive : 1 ≤ count)
    (room : start + count ≤ min t.capacity badMark) :
    ∃ u, link start count t = (.ok (), u) ∧
      (∀ i, i < count → u.chain (start + i) = List.range' (start + i) (count - i)) ∧
      isEndMark (u.entry (start + count - 1)) = true ∧
      (∀ m, ¬ (start ≤ m ∧ m < start + count) → u.entry m = t.entry m) ∧
      ∀ s, (∀ c ∈ t.chain s, ¬ (start ≤ c ∧ c < start + count)) → u.chain s = t.chain s := by
  obtain ⟨enough, small⟩ := Nat.le_min.1 room
  obtain ⟨u, run, size, entries, _⟩ := link_eq_ok start count t positive enough small
  have capacity : u.capacity = t.capacity := by rw [AllocationTable.capacity, size]; rfl
  have kept : ∀ m, ¬ (start ≤ m ∧ m < start + count) → u.entry m = t.entry m := by
    intro m outside
    rw [entries, if_neg outside]
  have linked : ∀ m, start ≤ m → m < start + count → u.entry m = linkedEntry start count m := by
    intro m first last
    rw [entries, if_pos ⟨first, last⟩]
  refine ⟨u, run, ?_, ?_, kept, ?_⟩
  · intro i inside
    have length : start + count - (start + i) = count - i := by omega
    have walked : u.path u.capacity (start + i) =
        List.range' (start + i) (start + count - (start + i)) :=
      path_linked (by omega) (by omega) (by omega) small (by omega)
        fun m first last => linked m (by omega) last
    rw [chain_eq, walked, length]
  · rw [linked _ (by omega) (by omega), linkedEntry, if_pos (by omega)]
    rfl
  · intro s apart
    rw [chain_eq] at apart
    rw [chain_eq, chain_eq, capacity]
    exact path_congr capacity fun d hd => kept d (apart d hd)

theorem looped_chained : 2 + 2 ≤ min looped.capacity badMark ∧
    ∃ u, link 2 2 looped = (.ok (), u) ∧ u.chain 2 = [2, 3] ∧ u.chain 3 = [3] ∧
      isEndMark (u.entry 3) = true ∧ u.entry 1 = 0xfff ∧ u.chain 4 = [4, 5] := by
  have room : 2 + 2 ≤ min looped.capacity badMark := by decide
  obtain ⟨u, run, chains, ended, kept, apart⟩ :=
    link_chained looped 2 2 (by decide) (by decide) room
  refine ⟨room, u, run, chains 0 (by decide), chains 1 (by decide), ended, ?_, ?_⟩
  · rw [kept 1 (by decide)]
    rfl
  · rw [apart 4 (by decide)]
    rfl

end BootDisk.AllocationTable
