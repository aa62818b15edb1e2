import BootDisk.Proofs.AllocationTable.Entries

set_option autoImplicit false

namespace BootDisk.AllocationTable

/-- The clusters met from `c` on in at most `fuel` steps, the first one first. -/
def path (t : AllocationTable) : Nat → Nat → List Nat
  | 0, _ => []
  | fuel + 1, c =>
    if Geometry.firstCluster ≤ c ∧ c < t.capacity then
      c :: if stops (t.entry c) then [] else t.path fuel (t.entry c)
    else []

theorem walk_eq (t : AllocationTable) (fuel c : Nat) (visited : List Nat) :
    t.walk fuel c visited = (t.path fuel c).reverse ++ visited := by
  induction fuel generalizing c visited with
  | zero => rfl
  | succ fuel ih =>
    rw [walk, path]
    split
    · split
      · rfl
      · rw [ih, List.reverse_cons, List.append_assoc]
        rfl
    · rfl

theorem chain_eq (t : AllocationTable) (start : Nat) : t.chain start = t.path t.capacity start := by
  rw [chain, walk_eq, List.append_nil, List.reverse_reverse]

theorem mem_path {t : AllocationTable} {fuel start c : Nat} (h : c ∈ t.path fuel start) :
    Geometry.firstCluster ≤ c ∧ c < t.capacity := by
  induction fuel generalizing start with
  | zero => simp [path] at h
  | succ fuel ih =>
    rw [path] at h
    split at h
    · rename_i bounds
      rcases List.mem_cons.1 h with same | later
      · exact same ▸ bounds
      · split at later
        · simp at later
        · exact ih later
    · simp at h

theorem mem_chain {t : AllocationTable} {start c : Nat} (h : c ∈ t.chain start) :
    Geometry.firstCluster ≤ c ∧ c < t.capacity := by
  rw [chain_eq] at h
  exact mem_path h

theorem path_succ {t : AllocationTable} (fuel : Nat) {c : Nat} (lower : Geometry.firstCluster ≤ c)
    (upper : c < t.capacity) : t.path (fuel + 1) c =
      c :: if stops (t.entry c) then [] else t.path fuel (t.entry c) := by
  rw [path, if_pos ⟨lower, upper⟩]

theorem head_mem_path {t : AllocationTable} {fuel c : Nat} (h : t.path fuel c ≠ []) :
    c ∈ t.path fuel c := by
  cases fuel with
  | zero => exact absurd rfl h
  | succ fuel =>
    rw [path] at h ⊢
    split
    · exact List.mem_cons_self
    · rename_i outside
      rw [if_neg outside] at h
      exact absurd rfl h

theorem getLast?_path {t : AllocationTable} {fuel start c : Nat} (h : c ∈ t.path fuel start)
    (stop : stops (t.entry c) = true) : (t.path fuel start).getLast? = some c := by
  induction fuel generalizing start with
  | zero => simp [path] at h
  | succ fuel ih =>
    rw [path] at h ⊢
    split at h
    · rename_i bounds
      rw [if_pos bounds]
      rcases List.mem_cons.1 h with same | later
      · rw [← same, if_pos stop]
        rfl
      · split at later
        · simp at later
        · rename_i goes
          rw [if_neg goes, List.getLast?_cons, ih later]
          rfl
    · simp at h

theorem path_stretch {t : AllocationTable} (fuel start k : Nat)
    (lower : Geometry.firstCluster ≤ start) (room : start + k ≤ t.capacity)
    (small : start + k < badMark) (linked : ∀ m, start ≤ m → m < start + k → t.entry m = m + 1) :
    t.path (k + fuel) start = List.range' start k ++ t.path fuel (start + k) := by
  induction k generalizing start with
  | zero =>
    rw [Nat.zero_add]
    rfl
  | succ k ih =>
    have entry := linked start (Nat.le_refl _) (by omega)
    have goes : stops (start + 1) = false := by
      unfold stops isEndMark minEndMark badMark free at *
      simp
      omega
    have rest := ih (start + 1) (by omega) (by omega) (by omega)
      fun m first last => linked m (by omega) (by omega)
    have stop : start + 1 + k = start + (k + 1) := by omega
    have steps : k + 1 + fuel = k + fuel + 1 := by omega
    rw [steps, path_succ _ lower (by omega), entry, goes, List.range'_succ, ← stop]
    exact congrArg (start :: ·) rest

theorem path_linked {t : AllocationTable} {fuel c start count : Nat}
    (lower : Geometry.firstCluster ≤ c) (last : c < start + count)
    (room : start + count ≤ t.capacity) (small : start + count ≤ badMark)
    (enough : start + count ≤ c + fuel)
    (linked : ∀ m, c ≤ m → m < start + count → t.entry m = linkedEntry start count m) :
    t.path fuel c = List.range' c (start + count - c) := by
  obtain ⟨k, stop⟩ : ∃ k, start + count = c + k + 1 := ⟨start + count - c - 1, by omega⟩
  obtain ⟨rest, rfl⟩ : ∃ rest, fuel = k + (rest + 1) := ⟨fuel - k - 1, by omega⟩
  have ended : t.entry (c + k) = endMark := by
    rw [linked (c + k) (by omega) (by omega), linkedEntry, if_pos (by omega)]
  have length : start + count - c = k + 1 := by omega
  rw [path_stretch _ _ _ lower (by omega) (by omega), path_succ _ (by omega) (by omega), ended,
    length, List.range'_1_concat]
  · rfl
  · intro m lower upper
    rw [linked m lower (by omega), linkedEntry, if_neg (by omega)]

theorem mem_chain_self {t : AllocationTable} {c : Nat} (lower : Geometry.firstCluster ≤ c)
    (upper : c < t.capacity) : c ∈ t.chain c := by
  obtain ⟨fuel, enough⟩ : ∃ fuel, t.capacity = fuel + 1 := ⟨t.capacity - 1, by omega⟩
  rw [chain_eq, enough, path_succ fuel lower upper]
  exact List.mem_cons_self

end BootDisk.AllocationTable
