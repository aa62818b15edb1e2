import BootDisk.Proofs.Builder.Audited

set_option autoImplicit false

/-!
# Chains stay in their runs

The runs of the placed files hold every cluster in use, and behind them every entry is free. So a
chain that leaves the run of its file comes to a cluster of another file or to a free entry, and the
audit objects to both. What is left for a chain that was tampered with is its own run, and there its
length gives it away.
-/
namespace BootDisk.Builder

section Plan
variable {g : Geometry} {slots : List Slot} {next : Nat} (h : Plan g slots next)
include h

theorem Plan.exists_run {c : Nat} (lower : Geometry.firstCluster ≤ c) (upper : c < next) :
    ∃ t ∈ slots, t.start ≤ c ∧ c < t.start + t.count g := by
  have used : c ∈ (slots.map (Slot.extent g)).flatMap Extent.clusters := by
    rw [h.tile.clusters, List.mem_range'_1]
    omega
  rw [List.flatMap_map, List.mem_flatMap] at used
  obtain ⟨t, ht, inside⟩ := used
  exact ⟨t, ht, List.mem_range'_1.1 inside⟩

theorem Plan.runs_apart {before after : List Slot} {t u : Slot}
    (split : slots = before ++ t :: after) (other : u ∈ before ∨ u ∈ after) :
    u.start + u.count g ≤ t.start ∨ t.start + t.count g ≤ u.start := by
  have tile := h.tile
  rw [split, List.map_append, Extent.tile_append] at tile
  obtain ⟨middle, left, first, _, right⟩ := tile
  change t.start = middle at first
  change Extent.Tile (middle + t.count g) _ _ at right
  rcases other with earlier | later
  · have run := left.mem (List.mem_map_of_mem earlier)
    change _ ∧ _ ∧ u.start + u.count g ≤ middle at run
    omega
  · have run := right.mem (List.mem_map_of_mem later)
    change middle + t.count g ≤ u.start ∧ _ at run
    omega

end Plan

section Altered
variable {g : Geometry} {s : Settings} {b : Builder} {before after : List Slot} {t : Slot}
  (bounds : g.Bounds) (h : Holds g s (before ++ t :: after) b) {image : ByteArray}
  {table : AllocationTable} (capacity : table.capacity = g.tableCapacity)
  (same : ∀ m, ¬ (t.start ≤ m ∧ m < t.start + t.count g) → table.entry m = b.table.entry m)
  {r : Record} (orderly : Audit.Orderly ⟨image, g, table⟩
    (before.map Slot.record ++ r :: after.map Slot.record)) (nonempty : r.size ≠ 0)
include bounds h capacity same

theorem chain_other {u : Slot} (other : u ∈ before ∨ u ∈ after) :
    table.chain u.record.firstCluster.toNat = (u.extent g).clusters := by
  have hu : u ∈ before ++ t :: after := by
    rcases other with earlier | later <;> simp [*]
  have apart := h.plan.runs_apart rfl other
  exact chain_of_run bounds h capacity hu fun m first last => same m (by omega)

include orderly nonempty

theorem chain_confined {c : Nat} (hc : c ∈ table.chain r.firstCluster.toNat) :
    t.start ≤ c ∧ c < t.start + t.count g := by
  have proper := orderly.proper r (by simp) nonempty
  have lower := (AllocationTable.mem_chain hc).1
  apply Decidable.byContradiction
  intro outside
  -- Either the cluster belongs to another file, or its entry is free and ends the walk.
  by_cases used : c < b.allocator.next
  · obtain ⟨u, hu, first, last⟩ := h.plan.exists_run lower used
    have other : u ∈ before ∨ u ∈ after := by
      rcases List.mem_append.1 hu with earlier | rest
      · exact .inl earlier
      · rcases List.mem_cons.1 rest with own | later
        · rw [own] at first last
          omega
        · exact .inr later
    have owned : c ∈ Audit.owned ⟨image, g, table⟩ u.record := by
      rw [Audit.owned_nonempty _ (record_nonempty bounds h hu)]
      dsimp only
      rw [chain_other bounds h capacity same other]
      exact List.mem_range'_1.2 ⟨first, last⟩
    refine orderly.not_mem_owned (t := u.record) ?_ ?_ owned
    · exact other.imp List.mem_map_of_mem List.mem_map_of_mem
    · rw [Audit.owned_nonempty _ nonempty]
      exact hc
  · have free : table.entry c = AllocationTable.free := by
      rw [same c outside]
      exact h.table.free c (by omega)
    have last : (table.chain r.firstCluster.toNat).getLast? = some c := by
      rw [AllocationTable.chain_eq] at hc ⊢
      exact AllocationTable.getLast?_path hc (by rw [free]; rfl)
    have ended : AllocationTable.isEndMark (table.entry c) = true := proper.ended c last
    rw [free] at ended
    cases ended

end Altered

section Changed
variable {g : Geometry} {s : Settings} {b : Builder} {before after : List Slot} {t : Slot}
  (bounds : g.Bounds) (h : Holds g s (before ++ t :: after) b) {image : ByteArray}
include bounds h

/-- The walk of a run in which the entry of one cluster has been replaced. It ends there, or goes on
with the new value. -/
theorem chain_of_entry {table : AllocationTable} {c value : Nat}
    (capacity : table.capacity = g.tableCapacity) (first : t.start ≤ c)
    (last : c < t.start + t.count g) (entry : table.entry c = value)
    (same : ∀ m, m ≠ c → table.entry m = b.table.entry m) :
    table.chain t.start = List.range' t.start (c + 1 - t.start) ∨
      ∃ fuel, t.start + t.count g ≤ c + 1 + fuel ∧ value ∈ table.path fuel value ∧
        table.chain t.start =
          List.range' t.start (c + 1 - t.start) ++ table.path fuel value := by
  have run := h.plan.slot_bounds (t := t) (by simp)
  have room := h.plan.next_le_capacity bounds
  have small := h.plan.next_small bounds
  obtain ⟨k, rfl⟩ : ∃ k, c = t.start + k := ⟨c - t.start, by omega⟩
  obtain ⟨fuel, enough⟩ : ∃ fuel, table.capacity = k + (fuel + 1) :=
    ⟨table.capacity - k - 1, by omega⟩
  have linked : ∀ m, t.start ≤ m → m < t.start + k → table.entry m = m + 1 := by
    intro m lower upper
    rw [same m (by omega), h.table.runs t (by simp) m lower (by omega),
      AllocationTable.linkedEntry, if_neg (by omega)]
  have length : t.start + k + 1 - t.start = k + 1 := by omega
  rw [AllocationTable.chain_eq, enough,
    AllocationTable.path_stretch (fuel + 1) t.start k run.1 (by omega) (by omega) linked,
    AllocationTable.path_succ fuel (by omega) (by omega), entry, List.append_cons, length,
    List.range'_1_concat]
  by_cases stop : AllocationTable.stops value
  · rw [if_pos stop, List.append_nil]
    exact .inl rfl
  · rw [if_neg stop]
    by_cases none : table.path fuel value = []
    · rw [none, List.append_nil]
      exact .inl rfl
    · exact .inr ⟨fuel, by omega, AllocationTable.head_mem_path none, rfl⟩

/-- Only between end marks can the entry of a cluster in use be exchanged. -/
theorem entry_settled {table : AllocationTable} {c value : Nat}
    (capacity : table.capacity = g.tableCapacity) (first : t.start ≤ c)
    (last : c < t.start + t.count g) (entry : table.entry c = value)
    (same : ∀ m, m ≠ c → table.entry m = b.table.entry m)
    (orderly : Audit.Orderly ⟨image, g, table⟩
      (before.map Slot.record ++ t.record :: after.map Slot.record)) :
    value = b.table.entry c ∨ AllocationTable.isEndMark value = true ∧
      AllocationTable.isEndMark (b.table.entry c) = true := by
  have ht : t ∈ before ++ t :: after := by simp
  have nonempty := record_nonempty bounds h ht
  obtain ⟨_, length, ended, distinct, _⟩ := orderly.proper t.record (by simp) nonempty
  have confined : ∀ m ∈ table.chain t.record.firstCluster.toNat,
      t.start ≤ m ∧ m < t.start + t.count g := fun m =>
    chain_confined bounds h capacity (fun m outside => same m (by omega)) orderly nonempty
  have original := h.table.runs t ht c first last
  rw [AllocationTable.linkedEntry] at original
  dsimp only at length ended distinct
  rw [h.plan.toNat_size bounds ht] at length
  change _ = t.count g at length
  rw [h.plan.toNat_firstCluster bounds ht] at length ended distinct confined
  rcases chain_of_entry bounds h capacity first last entry same with
    ends | ⟨fuel, enough, member, goes⟩
  · -- All clusters of the file lie up to here.
    rw [ends, List.length_range'] at length
    have mark : AllocationTable.isEndMark (table.entry c) = true := by
      apply ended c
      rw [ends, List.getLast?_range', if_neg (by omega)]
      congr 1
      omega
    rw [entry] at mark
    rw [original, if_pos (by omega)]
    exact .inr ⟨mark, rfl⟩
  · -- The walk may not turn back, and from further on it would miss a cluster.
    rw [goes] at length distinct confined
    obtain ⟨lower, upper⟩ := confined value (List.mem_append_right _ member)
    have behind : c < value := by
      apply Decidable.byContradiction
      intro back
      have visited : value ∈ List.range' t.start (c + 1 - t.start) :=
        List.mem_range'_1.2 ⟨lower, by omega⟩
      exact (List.nodup_append.1 distinct).2.2 value visited value member rfl
    rw [path_of_run bounds h capacity ht lower upper (by omega) fun m low _ => same m (by omega),
      List.length_append, List.length_range', List.length_range'] at length
    rw [original, if_neg (by omega)]
    left
    omega

theorem start_settled {start : UInt16} (orderly : Audit.Orderly ⟨image, g, b.table⟩
      (before.map Slot.record ++ { t.record with firstCluster := start } ::
        after.map Slot.record)) : start = t.record.firstCluster := by
  have ht : t ∈ before ++ t :: after := by simp
  have run := h.plan.slot_bounds ht
  have room := h.plan.next_le_capacity bounds
  have nonempty : { t.record with firstCluster := start }.size ≠ 0 := record_nonempty bounds h ht
  have proper := orderly.proper _ (by simp) nonempty
  obtain ⟨lower, upper⟩ := proper.start
  have length := proper.length
  dsimp only at lower upper length
  rw [h.plan.toNat_size bounds ht] at length
  change _ = t.count g at length
  have capacity := bounds.capacity
  have member : start.toNat ∈ b.table.chain start.toNat :=
    AllocationTable.mem_chain_self lower (by rw [h.table.capacity]; omega)
  -- From any other cluster of the run the walk is too short.
  obtain ⟨first, last⟩ := chain_confined bounds h h.table.capacity (fun _ _ => rfl) orderly
    nonempty member
  rw [AllocationTable.chain_eq, h.table.capacity,
    path_of_run bounds h h.table.capacity ht first last (by omega) fun _ _ _ => rfl,
    List.length_range'] at length
  rw [← UInt16.toNat_inj, h.plan.toNat_firstCluster bounds ht]
  omega

theorem size_settled {size : UInt32} (nonempty : size ≠ 0)
    (orderly : Audit.Orderly ⟨image, g, b.table⟩
      (before.map Slot.record ++ { t.record with size } :: after.map Slot.record)) :
    clustersExact size.toNat g.clusterSize = clustersExact t.record.size.toNat g.clusterSize := by
  have ht : t ∈ before ++ t :: after := by simp
  have positive := bounds.clusterSize_pos
  have exact : ∀ n : UInt32, clustersNeeded n.toNat g.clusterSize =
      clustersExact n.toNat g.clusterSize := fun n =>
    clustersNeeded_of_le positive (Nat.le_mul_of_pos_right _ positive) n.toNat_lt
  have length := (orderly.proper { t.record with size } (by simp) nonempty).length
  have original := (proper_finished bounds h image ht).length
  dsimp only at length original
  rw [← exact, ← exact, ← length, ← original]

end Changed

end BootDisk.Builder
