import BootDisk.Proofs.Audit.Progress

set_option autoImplicit false

namespace BootDisk.Audit

/-- The clusters that belong to a record. -/
def owned (v : Volume) (r : Record) : List Nat :=
  if r.size = 0 then [] else v.table.chain r.firstCluster.toNat

/-- The chain of a record that is not empty, taken alone, is in order. -/
structure Proper (v : Volume) (r : Record) : Prop where
  start : Geometry.firstCluster ≤ r.firstCluster.toNat ∧
    r.firstCluster.toNat ≤ v.geometry.maxCluster
  length : (v.table.chain r.firstCluster.toNat).length =
    clustersNeeded r.size.toNat v.geometry.clusterSize
  ended : ∀ c, (v.table.chain r.firstCluster.toNat).getLast? = some c →
    AllocationTable.isEndMark (v.table.entry c) = true
  distinct : (v.table.chain r.firstCluster.toNat).Nodup
  upper : ∀ c ∈ v.table.chain r.firstCluster.toNat, c ≤ v.geometry.maxCluster

structure Orderly (v : Volume) (records : List Record) : Prop where
  proper : ∀ r ∈ records, r.size ≠ 0 → Proper v r
  names : (records.map Record.shortName).Nodup
  apart : records.Pairwise fun r t => ∀ c ∈ owned v r, c ∉ owned v t

theorem owned_empty (v : Volume) {r : Record} (h : r.size = 0) : owned v r = [] := if_pos h

theorem owned_nonempty (v : Volume) {r : Record} (h : r.size ≠ 0) :
    owned v r = v.table.chain r.firstCluster.toNat := if_neg h

theorem Orderly.not_mem_owned {v : Volume} {before after : List Record} {r t : Record}
    (h : Orderly v (before ++ r :: after)) (other : t ∈ before ∨ t ∈ after) {c : Nat}
    (hc : c ∈ owned v r) : c ∉ owned v t := by
  obtain ⟨_, apart, front⟩ := List.pairwise_append.1 h.apart
  intro shared
  rcases other with earlier | later
  · exact front t earlier r List.mem_cons_self c shared hc
  · exact (List.pairwise_cons.1 apart).1 t later c hc shared

/-- What one step of the audit does: `q` is what is known after `r`, and `p` before it. -/
structure Learned (v : Volume) (p : Progress) (r : Record) (q : Progress) : Prop where
  clean : q.Clean ↔ p.Clean ∧ r.shortName ∉ p.names ∧ (r.size ≠ 0 → Proper v r) ∧
    ∀ c ∈ owned v r, c ∉ p.claimed
  names : ∀ n, n ∈ q.names ↔ n = r.shortName ∨ n ∈ p.names
  claimed : q.Clean → ∀ c, c ∈ q.claimed ↔ c ∈ owned v r ∨ c ∈ p.claimed
  warnings : q.warnings = #[] ↔ p.warnings = #[] ∧ (r.size = 0 → r.firstCluster.toNat = 0)

/-- The check of the entry of the last cluster. -/
def checkEnd (v : Volume) (name : String) (clusters : List Nat) (p : Progress) : Progress :=
  match clusters.getLast? with
  | none => p
  | some last =>
    p.defectIf (AllocationTable.isEndMark (v.table.entry last) = false)
      (.chainEnd name last (v.table.entry last))

section End
variable (v : Volume) (name : String) (clusters : List Nat) (p : Progress)

theorem clean_checkEnd : (checkEnd v name clusters p).Clean ↔ p.Clean ∧
    ∀ c, clusters.getLast? = some c → AllocationTable.isEndMark (v.table.entry c) = true := by
  unfold checkEnd
  cases clusters.getLast? with
  | none => simp
  | some last => simp [Progress.clean_defectIf]

@[simp] theorem names_checkEnd : (checkEnd v name clusters p).names = p.names := by
  unfold checkEnd
  cases clusters.getLast? <;> simp

@[simp] theorem claimed_checkEnd : (checkEnd v name clusters p).claimed = p.claimed := by
  unfold checkEnd
  cases clusters.getLast? <;> simp

@[simp] theorem warnings_checkEnd : (checkEnd v name clusters p).warnings = p.warnings := by
  unfold checkEnd
  cases clusters.getLast? <;> simp

end End

section Steps
variable {v : Volume} (bounds : v.geometry.Bounds)
include bounds

theorem chain_eq_ok (name : String) {r : Record} (p : Progress)
    (start : Geometry.firstCluster ≤ r.firstCluster.toNat ∧
      r.firstCluster.toNat ≤ v.geometry.maxCluster) :
    ∃ q, chain v name r v.geometry.maxCluster p = .ok q ∧
      (q.Clean ↔ p.Clean ∧ Proper v r ∧
        ∀ c ∈ v.table.chain r.firstCluster.toNat, c ∉ p.claimed) ∧
      (∀ c, c ∈ q.claimed ↔ c ∈ v.table.chain r.firstCluster.toNat ∨ c ∈ p.claimed) ∧
      q.names = p.names ∧ q.warnings = p.warnings := by
  have positive := bounds.clusterSize_pos
  have needed : Checked.clustersNeeded r.size.toNat v.geometry.clusterSize =
      .ok (clustersNeeded r.size.toNat v.geometry.clusterSize) := by
    rw [Checked.clustersNeeded, if_neg (by omega)]
    rfl
  let clusters := v.table.chain r.firstCluster.toNat
  let counted := p.defectIf (clusters.length ≠ clustersNeeded r.size.toNat v.geometry.clusterSize)
    (.chainLength name clusters.length r.size.toNat
      (clustersNeeded r.size.toNat v.geometry.clusterSize))
  let ended := checkEnd v name clusters counted
  refine ⟨clusters.foldl (Progress.claim name v.geometry.maxCluster) ended, ?_, ?_, ?_, ?_, ?_⟩
  · rw [chain, Outcome.bind_ok needed]
    rfl
  · rw [Progress.clean_claims, clean_checkEnd, Progress.clean_defectIf, claimed_checkEnd,
      Progress.claimed_defectIf, ne_eq, Decidable.not_not]
    constructor
    · rintro ⟨⟨⟨clean, length⟩, last⟩, distinct, upper, new⟩
      exact ⟨clean, ⟨start, length, last, distinct, upper⟩, new⟩
    · rintro ⟨clean, proper, new⟩
      exact ⟨⟨⟨clean, proper.length⟩, proper.ended⟩, proper.distinct, proper.upper, new⟩
  · intro c
    rw [Progress.mem_claimed_claims, claimed_checkEnd, Progress.claimed_defectIf]
  · rw [Progress.names_claims, names_checkEnd, Progress.names_defectIf]
  · rw [Progress.warnings_claims, warnings_checkEnd, Progress.warnings_defectIf]

theorem record_eq_ok (p : Progress) (r : Record) : ∃ q, record v p r = .ok q ∧ Learned v p r q := by
  have maxCluster := bounds.checked_maxCluster
  by_cases empty : r.size = 0
  · have owns := owned_empty v empty
    by_cases free : r.firstCluster.toNat = 0
    · refine ⟨p.name r.shortName, ?_, ?_, p.mem_names_name _, ?_, ?_⟩
      · rw [record, if_pos empty, if_pos free]
        rfl
      · simp [Progress.clean_name, owns, empty]
      · simp [owns]
      · simp [free]
    · refine ⟨{ p.name r.shortName with
        warnings := p.warnings.push (.emptyWithCluster r.shortName r.firstCluster.toNat) }, ?_, ?_,
        p.mem_names_name _, ?_, ?_⟩
      · rw [record, if_pos empty, if_neg free, ← p.warnings_name r.shortName]
        rfl
      · change (p.name r.shortName).Clean ↔ _
        simp [Progress.clean_name, owns, empty]
      · simp [owns]
      · simp [free, empty]
  · have owns := owned_nonempty v empty
    by_cases outside : r.firstCluster.toNat < Geometry.firstCluster ∨
        v.geometry.maxCluster < r.firstCluster.toNat
    · refine ⟨(p.name r.shortName).defect (.startCluster r.shortName r.firstCluster.toNat), ?_, ?_,
        p.mem_names_name _, ?_, ?_⟩
      · rw [record, if_neg empty, Outcome.bind_ok maxCluster, if_pos outside]
        rfl
      · constructor
        · exact fun clean => absurd clean (Progress.not_clean_defect _ _)
        · rintro ⟨_, _, proper, _⟩
          have start := (proper empty).start
          omega
      · exact fun clean => absurd clean (Progress.not_clean_defect _ _)
      · change (p.name r.shortName).warnings = _ ↔ _
        simp [empty]
    · obtain ⟨q, run, clean, claimed, names, warnings⟩ :=
        chain_eq_ok bounds r.shortName (p.name r.shortName) (r := r) (by omega)
      refine ⟨q, ?_, ?_, ?_, ?_, ?_⟩
      · rw [record, if_neg empty, Outcome.bind_ok maxCluster, if_neg outside]
        exact run
      · rw [clean, Progress.clean_name, owns, and_assoc, Progress.claimed_name]
        simp [empty]
      · rw [names]
        exact p.mem_names_name _
      · rw [owns]
        intro _ c
        rw [claimed, Progress.claimed_name]
      · rw [warnings, Progress.warnings_name]
        simp [empty]

theorem records_eq_ok (records : List Record) (p : Progress) :
    ∃ q, records.foldlM (record v) p = .ok q ∧
      (q.Clean ↔ p.Clean ∧ Orderly v records ∧ (∀ r ∈ records, r.shortName ∉ p.names) ∧
        ∀ r ∈ records, ∀ c ∈ owned v r, c ∉ p.claimed) ∧
      (q.warnings = #[] ↔ p.warnings = #[] ∧
        ∀ r ∈ records, r.size = 0 → r.firstCluster.toNat = 0) := by
  -- What is known about the records already audited is in `p`.
  induction records generalizing p with
  | nil =>
    have orderly : Orderly v [] := ⟨by simp, List.nodup_nil, List.Pairwise.nil⟩
    exact ⟨p, rfl, by simp [orderly], by simp⟩
  | cons r rest ih =>
    obtain ⟨q, run, learned⟩ := record_eq_ok bounds p r
    obtain ⟨last, tail, clean, warnings⟩ := ih q
    refine ⟨last, ?_, ?_, ?_⟩
    · rw [List.foldlM_cons, Outcome.bind_ok run]
      exact tail
    · rw [clean]
      constructor
      · rintro ⟨fresh, ⟨proper, names, apart⟩, newNames, newClusters⟩
        obtain ⟨before, new, own, unclaimed⟩ := learned.clean.1 fresh
        refine ⟨before, ⟨?_, ?_, ?_⟩, ?_, ?_⟩
        · exact List.forall_mem_cons.2 ⟨own, proper⟩
        · rw [List.map_cons, List.nodup_cons, List.mem_map]
          refine ⟨?_, names⟩
          rintro ⟨t, ht, same⟩
          exact newNames t ht ((learned.names _).2 (.inl same))
        · refine List.pairwise_cons.2 ⟨fun t ht c hc other => ?_, apart⟩
          exact newClusters t ht c other ((learned.claimed fresh c).2 (.inl hc))
        · refine List.forall_mem_cons.2 ⟨new, fun t ht known => ?_⟩
          exact newNames t ht ((learned.names _).2 (.inr known))
        · refine List.forall_mem_cons.2 ⟨unclaimed, fun t ht c hc known => ?_⟩
          exact newClusters t ht c hc ((learned.claimed fresh c).2 (.inr known))
      · rintro ⟨before, ⟨proper, names, apart⟩, newNames, newClusters⟩
        rw [List.map_cons, List.nodup_cons, List.mem_map] at names
        rw [List.pairwise_cons] at apart
        rw [List.forall_mem_cons] at proper newNames newClusters
        have fresh : q.Clean := learned.clean.2 ⟨before, newNames.1, proper.1, newClusters.1⟩
        refine ⟨fresh, ⟨proper.2, names.2, apart.2⟩, fun t ht known => ?_,
          fun t ht c hc known => ?_⟩
        · rcases (learned.names _).1 known with same | old
          · exact names.1 ⟨t, ht, same⟩
          · exact newNames.2 t ht old
        · rcases (learned.claimed fresh c).1 known with own | old
          · exact apart.1 t ht c own hc
          · exact newClusters.2 t ht c hc old
    · rw [warnings, learned.warnings, List.forall_mem_cons, and_assoc]

theorem records_from_empty (records : List Record) :
    ∃ q, records.foldlM (record v) {} = .ok q ∧ (q.defects = #[] ↔ Orderly v records) ∧
      (q.warnings = #[] ↔ ∀ r ∈ records, r.size = 0 → r.firstCluster.toNat = 0) := by
  obtain ⟨q, run, clean, warnings⟩ := records_eq_ok bounds records {}
  refine ⟨q, run, ?_, ?_⟩
  · change q.Clean ↔ _
    rw [clean]
    simp [Progress.Clean]
  · rw [warnings]
    simp

end Steps

end BootDisk.Audit
