import BootDisk.Audit
import BootDisk.Proofs.Extents

set_option autoImplicit false

/-!
# Auditing the records

The audit keeps the names and clusters it has met in hash sets and goes on after a defect. Each of
its steps is described by two facts: what is in the sets afterwards, and when it leaves the list of
defects empty. Over a whole directory the list stays empty exactly when every record is proper on
its own, no name is met twice, and no cluster belongs to two records.
-/
namespace BootDisk.Audit

namespace Progress

def Clean (p : Progress) : Prop := p.defects = #[]

theorem not_clean_defect (p : Progress) (d : Defect) : ¬ (p.defect d).Clean := by
  simp [Clean, defect]

section Simple
variable (p : Progress) (c : Prop) [Decidable c] (d : Defect)

theorem clean_defectIf : (p.defectIf c d).Clean ↔ p.Clean ∧ ¬ c := by
  unfold defectIf
  split
  · rename_i holds
    simp [not_clean_defect, holds]
  · rename_i fails
    simp [fails]

@[simp] theorem names_defectIf : (p.defectIf c d).names = p.names := by
  unfold defectIf
  split <;> rfl

@[simp] theorem claimed_defectIf : (p.defectIf c d).claimed = p.claimed := by
  unfold defectIf
  split <;> rfl

@[simp] theorem warnings_defectIf : (p.defectIf c d).warnings = p.warnings := by
  unfold defectIf
  split <;> rfl

end Simple

section Name
variable (p : Progress) (name : String)

theorem clean_name : (p.name name).Clean ↔ p.Clean ∧ name ∉ p.names := clean_defectIf _ _ _

theorem mem_names_name (other : String) :
    other ∈ (p.name name).names ↔ other = name ∨ other ∈ p.names := by
  rw [Progress.name, Std.HashSet.mem_insert, names_defectIf, beq_iff_eq, eq_comm]

@[simp] theorem claimed_name : (p.name name).claimed = p.claimed := claimed_defectIf _ _ _

@[simp] theorem warnings_name : (p.name name).warnings = p.warnings := warnings_defectIf _ _ _

end Name

section Claim
variable (name : String) (maxCluster : Nat) (p : Progress)

theorem clean_claim (c : Nat) :
    (claim name maxCluster p c).Clean ↔ p.Clean ∧ c ≤ maxCluster ∧ c ∉ p.claimed := by
  unfold claim
  change ((p.defectIf (maxCluster < c) _).defectIf _ _).Clean ↔ _
  rw [clean_defectIf, clean_defectIf, claimed_defectIf, Nat.not_lt, and_assoc]

theorem mem_claimed_claim (c other : Nat) :
    other ∈ (claim name maxCluster p c).claimed ↔ other = c ∨ other ∈ p.claimed := by
  rw [claim, Std.HashSet.mem_insert, claimed_defectIf, claimed_defectIf, beq_iff_eq, eq_comm]

@[simp] theorem names_claim (c : Nat) : (claim name maxCluster p c).names = p.names := by
  rw [claim, names_defectIf, names_defectIf]

@[simp] theorem warnings_claim (c : Nat) : (claim name maxCluster p c).warnings = p.warnings := by
  rw [claim, warnings_defectIf, warnings_defectIf]

/-- Claiming clusters one by one finds every cluster that is met a second time. -/
theorem clean_claims (clusters : List Nat) : (clusters.foldl (claim name maxCluster) p).Clean ↔
    p.Clean ∧ clusters.Nodup ∧ (∀ c ∈ clusters, c ≤ maxCluster) ∧
      ∀ c ∈ clusters, c ∉ p.claimed := by
  induction clusters generalizing p with
  | nil => simp
  | cons c rest ih =>
    rw [List.foldl_cons, ih, clean_claim, List.nodup_cons]
    simp only [List.forall_mem_cons, mem_claimed_claim, not_or]
    constructor
    · rintro ⟨⟨clean, upper, new⟩, distinct, uppers, news⟩
      exact ⟨clean, ⟨fun again => (news c again).1 rfl, distinct⟩, ⟨upper, uppers⟩, new,
        fun d hd => (news d hd).2⟩
    · rintro ⟨clean, ⟨fresh, distinct⟩, ⟨upper, uppers⟩, new, news⟩
      exact ⟨⟨clean, upper, new⟩, distinct, uppers,
        fun d hd => ⟨fun same => fresh (same ▸ hd), news d hd⟩⟩

theorem mem_claimed_claims (clusters : List Nat) (other : Nat) :
    other ∈ (clusters.foldl (claim name maxCluster) p).claimed ↔
      other ∈ clusters ∨ other ∈ p.claimed := by
  induction clusters generalizing p with
  | nil => simp
  | cons c rest ih =>
    rw [List.foldl_cons, ih, mem_claimed_claim, List.mem_cons, or_assoc, or_left_comm]

theorem names_claims (clusters : List Nat) :
    (clusters.foldl (claim name maxCluster) p).names = p.names := by
  induction clusters generalizing p with
  | nil => rfl
  | cons c rest ih => rw [List.foldl_cons, ih, names_claim]

theorem warnings_claims (clusters : List Nat) :
    (clusters.foldl (claim name maxCluster) p).warnings = p.warnings := by
  induction clusters generalizing p with
  | nil => rfl
  | cons c rest ih => rw [List.foldl_cons, ih, warnings_claim]

end Claim

end Progress

end BootDisk.Audit
