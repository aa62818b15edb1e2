import BootDisk.Directory.Root
import BootDisk.Proofs.Directory.Names
import BootDisk.Proofs.Directory.Records
import BootDisk.Proofs.Geometry.Bounds

set_option autoImplicit false

namespace BootDisk.RootDirectory
variable {d : RootDirectory} {r : Record}

theorem check_full (full : d.capacity.toNat ≤ d.length) :
    d.check r = .error (.error (.directoryFull r.shortName d.capacity.toNat)) := by
  unfold check
  dsimp only
  rw [if_pos (show d.isFull = true from decide_eq_true full)]
  rfl

theorem check_duplicate (room : d.length < d.capacity.toNat) (known : d.contains r = true) :
    d.check r = .error (.error (.duplicateName r.shortName)) := by
  unfold check
  dsimp only
  rw [if_neg (show ¬ d.isFull = true by simp [isFull]; omega), if_pos known]
  rfl

theorem check_new (room : d.length < d.capacity.toNat) (new : d.contains r = false) :
    d.check r = .ok () := by
  unfold check
  dsimp only
  rw [if_neg (show ¬ d.isFull = true by simp [isFull]; omega), if_neg (by rw [new]; decide)]
  rfl

theorem contains_eq_false_iff :
    d.contains r = false ↔ ∀ s ∈ d.records.toList, s.sameName r = false := by
  rw [contains, ← Array.any_toList, List.any_eq_false]
  simp only [Bool.not_eq_true]

theorem check_eq_error_or (d : RootDirectory) (r : Record) :
    (∃ cause, d.check r = .error (.error cause)) ∨
      (d.length < d.capacity.toNat ∧ d.contains r = false ∧ d.check r = .ok ()) := by
  by_cases full : d.capacity.toNat ≤ d.length
  · exact .inl ⟨_, check_full full⟩
  · cases known : d.contains r with
    | true => exact .inl ⟨_, check_duplicate (by omega) known⟩
    | false => exact .inr ⟨by omega, rfl, check_new (by omega) known⟩

theorem check_eq_ok_iff :
    d.check r = .ok () ↔ d.length < d.capacity.toNat ∧ d.contains r = false := by
  rcases d.check_eq_error_or r with ⟨cause, refused⟩ | ⟨room, new, checked⟩
  · constructor
    · intro checked
      cases refused.symm.trans checked
    · rintro ⟨room, new⟩
      exact check_new room new
  · exact ⟨fun _ => ⟨room, new⟩, fun _ => checked⟩

theorem push_of_splice {bytes : ByteArray} (checked : d.check r = .ok ())
    (splice : Bytes.splice? d.bytes (d.length * Geometry.recordSize) r.toBytes = some bytes) :
    push r d = (.ok (), { d with bytes, records := d.records.push r }) := by
  rw [push, Step.get_bind, Step.lift_bind_ok checked,
    Step.lift_bind_ok (Outcome.orFault_some splice)]
  rfl

theorem push_eq_ok {left old right : List UInt8} (checked : d.check r = .ok ())
    (split : Bytes.toList d.bytes = left ++ old ++ right)
    (at_left : d.length * Geometry.recordSize = left.length)
    (slot : old.length = Geometry.recordSize) : push r d = (.ok (),
      { d with bytes := Bytes.ofList (left ++ r.encode ++ right), records := d.records.push r }) :=
  push_of_splice checked (Bytes.splice?_of_toList split at_left (by rw [slot, r.size_toBytes]))

theorem push_refused {e : Failure} (checked : d.check r = .error e) :
    push r d = (.error e, d) := by
  rw [push, Step.get_bind, Step.lift_bind_error checked]

/-- A directory of the layout with these records: their bytes in order, and zeros behind them. -/
structure Filled (g : Geometry) (records : List Record) (d : RootDirectory) : Prop where
  capacity : d.capacity = g.rootEntries
  bytes : Bytes.toList d.bytes = records.flatMap Record.encode ++
    List.replicate (g.rootSize - records.length * Geometry.recordSize) 0
  list : d.records.toList = records

section Filled
variable {g : Geometry} {records : List Record} (sectors : g.bytesPerSector ≠ 0)

theorem Filled.length (h : Filled g records d) : d.length = records.length := by
  rw [RootDirectory.length, ← Array.length_toList, h.list]

include sectors

theorem Filled.push (h : Filled g records d) (checked : d.check r = .ok ()) :
    ∃ e, push r d = (.ok (), e) ∧ Filled g (records ++ [r]) e := by
  have free := (check_eq_ok_iff.1 checked).1
  rw [h.length, h.capacity] at free
  have room : records.length * Geometry.recordSize + Geometry.recordSize ≤ g.rootSize := by
    have fit := Geometry.records_le_rootSize sectors
    have := Nat.mul_le_mul_right Geometry.recordSize (Nat.succ_le_of_lt free)
    rw [Nat.succ_mul] at this
    omega
  have zeros : g.rootSize - records.length * Geometry.recordSize =
      Geometry.recordSize + (g.rootSize - (records.length + 1) * Geometry.recordSize) := by
    rw [Nat.succ_mul]
    omega
  have split : Bytes.toList d.bytes = records.flatMap Record.encode ++
      List.replicate Geometry.recordSize 0 ++
      List.replicate (g.rootSize - (records.length + 1) * Geometry.recordSize) 0 := by
    rw [h.bytes, zeros, ← List.replicate_append_replicate, List.append_assoc]
  refine ⟨_, push_eq_ok checked split ?_ List.length_replicate, h.capacity, ?_, ?_⟩
  · rw [h.length, Record.length_flatMap_encode]
  · rw [Bytes.toList_ofList, List.flatMap_append, List.length_append]
    simp
  · rw [Array.toList_push, h.list]

end Filled

end BootDisk.RootDirectory
