import BootDisk.Proofs.Extents.Access

set_option autoImplicit false

namespace BootDisk.Chain

section Cells
variable {g : Geometry} {image : ByteArray}

def cell (image : ByteArray) (g : Geometry) (c : Nat) : List UInt8 :=
  ((Bytes.toList image).drop (g.clusterOffset c)).take g.clusterSize

/-- The cluster lies in the data region and in the image. -/
def Inside (image : ByteArray) (g : Geometry) (c : Nat) : Prop :=
  Geometry.firstCluster ≤ c ∧ g.clusterOffset c + g.clusterSize ≤ image.size

theorem inside_of_le (bounds : g.Bounds) {c : Nat} (lower : Geometry.firstCluster ≤ c)
    (upper : c ≤ g.maxCluster) (size : image.size = g.imageSize) : Inside image g c := by
  have stop := bounds.clusterOffset_le (Nat.succ_le_succ upper)
  rw [Nat.succ_eq_add_one, g.clusterOffset_add lower, Nat.one_mul, ← size] at stop
  exact ⟨lower, stop⟩

theorem length_cell {c : Nat} (inside : Inside image g c) :
    (cell image g c).length = g.clusterSize := by
  have := inside.2
  rw [cell, List.length_take, List.length_drop, Bytes.toList_length]
  omega

theorem length_cells {clusters : List Nat} (inside : ∀ c ∈ clusters, Inside image g c) :
    (clusters.flatMap (cell image g)).length = clusters.length * g.clusterSize := by
  induction clusters with
  | nil => simp
  | cons c rest ih =>
    rw [List.flatMap_cons, List.length_append, length_cell (inside c (by simp)),
      ih fun d hd => inside d (by simp [hd]), List.length_cons, Nat.succ_mul, Nat.add_comm]

theorem cells_range' {start : Nat} (count : Nat) (lower : Geometry.firstCluster ≤ start) :
    (List.range' start count).flatMap (cell image g) =
      ((Bytes.toList image).drop (g.clusterOffset start)).take (count * g.clusterSize) := by
  induction count generalizing start with
  | zero => simp
  | succ count ih =>
    rw [List.range'_succ, List.flatMap_cons, ih (by omega), g.clusterOffset_add lower 1,
      Nat.one_mul, Nat.succ_mul, Nat.add_comm (count * g.clusterSize), List.take_add,
      List.drop_drop]
    rfl

end Cells

/-- The clusters that the bytes stand in, as far as there are that many. -/
def needed (g : Geometry) (clusters : List Nat) (size : Nat) : List Nat :=
  clusters.take (clustersExact size g.clusterSize)

section Gather
variable {g : Geometry} (bounds : g.Bounds) {image : ByteArray}
include bounds

theorem needed_zero (clusters : List Nat) : needed g clusters 0 = [] := by
  rw [needed, clustersExact_zero bounds.clusterSize_pos, List.take_zero]

theorem needed_cons (c : Nat) (rest : List Nat) {size : Nat} (nonempty : size ≠ 0) :
    needed g (c :: rest) size = c :: needed g rest (size - g.clusterSize) := by
  rw [needed, clustersExact_step bounds.clusterSize_pos nonempty, List.take_succ_cons]
  rfl

theorem gather_cons {c : Nat} (inside : Inside image g c) (rest : List Nat) {wanted : Nat}
    (more : wanted ≠ 0) (got : ByteArray) : gather image g (c :: rest) wanted got =
      gather image g rest (wanted - g.clusterSize)
        (got ++ Bytes.ofList ((cell image g c).take wanted)) := by
  have whole : g.clusterOffset c + 1 * g.clusterSize ≤ image.size := by
    have := inside.2
    omega
  obtain ⟨chunk, read, bytes⟩ : ∃ chunk, Extent.read image g ⟨c, 1⟩ g.clusterSize = .ok chunk ∧
      Bytes.toList chunk = cell image g c :=
    Extent.read_eq_ok bounds inside.1 whole (by dsimp only; omega)
  have size : chunk.size = g.clusterSize := by
    rw [← Bytes.toList_length, bytes, length_cell inside]
  have part : chunk.extract 0 (min chunk.size wanted) =
      Bytes.ofList ((cell image g c).take wanted) := by
    rw [← Bytes.toList_inj, Bytes.toList_extract, Bytes.toList_ofList, bytes, List.drop_zero,
      List.take_eq_take_iff, size, length_cell inside]
    omega
  have rest_wanted : wanted - (Bytes.ofList ((cell image g c).take wanted)).size =
      wanted - g.clusterSize := by
    rw [← Bytes.toList_length, Bytes.toList_ofList, List.length_take, length_cell inside]
    omega
  rw [gather, if_neg more, Outcome.bind_ok read]
  dsimp only
  rw [part, rest_wanted]

theorem gather_refused {c : Nat} (outside : ¬ Inside image g c) (rest : List Nat) {wanted : Nat}
    (more : wanted ≠ 0) (got : ByteArray) : ∃ cause, gather image g (c :: rest) wanted got =
      .error (.error (.transfer (.access cause))) := by
  rcases Extent.read_cases bounds image ⟨c, 1⟩ g.clusterSize with
    ⟨⟨inside, _⟩, _⟩ | ⟨_, cause, refusal⟩
  · rw [Extent.Inside, Nat.one_mul] at inside
    exact absurd inside outside
  · exact ⟨cause, by rw [gather, if_neg more, Outcome.bind_error refusal]⟩

/-- Only the needed clusters decide, and all of them do. -/
theorem gather_cases (image : ByteArray) (clusters : List Nat) (wanted : Nat) (got : ByteArray) :
    ((∀ c ∈ needed g clusters wanted, Inside image g c) ∧
      ∃ r, gather image g clusters wanted got = .ok r ∧ Bytes.toList r =
        Bytes.toList got ++ ((needed g clusters wanted).flatMap (cell image g)).take wanted) ∨
    (¬ (∀ c ∈ needed g clusters wanted, Inside image g c) ∧
      ∃ cause, gather image g clusters wanted got =
        .error (.error (.transfer (.access cause)))) := by
  induction clusters generalizing wanted got with
  | nil => exact .inl ⟨by simp [needed], got, rfl, by simp [needed]⟩
  | cons c rest ih =>
    by_cases done : wanted = 0
    · subst done
      rw [needed_zero bounds]
      exact .inl ⟨by simp, got, by rw [gather, if_pos rfl]; rfl, by simp⟩
    · rw [needed_cons bounds c rest done, List.forall_mem_cons]
      by_cases here : Inside image g c
      · rw [gather_cons bounds here rest done got]
        rcases ih (wanted - g.clusterSize) (got ++ Bytes.ofList ((cell image g c).take wanted)) with
          ⟨inside, r, run, bytes⟩ | ⟨outside, refusal⟩
        · refine .inl ⟨⟨here, inside⟩, r, run, ?_⟩
          rw [bytes, Bytes.toList_append, Bytes.toList_ofList, List.flatMap_cons, List.take_append,
            length_cell here, List.append_assoc]
        · exact .inr ⟨fun h => outside h.2, refusal⟩
      · exact .inr ⟨fun h => here h.1, gather_refused bounds here rest done got⟩

end Gather

section Read
variable {g : Geometry} (bounds : g.Bounds) {image : ByteArray}

theorem read_empty (image : ByteArray) (g : Geometry) (clusters : List Nat) :
    read image g clusters 0 = .ok ByteArray.empty := by
  have gathered : gather image g clusters 0 ByteArray.empty = .ok ByteArray.empty := by
    cases clusters with
    | nil => rfl
    | cons c rest => rw [gather, if_pos rfl]; rfl
  rw [read, if_neg (by decide)]
  change gather image g clusters 0 ByteArray.empty >>= _ = _
  rw [Outcome.bind_ok gathered]
  rfl

theorem read_oversized (image : ByteArray) (g : Geometry) (clusters : List Nat) {size : Nat}
    (large : bufferLimit ≤ size) : read image g clusters size = .error (.fault .oversizedBuffer) := by
  rw [read, if_pos large]
  rfl

include bounds

theorem read_cases (image : ByteArray) (clusters : List Nat) {size : Nat} (small : size < bufferLimit) :
    ((∀ c ∈ needed g clusters size, Inside image g c) ∧
      clustersExact size g.clusterSize ≤ clusters.length ∧
      ∃ bytes, read image g clusters size = .ok bytes ∧ bytes.size = size ∧
        Bytes.toList bytes = ((needed g clusters size).flatMap (cell image g)).take size) ∨
    ((∀ c ∈ needed g clusters size, Inside image g c) ∧
      clusters.length < clustersExact size g.clusterSize ∧
      read image g clusters size = .error (.error (.transfer (.access
        (.shortChain clusters.length (clusters.length * g.clusterSize) size))))) ∨
    (¬ (∀ c ∈ needed g clusters size, Inside image g c) ∧
      ∃ cause, read image g clusters size = .error (.error (.transfer (.access cause)))) := by
  have start : read image g clusters size = (gather image g clusters size ByteArray.empty >>=
      fun data => if data.size < size then
        fail (.transfer (.access (.shortChain clusters.length data.size size))) else pure data) := by
    rw [read, if_neg (Nat.not_le.2 small)]
    rfl
  rcases gather_cases bounds image clusters size ByteArray.empty with
    ⟨inside, r, run, bytes⟩ | ⟨outside, cause, run⟩
  · rw [Bytes.toList_empty, List.nil_append] at bytes
    have length : r.size = min size ((needed g clusters size).length * g.clusterSize) := by
      rw [← Bytes.toList_length, bytes, List.length_take, length_cells inside]
    rw [needed, List.length_take] at length
    rw [start, Outcome.bind_ok run]
    by_cases enough : clustersExact size g.clusterSize ≤ clusters.length
    · have room : size ≤ _ := size_le_clustersExact bounds.clusterSize_pos
      rw [Nat.min_eq_left enough, Nat.min_eq_left room] at length
      refine .inl ⟨inside, enough, r, ?_, length, bytes⟩
      rw [length, if_neg (Nat.lt_irrefl _)]
      rfl
    · have short := Nat.lt_of_not_le (mt (clustersExact_le_iff bounds.clusterSize_pos).2 enough)
      rw [Nat.min_eq_right (Nat.le_of_not_le enough), Nat.min_eq_right (Nat.le_of_lt short)] at length
      refine .inr (.inl ⟨inside, Nat.lt_of_not_le enough, ?_⟩)
      rw [length, if_pos short]
      rfl
  · exact .inr (.inr ⟨outside, cause, by rw [start, Outcome.bind_error run]⟩)

theorem read_eq_ok {clusters : List Nat} {size : Nat} (inside : ∀ c ∈ clusters, Inside image g c)
    (small : size < bufferLimit) (enough : size ≤ clusters.length * g.clusterSize) :
    ∃ r, read image g clusters size = .ok r ∧
      Bytes.toList r = (clusters.flatMap (cell image g)).take size ∧ r.size = size := by
  have covered := (clustersExact_le_iff bounds.clusterSize_pos).2 enough
  have front : ∀ c ∈ needed g clusters size, Inside image g c :=
    fun c hc => inside c (List.mem_of_mem_take hc)
  rcases read_cases bounds image clusters small with
    ⟨_, _, r, run, whole, bytes⟩ | ⟨_, short, _⟩ | ⟨outside, _⟩
  · -- The clusters behind the needed ones add nothing to the first bytes.
    have split : clusters.flatMap (cell image g) = (needed g clusters size).flatMap (cell image g) ++
        (clusters.drop (clustersExact size g.clusterSize)).flatMap (cell image g) := by
      rw [← List.flatMap_append, needed, List.take_append_drop]
    have room : size ≤ ((needed g clusters size).flatMap (cell image g)).length := by
      rw [length_cells front, needed, List.length_take, Nat.min_eq_left covered]
      exact size_le_clustersExact bounds.clusterSize_pos
    refine ⟨r, run, ?_, whole⟩
    rw [bytes, split, List.take_append_of_le_length room]
  · exact absurd covered (Nat.not_le.2 short)
  · exact absurd front outside

theorem read_eq_ok_iff (clusters : List Nat) {size : Nat} (small : size < bufferLimit)
    {bytes : ByteArray} : read image g clusters size = .ok bytes ↔
      clustersExact size g.clusterSize ≤ clusters.length ∧
      (∀ c ∈ needed g clusters size, Inside image g c) ∧
      Bytes.toList bytes = ((needed g clusters size).flatMap (cell image g)).take size := by
  rcases read_cases bounds image clusters small with
    ⟨inside, enough, r, run, _, stored⟩ | ⟨inside, short, run⟩ | ⟨outside, cause, run⟩
  · rw [run]
    constructor
    · rintro ⟨⟩
      exact ⟨enough, inside, stored⟩
    · rintro ⟨_, _, same⟩
      rw [Bytes.toList_inj.1 (stored.trans same.symm)]
  · rw [run]
    exact iff_of_false (by simp) fun h => Nat.not_lt.2 h.1 short
  · rw [run]
    exact iff_of_false (by simp) fun h => outside h.2.1

theorem read_settles (image : ByteArray) (clusters : List Nat) {size : Nat}
    (small : size < bufferLimit) :
    Outcome.Settles (fun r => r.size = size) (read image g clusters size) := by
  rcases read_cases bounds image clusters small with
    ⟨_, _, r, run, whole, _⟩ | ⟨_, _, run⟩ | ⟨_, cause, run⟩
  · exact Outcome.settles_ok run whole
  · rw [run]
    trivial
  · rw [run]
    trivial

end Read

end BootDisk.Chain
