import BootDisk.Proofs.Extents.Access

set_option autoImplicit false

/-!
# What a write to a run changes

Data that fits a run replaces as many bytes from its start on, and no other byte of the image: not
the regions in front of the clusters, not the rest of the run, and no byte of a run that shares no
cluster with it. A write that is refused leaves the image. So writes to runs without a common cluster
can be made in either order.
-/
namespace BootDisk.Extent

/-- An image after `data` was written to the start of a run. -/
structure Written (g : Geometry) (e : Extent) (data image after : ByteArray) : Prop where
  back : read after g e data.size = .ok data
  size : after.size = image.size
  frame : ∀ i, i < g.clusterOffset e.start ∨ g.clusterOffset e.start + data.size ≤ i →
    Bytes.byte? after i = Bytes.byte? image i
  metadata : ∀ i < g.dataOffset, Bytes.byte? after i = Bytes.byte? image i
  others : ∀ f : Extent, Geometry.firstCluster ≤ f.start → e.Apart f → ∀ i,
    g.clusterOffset f.start ≤ i → i < g.clusterOffset f.start + f.count * g.clusterSize →
      Bytes.byte? after i = Bytes.byte? image i

/-- A write replaces bytes of the image, or says what is wrong and leaves it. -/
theorem copy_cases {g : Geometry} (bounds : g.Bounds) (e : Extent) (data image : ByteArray) :
    ((e.Inside g image.size ∧ data.size ≤ e.count * g.clusterSize) ∧
      ∃ after, Bytes.splice? image (g.clusterOffset e.start) data = some after ∧
        copy g e data image = (.ok (), after)) ∨
    (¬ (e.Inside g image.size ∧ data.size ≤ e.count * g.clusterSize) ∧
      ∃ cause, copy g e data image = (.error (.error (.transfer (.access cause))), image)) := by
  by_cases inside : e.Inside g image.size
  · by_cases fits : data.size ≤ e.count * g.clusterSize
    · obtain ⟨after, splice⟩ : ∃ r, Bytes.splice? image (g.clusterOffset e.start) data = some r :=
        Bytes.splice?_isSome (Nat.le_trans (Nat.add_le_add_left fits _) inside.2)
      exact .inl ⟨⟨inside, fits⟩, after, splice, copy_of_splice bounds inside.1 inside.2 fits splice⟩
    · exact .inr ⟨fun h => fits h.2, _, copy_too_long bounds inside.1 inside.2 (by omega)⟩
  · obtain ⟨cause, defect⟩ := Option.ne_none_iff_exists'.1 (mt defect?_eq_none_iff.1 inside)
    exact .inr ⟨fun h => inside h.1, cause, copy_refused bounds defect⟩

section Write
variable {g : Geometry} (bounds : g.Bounds) {image data after : ByteArray} {e : Extent}
include bounds

theorem splice_of_copy (done : copy g e data image = (.ok (), after)) :
    (e.Inside g image.size ∧ data.size ≤ e.count * g.clusterSize) ∧
      Bytes.splice? image (g.clusterOffset e.start) data = some after := by
  rcases copy_cases bounds e data image with ⟨fits, r, splice, run⟩ | ⟨_, cause, run⟩
  · cases done.symm.trans run
    exact ⟨fits, splice⟩
  · cases done.symm.trans run

theorem exists_copy_iff : (∃ after, copy g e data image = (.ok (), after)) ↔
    e.Inside g image.size ∧ data.size ≤ e.count * g.clusterSize := by
  rcases copy_cases bounds e data image with ⟨fits, r, _, run⟩ | ⟨unfit, cause, run⟩
  · exact ⟨fun _ => fits, fun _ => ⟨r, run⟩⟩
  · refine ⟨?_, fun fits => absurd fits unfit⟩
    rintro ⟨after, done⟩
    cases done.symm.trans run

theorem copy_eq_error {failure : Failure} (failed : copy g e data image = (.error failure, after)) :
    after = image ∧ ∃ cause, failure = .error (.transfer (.access cause)) := by
  rcases copy_cases bounds e data image with ⟨_, r, _, run⟩ | ⟨_, cause, run⟩
  · cases failed.symm.trans run
  · cases failed.symm.trans run
    exact ⟨rfl, cause, rfl⟩

theorem written_of_copy (done : copy g e data image = (.ok (), after)) :
    Written g e data image after := by
  obtain ⟨⟨inside, fits⟩, splice⟩ := splice_of_copy bounds done
  have size := Bytes.splice?_size splice
  have frame : ∀ i, i < g.clusterOffset e.start ∨ g.clusterOffset e.start + data.size ≤ i →
      Bytes.byte? after i = Bytes.byte? image i := by
    intro i outside
    rw [Bytes.byte?_splice? splice, if_neg (by omega)]
  refine ⟨?_, size, frame, ?_, ?_⟩
  · have still : e.Inside g after.size := by
      rw [size]
      exact inside
    exact (read_eq_ok_iff bounds).2 ⟨⟨still, fits⟩, Bytes.slice?_splice?_self splice⟩
  · intro i before
    exact frame i (.inl (Nat.lt_of_lt_of_le before (g.dataOffset_le_clusterOffset _)))
  · intro f lower apart i first last
    apply frame
    by_cases before : i < g.clusterOffset e.start
    · exact .inl before
    · -- A byte inside the data would be a byte of both runs.
      refine .inr (Nat.not_lt.1 fun written => ?_)
      have := apart.not_shared g inside.1 lower (Nat.not_lt.1 before)
        (Nat.lt_of_lt_of_le written (Nat.add_le_add_left fits _))
      omega

theorem copy_comm {f : Extent} {other last : ByteArray} (apart : e.Apart f)
    (first : copy g e data image = (.ok (), after))
    (second : copy g f other after = (.ok (), last)) :
    ∃ between, copy g f other image = (.ok (), between) ∧
      copy g e data between = (.ok (), last) := by
  obtain ⟨⟨inside, fits⟩, splice⟩ := splice_of_copy bounds first
  obtain ⟨⟨insideOther, fitsOther⟩, spliceOther⟩ := splice_of_copy bounds second
  rw [Bytes.splice?_size splice] at insideOther
  obtain ⟨between, early, late⟩ := Bytes.splice?_comm splice spliceOther (by
    intro i lower upper
    have := apart.not_shared g inside.1 insideOther.1 lower
      (Nat.lt_of_lt_of_le upper (Nat.add_le_add_left fits _))
    omega)
  have insideBetween : e.Inside g between.size := by
    rw [Bytes.splice?_size early]
    exact inside
  exact ⟨between, copy_of_splice bounds insideOther.1 insideOther.2 fitsOther early,
    copy_of_splice bounds insideBetween.1 insideBetween.2 fits late⟩

end Write

/-- On any image of a valid layout: which writes succeed, what they change, that the others change
nothing, and that writes to runs without a common cluster commute. -/
theorem copy_confined (g : Geometry) (valid : g.validate = .ok ()) (image data : ByteArray)
    (e : Extent) :
    ((∃ after, copy g e data image = (.ok (), after)) ↔
      (Geometry.firstCluster ≤ e.start ∧
        g.clusterOffset e.start + e.count * g.clusterSize ≤ image.size) ∧
      data.size ≤ e.count * g.clusterSize) ∧
    (∀ after, copy g e data image = (.ok (), after) → Written g e data image after) ∧
    (∀ failure after, copy g e data image = (.error failure, after) →
      after = image ∧ ∃ cause, failure = .error (.transfer (.access cause))) ∧
    ∀ (f : Extent) (other after last : ByteArray), e.Apart f →
      copy g e data image = (.ok (), after) → copy g f other after = (.ok (), last) →
      ∃ between, copy g f other image = (.ok (), between) ∧
        copy g e data between = (.ok (), last) := by
  have bounds := Geometry.bounds_of_validate valid
  exact ⟨exists_copy_iff bounds, fun _ => written_of_copy bounds,
    fun _ _ => copy_eq_error bounds, fun _ _ _ _ => copy_comm bounds⟩

theorem floppy_confined : ∃ after last between failure,
    copy .floppy ⟨2, 1⟩ (Bytes.ofList [1, 2, 3]) (Bytes.zeros 17920) = (.ok (), after) ∧
    Written .floppy ⟨2, 1⟩ (Bytes.ofList [1, 2, 3]) (Bytes.zeros 17920) after ∧
    copy .floppy ⟨3, 1⟩ (Bytes.ofList [4]) after = (.ok (), last) ∧
    copy .floppy ⟨3, 1⟩ (Bytes.ofList [4]) (Bytes.zeros 17920) = (.ok (), between) ∧
    copy .floppy ⟨2, 1⟩ (Bytes.ofList [1, 2, 3]) between = (.ok (), last) ∧
    copy .floppy ⟨3, 2⟩ (Bytes.ofList [4]) (Bytes.zeros 17920) =
      (.error failure, Bytes.zeros 17920) := by
  have valid : Geometry.floppy.validate = .ok () := rfl
  have size := Bytes.size_zeros 17920
  obtain ⟨succeeds, written, _, commutes⟩ :=
    copy_confined .floppy valid (Bytes.zeros 17920) (Bytes.ofList [1, 2, 3]) ⟨2, 1⟩
  obtain ⟨after, first⟩ := succeeds.2 ⟨⟨by decide, by rw [size]; decide⟩, by decide⟩
  have done := written after first
  obtain ⟨last, second⟩ := (copy_confined .floppy valid after (Bytes.ofList [4]) ⟨3, 1⟩).1.2
    ⟨⟨by decide, by rw [done.size, size]; decide⟩, by decide⟩
  obtain ⟨between, early, late⟩ := commutes ⟨3, 1⟩ (Bytes.ofList [4]) after last
    (by unfold Apart; decide) first second
  obtain ⟨fits, _, refused, _⟩ :=
    copy_confined .floppy valid (Bytes.zeros 17920) (Bytes.ofList [4]) ⟨3, 2⟩
  obtain ⟨failure, refusal⟩ : ∃ failure, copy .floppy ⟨3, 2⟩ (Bytes.ofList [4]) (Bytes.zeros 17920) =
      (.error failure, Bytes.zeros 17920) := by
    rcases run : copy .floppy ⟨3, 2⟩ (Bytes.ofList [4]) (Bytes.zeros 17920) with ⟨result, r⟩
    cases result with
    | ok =>
      have behind := (fits.1 ⟨r, run⟩).1.2
      rw [size] at behind
      exact absurd behind (by decide)
    | error failure => exact ⟨failure, by rw [(refused failure r run).1]⟩
  exact ⟨after, last, between, failure, first, done, second, early, late, refusal⟩

end BootDisk.Extent
