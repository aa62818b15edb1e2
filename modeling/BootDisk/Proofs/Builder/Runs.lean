import BootDisk.Proofs.Builder.Steps

set_option autoImplicit false

namespace BootDisk.Builder

/-- Adds each of the files that can be added: the files placed, and the builder after them. -/
def addEach : List SourceFile → Builder → List SourceFile × Builder :=
  Step.each fun f => do
    discard (add f)
    return f

section Each
variable {f : SourceFile} {files rest : List SourceFile} {b c : Builder}

theorem addEach_keeps {P : List SourceFile → Builder → Prop} (placed : List SourceFile)
    (attempt : ∀ f ∈ files, ∀ placed b, P placed b →
      (∃ p c, add f b = (.ok p, c) ∧ P (placed ++ [f]) c) ∨
        ∃ e c, add f b = (.error e, c) ∧ P placed c)
    (h : P placed b) : P (placed ++ (addEach files b).1) (addEach files b).2 := by
  refine Step.each_keeps (fun f hf placed b held => ?_) h
  rcases attempt f hf placed b held with ⟨p, c, run, kept⟩ | ⟨e, c, run, kept⟩
  · exact .inl ⟨f, c, Step.bind_ok (Step.discard_ok run), kept⟩
  · exact .inr ⟨e, c, Step.bind_error (Step.discard_error run), kept⟩

theorem addEach_cons_ok {p : Placement} (h : add f b = (.ok p, c)) :
    addEach (f :: rest) b = (f :: (addEach rest c).1, (addEach rest c).2) := by
  have run : (do discard (add f); return f : Step Builder SourceFile) b = (.ok f, c) :=
    Step.bind_ok (Step.discard_ok h)
  rw [addEach, Step.each, run]

theorem addEach_cons_error {e : Failure} (h : add f b = (.error e, c)) :
    addEach (f :: rest) b = addEach rest c := by
  have run : (do discard (add f); return f : Step Builder SourceFile) b = (.error e, c) :=
    Step.bind_error (Step.discard_error h)
  rw [addEach, Step.each, run]

theorem addAll_cons_ok {p : Placement} (h : add f b = (.ok p, c)) :
    addAll (f :: rest) b = addAll rest c := by
  change (discard (add f) >>= fun _ => addAll rest : Step Builder Unit) b = _
  rw [Step.bind_ok (Step.discard_ok h)]

theorem addAll_cons_error {e : Failure} (h : add f b = (.error e, c)) :
    addAll (f :: rest) b = (.error e, c) := by
  change (discard (add f) >>= fun _ => addAll rest : Step Builder Unit) b = _
  rw [Step.bind_error (Step.discard_error h)]

theorem addAll_concat {d : Builder} {p : Placement} (h : addAll files b = (.ok (), c))
    (run : add f c = (.ok p, d)) : addAll (files ++ [f]) b = (.ok (), d) := by
  have split : addAll (files ++ [f]) = (addAll files >>= fun _ => addAll [f]) :=
    List.forM_append
  rw [split, Step.bind_ok h, addAll_cons_ok run]
  rfl

end Each

section Attempt
variable {g : Geometry} {s : Settings} {slots : List Slot} {b : Builder} (h : Holds g s slots b)
  (bounds : g.Bounds)
include h bounds

theorem add_fits {f : SourceFile} {draft : Record} (made : Record.make f.name f.ext 0 0 = .ok draft)
    (room : slots.length < g.rootEntries.toNat)
    (new : ∀ u ∈ slots, u.record.sameName draft = false) (nonempty : f.size ≠ 0)
    (fits : f.size ≤ b.allocator.remaining * g.clusterSize) :
    ∃ t c, t.file = f ∧ add f b = (.ok (t.placement g), c) ∧ Holds g s (slots ++ [t]) c := by
  have positive := bounds.clusterSize_pos
  have remaining : b.allocator.remaining = g.maxCluster + 1 - b.allocator.next := by
    rw [Allocator.remaining, h.maxCluster]
  have ready : Allocator.Ready g b.allocator := ⟨h.clusterSize, h.maxCluster, h.plan.first_le⟩
  have small := ready.remaining_lt bounds
  have exact : clustersNeeded f.size g.clusterSize = clustersExact f.size g.clusterSize :=
    clustersNeeded_of_le positive fits small
  have held : clustersExact f.size g.clusterSize ≤ b.allocator.remaining :=
    (clustersExact_le_iff positive).2 fits
  let t : Slot := ⟨f, draft, b.allocator.next⟩
  have count : t.count g = clustersExact f.size g.clusterSize := exact
  have fit : t.Fits g :=
    ⟨made, Nat.pos_of_ne_zero nonempty, count ▸ size_le_clustersExact positive⟩
  have within : t.start + t.count g ≤ g.maxCluster + 1 := by
    have := h.plan.within
    change b.allocator.next + _ ≤ _
    omega
  obtain ⟨c, placed, _⟩ := (h.framed bounds).place bounds fit rfl within (h.root.check_new room new)
  exact ⟨t, c, rfl, placed.run, placed.holds bounds h⟩

end Attempt

section Runs
variable {g : Geometry} {s : Settings} (bounds : g.Bounds)
include bounds

theorem addEach_holds (files : List SourceFile)
    (short : ∀ f ∈ files, f.size < 0x100000000 * g.clusterSize) {slots : List Slot} {b : Builder}
    (h : Holds g s slots b) : ∃ more, more.map Slot.file = (addEach files b).1 ∧
      Holds g s (slots ++ more) (addEach files b).2 := by
  have start : ∃ more, more.map Slot.file = [] ∧ Holds g s (slots ++ more) b :=
    ⟨[], rfl, by rw [List.append_nil]; exact h⟩
  refine addEach_keeps (P := fun placed c => ∃ more, more.map Slot.file = placed ∧
    Holds g s (slots ++ more) c) [] (fun f hf placed c ⟨more, same, held⟩ => ?_) start
  rcases (held.framed bounds).add_short_cases bounds (short f hf) with
    ⟨e, run⟩ | ⟨t, d, rfl, taken, _⟩
  · exact .inr ⟨e, c, run, more, same, held⟩
  · have next := taken.holds bounds held
    rw [List.append_assoc] at next
    exact .inl ⟨_, d, taken.run, more ++ [t], by rw [List.map_append, same]; rfl, next⟩

theorem addAll_holds (files : List SourceFile) {slots : List Slot} {b c : Builder}
    (h : Holds g s slots b) (run : addAll files b = (.ok (), c)) :
    ∃ more, more.map Slot.file = files ∧ Holds g s (slots ++ more) c := by
  induction files generalizing slots b with
  | nil =>
    cases run
    exact ⟨[], rfl, by rw [List.append_nil]; exact h⟩
  | cons f rest ih =>
    rcases (h.framed bounds).add_cases bounds f with
      ⟨e, failed⟩ | ⟨t, d, rfl, placed, _⟩ | ⟨e, failed, _⟩
    · rw [addAll_cons_error failed] at run
      cases run
    · rw [addAll_cons_ok placed.run] at run
      obtain ⟨more, files, holds⟩ := ih (placed.holds bounds h) run
      rw [List.append_assoc] at holds
      exact ⟨t :: more, by rw [List.map_cons, files], holds⟩
    · rw [addAll_cons_error failed] at run
      cases run

end Runs

theorem start_takes {g : Geometry} (s : Settings) (valid : g.validate = .ok ()) {f : SourceFile}
    {draft : Record} (made : Record.make f.name f.ext 0 0 = .ok draft) (nonempty : f.size ≠ 0)
    (fits : f.size ≤ g.dataClusters * g.clusterSize) : ∃ first t b, start g s = .ok first ∧
      addAll [f] first = (.ok (), b) ∧ t.file = f ∧ Holds g s [t] b := by
  have bounds := Geometry.bounds_of_validate valid
  obtain ⟨first, run, fresh⟩ := start_holds s valid
  have remaining : first.allocator.remaining = g.dataClusters := by
    have start : Geometry.firstCluster = first.allocator.next := fresh.plan.tile
    rw [Allocator.remaining, fresh.maxCluster, ← start, Geometry.maxCluster_eq]
    unfold Geometry.firstCluster
    omega
  obtain ⟨t, b, file, added, holds⟩ := add_fits fresh bounds made bounds.records (by simp) nonempty
    (by rw [remaining]; exact fits)
  exact ⟨first, t, b, run, by rw [addAll_cons_ok added]; rfl, file, holds⟩

def letter : SourceFile := ⟨"LETTER", "TXT", Bytes.ofList [0x68, 0x69]⟩

theorem floppy_takes_letter : ∃ first t b, start Geometry.floppy {} = .ok first ∧
    addAll [letter] first = (.ok (), b) ∧ t.file = letter ∧ Holds Geometry.floppy {} [t] b :=
  have made : Record.make letter.name letter.ext 0 0 = .ok (Record.mk _ _ _ _ _) := rfl
  start_takes {} rfl made (by decide) (by decide)

end BootDisk.Builder
