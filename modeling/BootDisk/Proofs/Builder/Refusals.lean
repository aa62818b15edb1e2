import BootDisk.Proofs.Builder.Admission
import BootDisk.Proofs.Builder.Regions

set_option autoImplicit false

/-!
# Files that are refused

Every builder that attempts can reach has the frame of its layout, whatever the sizes of the files.
So a file of a size that 32 bits can count in clusters is placed or refused, and what refuses it
changes nothing: a run that ignores errors is the run of the files it places.
-/
namespace BootDisk.Builder

/-- The builders of a layout, after any attempts. -/
inductive Reachable (g : Geometry) (s : Settings) : Builder → Prop where
  | fresh {b : Builder} : start g s = .ok b → Reachable g s b
  | next {b : Builder} (f : SourceFile) : Reachable g s b → Reachable g s (add f b).2

section Attempts
variable {g : Geometry} {s : Settings} {b : Builder} (bounds : g.Bounds)
include bounds

theorem Reachable.framed (valid : g.validate = .ok ()) (h : Reachable g s b) : Framed g s b := by
  induction h with
  | fresh run =>
    obtain ⟨first, again, holds⟩ := start_holds s valid
    cases run.symm.trans again
    exact holds.framed bounds
  | next f _ ih => exact ih.after_add bounds f

theorem Framed.refused (h : Framed g s b) {f : SourceFile}
    (short : f.size < 0x100000000 * g.clusterSize) {e : Failure} {c : Builder}
    (run : add f b = (.error e, c)) : c = b := by
  rcases h.add_short_cases bounds short with ⟨_, refused⟩ | ⟨_, _, rfl, placed, _⟩
  · rw [refused] at run
    cases run
    rfl
  · rw [placed.run] at run
    cases run

theorem Framed.addAll_placed (h : Framed g s b) (files : List SourceFile)
    (short : ∀ f ∈ files, f.size < 0x100000000 * g.clusterSize) :
    addAll (addEach files b).1 b = (.ok (), (addEach files b).2) := by
  have start : addAll [] b = (.ok (), b) ∧ Framed g s b := ⟨rfl, h⟩
  refine (addEach_keeps (P := fun placed c => addAll placed b = (.ok (), c) ∧ Framed g s c) []
    (fun f hf placed c ⟨done, held⟩ => ?_) start).1
  rcases held.add_short_cases bounds (short f hf) with ⟨e, refused⟩ | ⟨t, d, rfl, taken, framed⟩
  · exact .inr ⟨e, c, refused, done, held⟩
  · exact .inl ⟨_, d, taken.run, addAll_concat done taken.run, framed⟩

end Attempts

/-- A refused file leaves no trace: not in the builder, and not in the image of a run that goes on
without it. -/
theorem refused_untraced (g : Geometry) (s : Settings) (valid : g.validate = .ok ()) :
    (∀ (b : Builder) (f : SourceFile), Reachable g s b → f.size < 0x100000000 * g.clusterSize →
      ∀ (e : Failure) (c : Builder), add f b = (.error e, c) → c = b) ∧
    ∃ first, start g s = .ok first ∧
      ∀ files : List SourceFile, (∀ f ∈ files, f.size < 0x100000000 * g.clusterSize) →
        ∃ b image, addAll (addEach files first).1 first = (.ok (), b) ∧
          b.finish = .ok image ∧ (addEach files first).2 = b := by
  have bounds := Geometry.bounds_of_validate valid
  obtain ⟨first, run, fresh⟩ := start_holds s valid
  refine ⟨?_, first, run, ?_⟩
  · intro b f reachable short e c
    exact (reachable.framed bounds valid).refused bounds short
  · intro files short
    have framed := fresh.framed bounds
    obtain ⟨image, done, _⟩ := (framed.after_addEach bounds files).finished bounds
    exact ⟨_, image, framed.addAll_placed bounds files short, done, rfl⟩

theorem floppy_untraced : ∃ first b c image, start Geometry.floppy {} = .ok first ∧
    Reachable Geometry.floppy {} b ∧
    add letter b = (.error (.error (.duplicateName "LETTER.TXT")), c) ∧ c = b ∧
    addAll (addEach [letter, letter] first).1 first = (.ok (), (addEach [letter, letter] first).2) ∧
    (addEach [letter, letter] first).2.finish = .ok image := by
  have valid : Geometry.floppy.validate = .ok () := rfl
  have bounds := Geometry.bounds_of_validate valid
  obtain ⟨kept, first, run, rerun⟩ := refused_untraced Geometry.floppy {} valid
  obtain ⟨fresh, again, holds⟩ := start_holds {} valid
  cases run.symm.trans again
  obtain ⟨t, b, _, added, _, refused⟩ := floppy_letters holds
  have reachable : Reachable Geometry.floppy {} (add letter first).2 := .next letter (.fresh run)
  rw [added] at reachable
  obtain ⟨_, image, same, done, rfl⟩ := rerun [letter, letter] (by decide)
  exact ⟨first, b, b, image, run, reachable, refused,
    kept b letter reachable (by decide) _ _ refused, same, done⟩

end BootDisk.Builder
