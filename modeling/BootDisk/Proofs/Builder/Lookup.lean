import Mathlib.Data.List.Basic
import BootDisk.Proofs.Builder.Audited
import BootDisk.Proofs.Builder.Order

set_option autoImplicit false

namespace BootDisk

theorem Volume.find_congr (v : Volume) {asked other : String}
    (same : Text.asciiUpper asked = Text.asciiUpper other) : v.find asked = v.find other := by
  rw [find, find, same]

namespace Builder

/-- What asking for a name in a volume gives, when the files have these placements and records. -/
structure Located (v : Volume) (files : List SourceFile) (placements : List Placement)
    (records : List Record) (asked : String) : Prop where
  found_iff : ∃ found, v.find asked = .ok found ∧
    (found.isSome = true ↔ ∃ p ∈ placements, p.name = Text.asciiUpper asked)
  unique : ∀ (i j : Nat) p q, placements[i]? = some p → placements[j]? = some q →
    p.name = Text.asciiUpper asked → q.name = Text.asciiUpper asked → i = j
  file : ∀ (i : Nat) f p r, files[i]? = some f → placements[i]? = some p → records[i]? = some r →
    p.name = Text.asciiUpper asked → v.find asked = .ok (some r) ∧ Recovered v f p r

theorem shown_of_placement {g : Geometry} {slots : List Slot} {i : Nat} {p : Placement}
    (h : (slots.map (Slot.placement g))[i]? = some p) :
    (slots.map (Record.shortName ∘ Slot.record))[i]? = some p.name := by
  rw [List.getElem?_map] at h ⊢
  obtain ⟨t, here, rfl⟩ := Option.map_eq_some_iff.1 h
  rw [here]
  rfl

section Finished
variable {g : Geometry} {s : Settings} {slots : List Slot} {b : Builder} (bounds : g.Bounds)
  (h : Holds g s slots b)
include bounds h

theorem Holds.place_unique {name : String} {i j : Nat} {p q : Placement}
    (hp : (slots.map (Slot.placement g))[i]? = some p)
    (hq : (slots.map (Slot.placement g))[j]? = some q) (first : p.name = name)
    (second : q.name = name) : i = j := by
  have distinct := (orderly_finished bounds h b.image).names
  rw [List.map_map] at distinct
  have here := shown_of_placement hp
  have there := shown_of_placement hq
  rw [first] at here
  rw [second] at there
  exact (List.getElem?_inj (List.getElem?_eq_some_iff.1 here).1 distinct).1 (here.trans there.symm)

variable (reserved : 1 ≤ g.reservedSectors.toNat) {image : ByteArray}
  (bytes : Bytes.toList image = finishedBytes g s slots b)
include reserved bytes

theorem Holds.find_place (asked : String) {t : Slot} (ht : t ∈ slots)
    (named : t.record.shortName = Text.asciiUpper asked) :
    (⟨image, g, b.table⟩ : Volume).find asked = .ok (some t.record) := by
  have upper : Text.asciiUpper t.record.shortName = t.record.shortName :=
    (Record.Named.of_make (Record.make_with (h.plan.fits t ht).made _ _)).asciiUpper_shortName
  have shown : Text.asciiUpper asked = Text.asciiUpper t.record.shortName := by rw [upper, named]
  rw [Volume.find_congr _ shown]
  exact find_finished bounds h reserved bytes ht

theorem Holds.located (asked : String) : Located ⟨image, g, b.table⟩ (slots.map Slot.file)
    (slots.map (Slot.placement g)) (slots.map Slot.record) asked where
  found_iff := by
    refine ⟨(slots.map Slot.record).find? fun r => r.shortName == Text.asciiUpper asked, ?_, ?_⟩
    · rw [Volume.find, Outcome.bind_ok (records_finished bounds h reserved bytes)]
      rfl
    · rw [List.find?_isSome]
      simp only [List.mem_map, beq_iff_eq]
      constructor
      · rintro ⟨_, ⟨t, ht, rfl⟩, named⟩
        exact ⟨_, ⟨t, ht, rfl⟩, named⟩
      · rintro ⟨_, ⟨t, ht, rfl⟩, named⟩
        exact ⟨_, ⟨t, ht, rfl⟩, named⟩
  unique := fun _ _ _ _ hp hq first second => h.place_unique bounds hp hq first second
  file := by
    intro i f p r file placement record named
    obtain ⟨t, ht, rfl, rfl, rfl⟩ := exists_slot file placement record
    exact ⟨h.find_place bounds reserved bytes asked ht named, h.recovered bounds reserved bytes ht⟩

end Finished

/-- Whatever files are added to a fresh builder and whatever name is asked for, the lookup answers
with the record of the one file that was placed under the name, if there is one. -/
theorem find_exact (g : Geometry) (s : Settings) (valid : g.validate = .ok ())
    (reserved : 1 ≤ g.reservedSectors.toNat) :
    ∃ first, start g s = .ok first ∧ ∀ files b, addAll files first = (.ok (), b) →
      ∃ image v records, b.finish = .ok image ∧ Volume.mount image.bytes = .ok v ∧
        v.records = .ok records ∧ image.files.length = files.length ∧
        records.length = files.length ∧
        (∀ (i : Nat) f p, files[i]? = some f → image.files[i]? = some p →
          p.name = Record.shownName f.name f.ext) ∧
        ∀ asked : String, Located v files image.files records asked := by
  have bounds := Geometry.bounds_of_validate valid
  obtain ⟨first, run, fresh⟩ := start_holds s valid
  refine ⟨first, run, fun files b added => ?_⟩
  obtain ⟨slots, rfl, h⟩ := addAll_holds bounds files fresh added
  rw [List.nil_append] at h
  obtain ⟨image, finished, placements, bytes⟩ := finish_eq_ok bounds h reserved
  refine ⟨image, _, slots.map Slot.record, finished, mount_finished bounds h reserved bytes valid,
    records_finished bounds h reserved bytes, by rw [placements, List.length_map, List.length_map],
    by rw [List.length_map, List.length_map], fun i f p file placement => ?_, fun asked => ?_⟩
  · rw [List.getElem?_map] at file
    rw [placements, List.getElem?_map] at placement
    obtain ⟨t, here, rfl⟩ := Option.map_eq_some_iff.1 file
    rw [here] at placement
    cases placement
    exact Record.shortName_of_make (Record.make_with
      (h.plan.fits t (List.mem_of_getElem? here)).made _ _)
  · rw [placements]
    exact h.located bounds reserved bytes asked

theorem floppy_located : ∃ first b image v r, start Geometry.floppy {} = .ok first ∧
    addAll [letter, pair] first = (.ok (), b) ∧ b.finish = .ok image ∧
    Volume.mount image.bytes = .ok v ∧ v.find "Pair.bin" = .ok (some r) ∧
    v.contents r = .ok pair.contents ∧ v.find "pair" = .ok none := by
  have valid : Geometry.floppy.validate = .ok () := rfl
  have admissible : Admissible Geometry.floppy [letter, pair] := by decide +kernel
  obtain ⟨first, run, exact⟩ := find_exact Geometry.floppy {} valid (by decide)
  obtain ⟨fresh, again, holds⟩ := start_holds {} valid
  cases run.symm.trans again
  have added : addAll [letter, pair] first = (.ok (), _) :=
    Prod.ext (holds.addAll_admitted (Geometry.bounds_of_validate valid) _ admissible) rfl
  obtain ⟨image, v, records, finished, mounted, _, placements, listed, named, located⟩ :=
    exact _ _ added
  have upper : "PAIR.BIN" = Text.asciiUpper "Pair.bin" := by decide +kernel
  have lower : Text.asciiUpper "pair" = "PAIR" := by decide +kernel
  obtain ⟨p, q, both⟩ := List.length_eq_two.1 placements
  obtain ⟨r₀, r, records_eq⟩ := List.length_eq_two.1 listed
  have first_name : p.name = "LETTER.TXT" := named 0 letter p rfl (by rw [both]; rfl)
  have second_name : q.name = "PAIR.BIN" := named 1 pair q rfl (by rw [both]; rfl)
  obtain ⟨found, file⟩ := (located "Pair.bin").file 1 pair q r rfl (by rw [both]; rfl)
    (by rw [records_eq]; rfl) (second_name.trans upper)
  obtain ⟨answer, answered, found_iff⟩ := (located "pair").found_iff
  refine ⟨first, _, image, v, r, run, added, finished, mounted, found, file.contents, ?_⟩
  rw [answered]
  cases answer with
  | none => rfl
  | some r' =>
    obtain ⟨other, member, name⟩ := found_iff.1 rfl
    rw [both] at member
    rw [lower] at name
    rcases List.mem_pair.1 member with rfl | rfl
    · exact absurd (first_name.symm.trans name) (by decide)
    · exact absurd (second_name.symm.trans name) (by decide)

end Builder

end BootDisk
