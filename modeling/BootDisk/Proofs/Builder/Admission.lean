import BootDisk.Proofs.Builder.Runs

set_option autoImplicit false

/-!
# Which files a layout admits

A list of files can be placed when their names can be stored and differ, no file is empty, and the
directory and the data region have room for them. When a run fails, it fails at the first file that
breaks one of these conditions behind the files before it, and says which one. This holds for every
size that 32 bits can count in clusters; a count that is cut makes the copy of the bytes fail.
-/
namespace BootDisk.Builder

/-- Files whose keys agree have clashing names. -/
def key (f : SourceFile) : List UInt8 × List UInt8 :=
  (Record.upperPrefix 8 f.name, Record.upperPrefix 3 f.ext)

/-- The clusters that the files take together. -/
def clustersOf (g : Geometry) : List SourceFile → Nat
  | [] => 0
  | f :: rest => clustersExact f.size g.clusterSize + clustersOf g rest

structure Admissible (g : Geometry) (files : List SourceFile) : Prop where
  named : ∀ f ∈ files, Record.Storable f.name f.ext
  distinct : (files.map key).Nodup
  nonempty : ∀ f ∈ files, f.size ≠ 0
  room : files.length ≤ g.rootEntries.toNat
  fits : clustersOf g files ≤ g.dataClusters

instance (g : Geometry) (files : List SourceFile) : Decidable (Admissible g files) :=
  decidable_of_iff ((∀ f ∈ files, Record.defect? f.name f.ext = none) ∧ (files.map key).Nodup ∧
      (∀ f ∈ files, f.size ≠ 0) ∧ files.length ≤ g.rootEntries.toNat ∧
      clustersOf g files ≤ g.dataClusters)
    ⟨fun ⟨named, distinct, nonempty, room, fits⟩ =>
        ⟨fun f hf => Record.defect?_eq_none_iff.1 (named f hf), distinct, nonempty, room, fits⟩,
      fun h => ⟨fun f hf => Record.defect?_eq_none_iff.2 (h.named f hf), h.distinct, h.nonempty,
        h.room, h.fits⟩⟩

/-- The first condition that a file breaks behind those before it. -/
def refusal? (g : Geometry) (before : List SourceFile) (f : SourceFile) : Option DiskError :=
  let shown := Record.shownName f.name f.ext
  let needed := clustersExact f.size g.clusterSize
  let available := g.dataClusters - clustersOf g before
  match Record.defect? f.name f.ext with
  | some part => some (.invalidName part)
  | none =>
    if g.rootEntries.toNat ≤ before.length then
      some (.directoryFull shown g.rootEntries.toNat)
    else if key f ∈ before.map key then some (.duplicateName shown)
    else if f.size = 0 then some (.emptyFile f.display)
    else if available < needed then some (.capacityExceeded f.display needed available)
    else none

/-! ## Conditions file by file -/

structure Admitted (g : Geometry) (before : List SourceFile) (f : SourceFile) : Prop where
  named : Record.Storable f.name f.ext
  room : before.length < g.rootEntries.toNat
  new : key f ∉ before.map key
  nonempty : f.size ≠ 0
  fits : clustersExact f.size g.clusterSize ≤ g.dataClusters - clustersOf g before

/-- A broken condition, the conditions asked before it that hold, and the error that reports it. -/
inductive Refused (g : Geometry) (before : List SourceFile) (f : SourceFile) : DiskError → Prop where
  | name {part : String} (defect : Record.defect? f.name f.ext = some part) :
      Refused g before f (.invalidName part)
  | full (named : Record.Storable f.name f.ext) (full : g.rootEntries.toNat ≤ before.length) :
      Refused g before f (.directoryFull (Record.shownName f.name f.ext) g.rootEntries.toNat)
  | duplicate (named : Record.Storable f.name f.ext) (room : before.length < g.rootEntries.toNat)
      (known : key f ∈ before.map key) :
      Refused g before f (.duplicateName (Record.shownName f.name f.ext))
  | empty (named : Record.Storable f.name f.ext) (room : before.length < g.rootEntries.toNat)
      (new : key f ∉ before.map key) (empty : f.size = 0) :
      Refused g before f (.emptyFile f.display)
  | large (named : Record.Storable f.name f.ext) (room : before.length < g.rootEntries.toNat)
      (new : key f ∉ before.map key) (nonempty : f.size ≠ 0)
      (exceeds : g.dataClusters - clustersOf g before < clustersExact f.size g.clusterSize) :
      Refused g before f (.capacityExceeded f.display (clustersExact f.size g.clusterSize)
        (g.dataClusters - clustersOf g before))

/-- Nothing but its size keeps the file out, and its clusters need more than 32 bits to count. -/
structure Uncounted (g : Geometry) (before : List SourceFile) (f : SourceFile) : Prop where
  named : Record.Storable f.name f.ext
  room : before.length < g.rootEntries.toNat
  new : key f ∉ before.map key
  large : 0xffffffff * g.clusterSize < f.size

section Conditions
variable {g : Geometry} {before after : List SourceFile} {f : SourceFile}

theorem clustersOf_append : clustersOf g (before ++ after) =
    clustersOf g before + clustersOf g after := by
  induction before with
  | nil => simp [clustersOf]
  | cons f rest ih => simp [clustersOf, ih, Nat.add_assoc]

variable (g before f) in
theorem refusal?_cases : refusal? g before f = none ∧ Admitted g before f ∨
    ∃ e, refusal? g before f = some e ∧ Refused g before f e := by
  unfold refusal?
  cases defect : Record.defect? f.name f.ext with
  | some part => exact .inr ⟨_, rfl, .name defect⟩
  | none =>
    have named := Record.defect?_eq_none_iff.1 defect
    dsimp only
    by_cases full : g.rootEntries.toNat ≤ before.length
    · rw [if_pos full]
      exact .inr ⟨_, rfl, .full named full⟩
    · have room := Nat.lt_of_not_le full
      rw [if_neg full]
      by_cases known : key f ∈ before.map key
      · rw [if_pos known]
        exact .inr ⟨_, rfl, .duplicate named room known⟩
      · rw [if_neg known]
        by_cases empty : f.size = 0
        · rw [if_pos empty]
          exact .inr ⟨_, rfl, .empty named room known empty⟩
        · rw [if_neg empty]
          by_cases exceeds :
              g.dataClusters - clustersOf g before < clustersExact f.size g.clusterSize
          · rw [if_pos exceeds]
            exact .inr ⟨_, rfl, .large named room known empty exceeds⟩
          · rw [if_neg exceeds]
            exact .inl ⟨rfl, named, room, known, empty, Nat.le_of_not_lt exceeds⟩

theorem refused_of_refusal? {e : DiskError} (h : refusal? g before f = some e) :
    Refused g before f e := by
  rcases refusal?_cases g before f with ⟨none, _⟩ | ⟨u, some, refused⟩
  · cases none.symm.trans h
  · cases some.symm.trans h
    exact refused

theorem refusal?_eq_none_iff : refusal? g before f = none ↔ Admitted g before f := by
  constructor
  · intro none
    rcases refusal?_cases g before f with ⟨_, admitted⟩ | ⟨e, some, _⟩
    · exact admitted
    · cases none.symm.trans some
  · rintro ⟨named, room, new, nonempty, fits⟩
    unfold refusal?
    rw [Record.defect?_eq_none_iff.2 named]
    dsimp only
    rw [if_neg (by omega), if_neg new, if_neg nonempty, if_neg (by omega)]

theorem Admissible.of_append (h : Admissible g (before ++ after)) : Admissible g before where
  named := fun f hf => h.named f (List.mem_append_left _ hf)
  distinct := by
    have := h.distinct
    rw [List.map_append] at this
    exact (List.nodup_append.1 this).1
  nonempty := fun f hf => h.nonempty f (List.mem_append_left _ hf)
  room := by
    have := h.room
    rw [List.length_append] at this
    omega
  fits := by
    have := h.fits
    rw [clustersOf_append] at this
    omega

theorem Admissible.snoc_iff (h : Admissible g before) :
    Admissible g (before ++ [f]) ↔ refusal? g before f = none := by
  have fits := h.fits
  have one : clustersOf g [f] = clustersExact f.size g.clusterSize := by simp [clustersOf]
  rw [refusal?_eq_none_iff]
  constructor
  · intro all
    have distinct := all.distinct
    have room := all.room
    have total := all.fits
    rw [List.map_append, List.nodup_append] at distinct
    rw [List.length_append, List.length_singleton] at room
    rw [clustersOf_append, one] at total
    refine ⟨all.named f (by simp), room, ?_, all.nonempty f (by simp), by omega⟩
    intro known
    exact distinct.2.2 _ known _ (by simp) rfl
  · intro admitted
    exact {
      named := by
        intro u hu
        rcases List.mem_append.1 hu with old | last
        · exact h.named u old
        · exact List.mem_singleton.1 last ▸ admitted.named
      distinct := by
        rw [List.map_append, List.nodup_append]
        refine ⟨h.distinct, by simp, ?_⟩
        intro a ha b hb same
        rw [List.map_singleton, List.mem_singleton] at hb
        exact admitted.new (hb ▸ same ▸ ha)
      nonempty := by
        intro u hu
        rcases List.mem_append.1 hu with old | last
        · exact h.nonempty u old
        · exact List.mem_singleton.1 last ▸ admitted.nonempty
      room := by
        rw [List.length_append, List.length_singleton]
        exact admitted.room
      fits := by
        have := admitted.fits
        rw [clustersOf_append, one]
        omega }

end Conditions

/-! ## What a builder has left -/

theorem Slot.Fits.count_eq {g : Geometry} {t : Slot} (bounds : g.Bounds) (h : t.Fits g) :
    t.count g = clustersExact t.file.size g.clusterSize := by
  have held := (clustersExact_le_iff bounds.clusterSize_pos).2 h.enough
  have cut : t.count g ≤ clustersExact t.file.size g.clusterSize := Nat.mod_le _ _
  omega

theorem clustersOf_tile {g : Geometry} (bounds : g.Bounds) {slots : List Slot} {start stop : Nat}
    (fits : ∀ t ∈ slots, t.Fits g) (tile : Extent.Tile start (slots.map (Slot.extent g)) stop) :
    start + clustersOf g (slots.map Slot.file) = stop := by
  induction slots generalizing start with
  | nil => exact tile
  | cons t rest ih =>
    obtain ⟨_, _, tile⟩ := tile
    have tail := ih (fun u hu => fits u (by simp [hu])) tile
    change start + t.count g + _ = stop at tail
    rw [(fits t (by simp)).count_eq bounds] at tail
    change start + (clustersExact t.file.size g.clusterSize + clustersOf g (rest.map Slot.file)) = _
    omega

section Held
variable {g : Geometry} {s : Settings} {slots : List Slot} {b : Builder} (h : Holds g s slots b)
include h

theorem Holds.sameName_iff {f : SourceFile} {draft : Record}
    (made : Record.make f.name f.ext 0 0 = .ok draft) {u : Slot} (hu : u ∈ slots) :
    u.record.sameName draft = true ↔ key u.file = key f := by
  have recorded : Record.make u.file.name u.file.ext u.record.firstCluster u.record.size =
    .ok u.record := Record.make_with (h.plan.fits u hu).made _ _
  rw [Record.sameName_iff_of_make recorded made, key, key, Prod.mk.injEq]

theorem Holds.contains_iff {f : SourceFile} {draft : Record}
    (made : Record.make f.name f.ext 0 0 = .ok draft) :
    b.root.contains draft = true ↔ key f ∈ (slots.map Slot.file).map key := by
  rw [← Bool.not_eq_false, RootDirectory.contains_eq_false_iff, h.root.records, List.map_map]
  constructor
  · intro known
    apply Classical.byContradiction
    intro absent
    apply known
    intro r hr
    obtain ⟨u, hu, rfl⟩ := List.mem_map.1 hr
    rw [← Bool.not_eq_true, h.sameName_iff made hu]
    exact fun same => absent (List.mem_map.2 ⟨u, hu, same⟩)
  · intro known new
    obtain ⟨u, hu, same⟩ := List.mem_map.1 known
    have differ := new u.record (List.mem_map_of_mem hu)
    rw [(h.sameName_iff made hu).2 same] at differ
    cases differ

theorem Holds.length : b.root.length = (slots.map Slot.file).length := by
  rw [h.root.length, List.length_map]

theorem Holds.check_new {f : SourceFile} {draft : Record}
    (made : Record.make f.name f.ext 0 0 = .ok draft)
    (room : (slots.map Slot.file).length < g.rootEntries.toNat)
    (new : key f ∉ (slots.map Slot.file).map key) : b.root.check draft = .ok () := by
  rw [← h.length, ← h.root.capacity] at room
  rw [← h.contains_iff made, Bool.not_eq_true] at new
  exact RootDirectory.check_new room new

variable (bounds : g.Bounds)
include bounds

theorem Holds.remaining :
    b.allocator.remaining = g.dataClusters - clustersOf g (slots.map Slot.file) := by
  have next := clustersOf_tile bounds h.plan.fits h.plan.tile
  rw [Allocator.remaining, h.maxCluster, ← next, Geometry.maxCluster_eq]
  unfold Geometry.firstCluster
  omega

theorem Holds.admissible : Admissible g (slots.map Slot.file) where
  named := by
    intro f hf
    obtain ⟨u, hu, rfl⟩ := List.mem_map.1 hf
    exact Record.defect?_eq_none_iff.1 (Record.defect?_of_make (h.plan.fits u hu).made)
  distinct := by
    rw [List.map_map]
    refine (List.pairwise_map).2 (h.plan.distinct.imp_of_mem ?_)
    intro t u ht hu different same
    have made := Record.make_with (h.plan.fits u hu).made (UInt16.ofNat u.start)
      (UInt32.ofNat u.file.size)
    have recorded := Record.make_with (h.plan.fits t ht).made (UInt16.ofNat t.start)
      (UInt32.ofNat t.file.size)
    have clash : t.record.sameName u.record = true :=
      (Record.sameName_iff_of_make recorded made).2 (Prod.mk.inj same)
    rw [clash] at different
    cases different
  nonempty := by
    intro f hf
    obtain ⟨u, hu, rfl⟩ := List.mem_map.1 hf
    exact Nat.ne_of_gt (h.plan.fits u hu).nonempty
  room := by
    rw [List.length_map]
    exact h.plan.room
  fits := by
    have next := clustersOf_tile bounds h.plan.fits h.plan.tile
    have within := h.plan.within
    rw [Geometry.maxCluster_eq] at within
    unfold Geometry.firstCluster at next
    omega

theorem Holds.add_admitted {f : SourceFile} (admitted : refusal? g (slots.map Slot.file) f = none) :
    ∃ t c, t.file = f ∧ add f b = (.ok (t.placement g), c) ∧ Holds g s (slots ++ [t]) c := by
  obtain ⟨named, room, new, nonempty, available⟩ := refusal?_eq_none_iff.1 admitted
  obtain ⟨draft, made⟩ := Record.make_of_sound (Record.defect?_eq_none_iff.2 named) 0 0
  rw [List.length_map] at room
  refine add_fits h bounds made room ?_ nonempty ?_
  · intro u hu
    rw [← Bool.not_eq_true, h.sameName_iff made hu]
    intro same
    rw [List.map_map] at new
    exact new (List.mem_map.2 ⟨u, hu, same⟩)
  · rw [h.remaining bounds]
    exact (clustersExact_le_iff bounds.clusterSize_pos).1 available

theorem Holds.add_refusal {f : SourceFile} {e : DiskError}
    (broken : refusal? g (slots.map Slot.file) f = some e)
    (counted : ¬ Uncounted g (slots.map Slot.file) f) : add f b = (.error (.error e), b) := by
  have made := fun named : Record.Storable f.name f.ext =>
    Record.make_of_sound (Record.defect?_eq_none_iff.2 named) 0 0
  cases refused_of_refusal? broken with
  | name defect => exact add_invalid (Record.make_of_defect defect 0 0)
  | full named full =>
    obtain ⟨draft, made⟩ := made named
    rw [← h.length, ← h.root.capacity] at full
    rw [← Record.shortName_of_make made, ← h.root.capacity]
    exact add_refused made (RootDirectory.check_full full)
  | duplicate named room known =>
    obtain ⟨draft, made⟩ := made named
    rw [← h.length, ← h.root.capacity] at room
    rw [← Record.shortName_of_make made]
    exact add_refused made (RootDirectory.check_duplicate room ((h.contains_iff made).2 known))
  | empty named room new empty =>
    obtain ⟨draft, made⟩ := made named
    apply add_unallocated made (h.check_new made room new)
    rw [empty]
    exact Allocator.allocate_empty
  | large named room new nonempty exceeds =>
    obtain ⟨draft, made⟩ := made named
    have positive := bounds.clusterSize_pos
    have small : f.size ≤ 0xffffffff * g.clusterSize :=
      Nat.le_of_not_lt fun large => counted ⟨named, room, new, large⟩
    have needed : clustersNeeded f.size b.allocator.clusterSize =
        clustersExact f.size g.clusterSize := by
      rw [h.clusterSize]
      exact clustersNeeded_of_le positive small (by decide)
    rw [← h.clusterSize] at positive
    rw [← h.remaining bounds, ← needed] at exceeds ⊢
    exact add_unallocated made (h.check_new made room new)
      (Allocator.allocate_exceeded positive nonempty exceeds)

theorem Holds.add_broken {f : SourceFile} {e : DiskError}
    (broken : refusal? g (slots.map Slot.file) f = some e)
    (counted : f.size ≤ 0xffffffff * g.clusterSize) : add f b = (.error (.error e), b) :=
  h.add_refusal bounds broken fun uncounted => absurd uncounted.large (Nat.not_lt.2 counted)

end Held

/-! ## Runs -/

section Runs
variable {g : Geometry} {s : Settings} (bounds : g.Bounds)
include bounds

theorem Holds.addAll_admitted (files : List SourceFile) {slots : List Slot} {b : Builder}
    (h : Holds g s slots b) (admissible : Admissible g (slots.map Slot.file ++ files)) :
    (addAll files b).1 = .ok () := by
  induction files generalizing slots b with
  | nil => rfl
  | cons f rest ih =>
    rw [List.append_cons] at admissible
    have admitted := (h.admissible bounds).snoc_iff.1 admissible.of_append
    obtain ⟨t, c, rfl, run, holds⟩ := h.add_admitted bounds admitted
    rw [addAll_cons_ok run]
    apply ih holds
    rw [List.map_append]
    exact admissible

theorem Holds.addAll_broken (files : List SourceFile) {slots : List Slot} {b : Builder}
    (h : Holds g s slots b) (counted : ∀ f ∈ files, f.size ≤ 0xffffffff * g.clusterSize)
    (broken : ¬ Admissible g (slots.map Slot.file ++ files)) :
    ∃ before f after e, files = before ++ f :: after ∧
      Admissible g (slots.map Slot.file ++ before) ∧
      refusal? g (slots.map Slot.file ++ before) f = some e ∧
      (addAll files b).1 = .error (.error e) := by
  -- The induction moves the files that are placed from the list to the slots.
  induction files generalizing slots b with
  | nil =>
    rw [List.append_nil] at broken
    exact absurd (h.admissible bounds) broken
  | cons f rest ih =>
    cases refused : refusal? g (slots.map Slot.file) f with
    | some e =>
      have run := h.add_broken bounds refused (counted f (by simp))
      refine ⟨[], f, rest, e, rfl, ?_, ?_, ?_⟩
      · rw [List.append_nil]
        exact h.admissible bounds
      · rw [List.append_nil]
        exact refused
      · rw [addAll_cons_error run]
    | none =>
      obtain ⟨t, c, rfl, run, holds⟩ := h.add_admitted bounds refused
      have files : (slots ++ [t]).map Slot.file = slots.map Slot.file ++ [t.file] :=
        List.map_append
      rw [List.append_cons, ← files] at broken
      obtain ⟨before, u, after, e, rfl, admissible, first, error⟩ :=
        ih holds (fun u hu => counted u (List.mem_cons_of_mem _ hu)) broken
      rw [files, ← List.append_cons] at admissible first
      exact ⟨t.file :: before, u, after, e, rfl, admissible, first, by rw [addAll_cons_ok run, error]⟩

end Runs

/-- A run of a fresh builder succeeds exactly for an admissible list. Otherwise it ends with the
first file that breaks a condition, if the clusters of each file are counted in 32 bits. -/
theorem addAll_admissible (g : Geometry) (s : Settings) (valid : g.validate = .ok ()) :
    ∃ first, start g s = .ok first ∧ ∀ files : List SourceFile,
      ((addAll files first).1 = .ok () ↔ Admissible g files) ∧
      ((∀ f ∈ files, f.size ≤ 0xffffffff * g.clusterSize) → ¬ Admissible g files →
        ∃ before f after e, files = before ++ f :: after ∧ Admissible g before ∧
          refusal? g before f = some e ∧ (addAll files first).1 = .error (.error e)) := by
  have bounds := Geometry.bounds_of_validate valid
  obtain ⟨first, run, fresh⟩ := start_holds s valid
  refine ⟨first, run, fun files => ⟨⟨?_, ?_⟩, ?_⟩⟩
  · intro done
    obtain ⟨slots, rfl, holds⟩ := addAll_holds bounds files fresh (Prod.ext done rfl)
    exact holds.admissible bounds
  · exact fresh.addAll_admitted bounds files
  · exact fresh.addAll_broken bounds files

theorem floppy_admissible : Admissible Geometry.floppy [letter] ∧
    ¬ Admissible Geometry.floppy [letter, letter] ∧
    ∃ first, start Geometry.floppy {} = .ok first ∧ (addAll [letter] first).1 = .ok () ∧
      ∃ e, (addAll [letter, letter] first).1 = .error (.error e) := by
  have one : Admissible Geometry.floppy [letter] := by decide
  have two : ¬ Admissible Geometry.floppy [letter, letter] := by decide
  obtain ⟨first, run, result⟩ := addAll_admissible Geometry.floppy {} rfl
  obtain ⟨_, _, _, e, _, _, _, error⟩ := (result [letter, letter]).2 (by decide) two
  exact ⟨one, two, first, run, (result [letter]).1.2 one, e, error⟩

theorem floppy_letters {first : Builder} (fresh : Holds Geometry.floppy {} [] first) : ∃ t b,
    t.file = letter ∧ add letter first = (.ok (t.placement Geometry.floppy), b) ∧
    Holds Geometry.floppy {} [t] b ∧
    add letter b = (.error (.error (.duplicateName "LETTER.TXT")), b) := by
  have bounds : Geometry.floppy.Bounds := Geometry.bounds_of_validate rfl
  obtain ⟨t, b, file, added, one⟩ := fresh.add_admitted bounds (f := letter) (by decide)
  have known : refusal? Geometry.floppy ([t].map Slot.file) letter =
      some (.duplicateName "LETTER.TXT") := by
    rw [List.map_singleton, file]
    decide
  exact ⟨t, b, file, added, one, one.add_broken bounds known (by decide)⟩

/-- The clusters of this file on a floppy need 33 bits to count. -/
def huge : SourceFile := ⟨"BIG", "", Bytes.zeros 0x1ffffffffff⟩

theorem huge_size : huge.size = 0x1ffffffffff := Bytes.size_zeros _

/-- No room is left for the file, but with its count cut to zero it looks as if there were. -/
theorem huge_refused_late :
    huge.size < 0x100000000 * Geometry.floppy.clusterSize ∧
    refusal? Geometry.floppy [] huge = some (.capacityExceeded "BIG" 0x100000000 2847) ∧
    ∃ first, start Geometry.floppy {} = .ok first ∧ (addAll [huge] first).1 =
      .error (.error (.transfer (.access (.tooLong 0x1ffffffffff 0)))) := by
  have valid : Geometry.floppy.validate = .ok () := rfl
  have bounds := Geometry.bounds_of_validate valid
  obtain ⟨first, run, fresh⟩ := start_holds {} valid
  have sound : Record.defect? huge.name huge.ext = none := by decide
  obtain ⟨draft, made⟩ := Record.make_of_sound sound 0 0
  let t : Slot := ⟨huge, draft, first.allocator.next⟩
  have count : t.count Geometry.floppy = 0 := by
    change clustersNeeded huge.size _ = 0
    rw [huge_size]
    rfl
  have checked : first.root.check draft = .ok () :=
    fresh.root.check_new bounds.records (by simp)
  have late := add_truncated bounds (fresh.framed bounds) (t := t)
    (by rw [show t.file.size = _ from huge_size]; decide) rfl
    (by rw [count]; exact fresh.plan.within) made checked
    (by rw [count, show t.file.size = _ from huge_size]; decide)
  rw [count, show t.file.size = _ from huge_size] at late
  refine ⟨by rw [huge_size]; decide, ?_, first, run, ?_⟩
  · unfold refusal?
    rw [sound, huge_size]
    rfl
  · rw [addAll_cons_error late]

end BootDisk.Builder
