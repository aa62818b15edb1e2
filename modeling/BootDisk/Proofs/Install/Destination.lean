import BootDisk.Proofs.Install.Runs

set_option autoImplicit false

/-!
# Paths that an image can be moved to

A path whose parent is a directory can take a file when it ends in a plain name and no text made from
it is too long. The temporary file is made in the parent as it is spelled, and the image lands in the
directory that the segments before the name lead to: the two are the same.
-/
namespace BootDisk.Install
open FileTree BootDisk.Path

/-- The path ends in a name, and it and the path of the temporary file have texts that a system
takes. -/
structure Nameable (t : FileTree) (p : Path) : Prop where
  name : ∃ before name, p.segments = before ++ [name] ∧ PlainName name
  clean : p.hasNul = false
  short : p.text.utf8ByteSize ≤ maxPathBytes
  scratch : (t.scratchFile (directoryOf p)).text.utf8ByteSize ≤ maxPathBytes

section Text
variable {t : FileTree} {p : Path}

theorem pieces_of_segments {before : List String} {name : String}
    (segments : p.segments = before ++ [name]) (plain : PlainName name) :
    ∃ pieces last, split p.text.toList = pieces ++ [last] ∧ pieces.map String.ofList = before ∧
      isIdle last = false := by
  obtain ⟨pieces, others, whole, front, back⟩ := List.map_eq_append_iff.1 segments
  obtain ⟨last, rest, rfl, same, none⟩ := List.map_eq_cons_iff.1 back
  rw [List.map_eq_nil_iff] at none
  rw [none] at whole
  refine ⟨pieces, last, whole, front, ?_⟩
  rw [Bool.eq_false_iff]
  intro idle
  rcases idle_ofList idle with empty | dot
  · exact plain.nonempty (same.symm.trans empty)
  · exact plain.here (same.symm.trans dot)

theorem Nameable.text_ok (h : Nameable t p) : checkText p = .ok () := by
  obtain ⟨before, name, segments, plain⟩ := h.name
  refine checkText_eq_ok_iff.2 ⟨h.clean, ?_, h.short⟩
  intro empty
  obtain ⟨pieces, last, whole, _, named⟩ := pieces_of_segments segments plain
  rw [empty] at whole
  rw [eq_of_single whole] at named
  cases named

theorem entry_of_mem {place : List String} (present : t.node? place ≠ none) :
    ∀ name ∈ place, EntryName name := by
  induction place using List.reverseRecOn with
  | nil => simp
  | append_singleton directory name ih =>
    have above : t.node? directory ≠ none :=
      directory_of_present present ▸ Option.some_ne_none _
    simp only [List.mem_append, List.mem_singleton]
    rintro other (before | rfl)
    · exact ih above other before
    · exact entry_of_present present

theorem hasNul_homePath (t : FileTree) : t.homePath.hasNul = false := by
  have settled : t.node? t.home = some .directory := t.settled
  have home : t.node? t.home ≠ none := settled ▸ Option.some_ne_none _
  rw [hasNul_eq_false_iff, homePath, String.toList_ofList, List.mem_cons, not_or]
  refine ⟨by decide, fun nul => ?_⟩
  obtain ⟨piece, member, inside⟩ := (mem_intercalate nul).resolve_left (by decide)
  obtain ⟨name, there, rfl⟩ := List.mem_map.1 member
  exact hasNul_eq_false_iff.1 (entry_of_mem home name there).clean inside

theorem Nameable.scratch_ok (h : Nameable t p) :
    checkText (t.scratchFile (directoryOf p)) = .ok () := by
  obtain ⟨before, name, segments, plain⟩ := h.name
  obtain ⟨pieces, last, whole, _, named⟩ := pieces_of_segments segments plain
  have directory := hasNul_directoryOf whole named h.clean
  refine checkText_eq_ok_iff.2
    ⟨hasNul_join (hasNul_join (hasNul_homePath t) directory) (by decide), ?_, h.scratch⟩
  intro empty
  have dot : '.' ∈ (t.scratchFile (directoryOf p)).text.toList := mem_join (by decide)
  rw [empty] at dot
  cases dot

end Text

section Parent
variable {t : FileTree} {p : Path} {place : List String}

theorem follow_before {before : List String} {name : String}
    (segments : p.segments = before ++ [name]) (plain : PlainName name)
    (located : t.locate (directoryOf p) = .ok place)
    (directory : t.node? place = some .directory) :
    t.follow (t.origin p) before = .ok place := by
  obtain ⟨pieces, last, whole, rfl, named⟩ := pieces_of_segments segments plain
  obtain ⟨absolute, common, left, right, rfl, spelled, idleLeft, idleRight⟩ :=
    directoryOf_follows whole named
  have idle : ∀ {ps : List (List Char)}, (∀ s ∈ ps, isIdle s = true) →
      ∀ s ∈ ps.map String.ofList, s = "" ∨ s = "." := by
    intro ps all s hs
    obtain ⟨piece, member, rfl⟩ := List.mem_map.1 hs
    exact idle_ofList (all piece member)
  have followed := (locate_eq_ok_iff.1 located).2
  have start : t.origin (directoryOf p) = t.origin p := by rw [origin, origin, absolute]
  rw [start, Path.segments, spelled, List.map_append, follow_append] at followed
  obtain ⟨m, shared, rest⟩ := Outcome.bind_eq_ok_iff.1 followed
  cases follow_idle_eq (idle idleRight) rest
  rw [List.map_append, follow_append, Outcome.bind_ok shared]
  exact follow_idle directory (idle idleLeft)

variable (nameable : Nameable t p) (parent : t.kind? (directoryOf p) = some .directory)
include nameable parent

theorem workshop_ok : ∃ l, t.workshop (directoryOf p) = .ok l := by
  obtain ⟨place, located, directory⟩ := locate_of_directory parent
  refine ⟨place, ?_⟩
  unfold workshop
  rw [nameable.scratch_ok, located]
  change (if t.kindAt? place ≠ some .directory then _ else _) = _
  rw [if_neg (not_not_intro (kindAt?_eq_directory_iff.2 directory))]
  rfl

/-- A file can be moved to the path unless a directory stands there. -/
theorem lands (vacant : t.kind? p ≠ some .directory) : ∃ target, t.Lands p target := by
  obtain ⟨before, name, segments, plain⟩ := nameable.name
  obtain ⟨place, located, directory⟩ := locate_of_directory parent
  have followed := follow_before segments plain located directory
  refine ⟨place ++ [name], nameable.text_ok, ⟨before, name, place, segments, plain, followed,
    directory, rfl⟩, fun taken => vacant ?_⟩
  have there : t.locate p = .ok (place ++ [name]) := by
    rw [locate_eq_ok_iff, segments, follow_append, Outcome.bind_ok followed]
    refine ⟨nameable.text_ok, follow_single directory plain ?_⟩
    rw [kindAt?_eq_directory_iff.1 taken]
    exact Option.some_ne_none _
  rw [kind?, there]
  exact taken

end Parent

end BootDisk.Install
