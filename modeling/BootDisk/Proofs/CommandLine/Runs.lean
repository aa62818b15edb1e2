import BootDisk.Proofs.Builder.Order
import BootDisk.Proofs.CommandLine.Inputs
import BootDisk.Proofs.CommandLine.Switches
import BootDisk.Proofs.Install.Atomicity
import BootDisk.Proofs.Install.Verification

set_option autoImplicit false

/-!
# What a run does

A run that exits with 0 has installed the image of its inputs. Asking for an audit changes nothing
about it, and a dry run of the same arguments prints the same report with another path. The path is
printed as it is given, so that a path of several lines takes as many lines of the report.
-/
namespace BootDisk.CommandLine
open FileTree Install

variable {t u : FileTree} {i : Invocation} {files : List SourceFile} {label : String}
  {serial : UInt32} {arguments : List String} {r : InstallReport}

/-! ## The settings -/

theorem applyTo_eq {s : Settings} (start : s.partitionStart = 63) : i.applyTo s =
    { ({ label := (i.applyTo s).label, serial := (i.applyTo s).serial } : Settings) with
      verify := (i.applyTo s).verify } := by
  rw [Invocation.applyTo, start]

section Perform
variable {m : Type → Type} [Monad m] [Storage m]

/-- The audit that an invocation asks for changes nothing. -/
theorem perform_verify (i : Invocation) (b : Bool) :
    perform { i with verify := b } = (perform i : Running m InstallReport) := by
  unfold perform
  refine congrArg (inputs i >>= ·) (funext fun (files, s) => ?_)
  have settings : ({ i with verify := b } : Invocation).applyTo s =
      { i.applyTo s with verify := s.verify || b } := rfl
  dsimp only
  rw [settings, dryRun_verify, install_verify]

end Perform

section Invoked
variable (asked : Asked t i files label serial)
include asked

theorem perform_install (wet : i.dryRun = false)
    (installed : (install { label, serial } i.bootLoader i.image files :
      Step FileTree InstallReport) t = (.ok r, u)) :
    (perform i : Running (StateM FileTree) InstallReport) t = (.ok r, u) := by
  obtain ⟨s, given, rfl, rfl, start⟩ := inputs_ok asked
  rw [perform, Step.bind_ok given]
  dsimp only
  rw [wet, if_neg Bool.false_ne_true, applyTo_eq start, install_verify]
  exact during_ok installed

theorem perform_dryRun (rehearsed : dryRun { label, serial } files = .ok r) :
    (perform { i with dryRun := true } : Running (StateM FileTree) InstallReport) t =
      (.ok r, t) := by
  obtain ⟨s, given, rfl, rfl, start⟩ := inputs_ok asked
  have given : (inputs { i with dryRun := true } : Running (StateM FileTree) _) t = _ := given
  rw [perform, Step.bind_ok given]
  have settings : ({ i with dryRun := true } : Invocation).applyTo s = i.applyTo s := rfl
  dsimp only
  rw [settings, if_pos rfl, applyTo_eq start, dryRun_verify, rehearsed]
  rfl

end Invoked

theorem perform_eq_ok (wet : i.dryRun = false)
    (h : (perform i : Running (StateM FileTree) InstallReport) t = (.ok r, u)) :
    ∃ files label serial, Asked t i files label serial ∧
      (install { label, serial } i.bootLoader i.image files : Step FileTree InstallReport) t =
        (.ok r, u) := by
  obtain ⟨⟨files, s⟩, v, given, installed⟩ := Step.bind_eq_ok_iff.1 h
  obtain ⟨asked, start, rfl⟩ := inputs_eq_ok given
  dsimp only at installed
  rw [wet, if_neg Bool.false_ne_true, applyTo_eq start, install_verify] at installed
  exact ⟨files, _, _, asked, during_eq_ok installed⟩

/-! ## Exit codes and reports -/

def Ending.of : Except RunError InstallReport → Ending
  | .ok r => .done r
  | .error e => .failed e

theorem run_eq (accepted : parse arguments = .ok i) {answer : Except RunError InstallReport}
    (h : (perform i : Running (StateM FileTree) InstallReport) t = (answer, u)) :
    (run arguments : StateM FileTree Ending) t = (.of answer, u) := by
  rw [run, accepted]
  refine (Step.state_bind h).trans ?_
  cases answer with
  | ok r => rfl
  | error e => rfl

theorem run_eq_of_perform {others : List String} {j : Invocation} (first : parse arguments = .ok i)
    (second : parse others = .ok j)
    (same : (perform i : Running (StateM FileTree) InstallReport) = perform j) :
    (run arguments : StateM FileTree Ending) = run others := by
  rw [run, run, first, second]
  dsimp only
  rw [same]

/-- Of the runs of an invocation only those that end with a report exit with 0. -/
theorem run_done {e : Ending} (accepted : parse arguments = .ok i)
    (h : (run arguments : StateM FileTree Ending) t = (e, u)) (succeeds : e.exit.code = 0) :
    ∃ r, e = .done r ∧
      (perform i : Running (StateM FileTree) InstallReport) t = (.ok r, u) := by
  generalize performed : (perform i : Running (StateM FileTree) InstallReport) t = result at *
  obtain ⟨answer, v⟩ := result
  cases h.symm.trans (run_eq accepted performed)
  cases answer with
  | ok r => exact ⟨r, rfl, rfl⟩
  | error failure =>
    change failure.code = 0 at succeeds
    rw [RunError.code] at succeeds
    split at succeeds
    · cases succeeds
    · cases succeeds

/-- The text behind the first line. -/
def laterLines (s : String) : List Char := (s.toList.dropWhile (· ≠ '\n')).drop 1

theorem laterLines_eq {s : String} (first rest : List Char)
    (whole : s.toList = first ++ '\n' :: rest) (single : '\n' ∉ first) : laterLines s = rest := by
  have line : ∀ c ∈ first, decide (c ≠ '\n') = true := by
    intro c hc
    rw [decide_eq_true_iff]
    rintro rfl
    exact single hc
  rw [laterLines, whole, List.dropWhile_append_of_pos line]
  rfl

theorem report_path (r : InstallReport) : ∃ body, ∀ path,
    report { r with path := path } = "Image: " ++
      (match path with
        | some p => p.text
        | none => "(dry run, nothing written)") ++ "\n" ++ body := by
  let start := r.partition.startSector.toNat
  refine ⟨s!"  Sectors: {r.totalSectors}\n" ++
    (s!"  Partition: start LBA {start}, {r.partition.sectorCount.toNat} sectors\n" ++
    (s!"  Clusters: {r.clustersUsed} used, {r.clustersFree} free\n\n" ++
    String.join (r.files.map fileLine))), fun path => ?_⟩
  simp only [report, String.append_assoc]
  rfl

/-- With and without a path, the reports differ in the first line, where the path has but one. -/
theorem report_rehearsed {p : Path} (path : r.path = some p) : ∃ body,
    report r = "Image: " ++ p.text ++ "\n" ++ body ∧
    report { r with path := none } = "Image: (dry run, nothing written)" ++ "\n" ++ body ∧
    (laterLines (report { r with path := none }) = laterLines (report r) ↔ '\n' ∉ p.text.toList) := by
  obtain ⟨body, reports⟩ := report_path r
  have written : report r = "Image: " ++ p.text ++ "\n" ++ body := by
    have whole : report r = _ := reports r.path
    rwa [path] at whole
  have rehearsed : report { r with path := none } =
      "Image: (dry run, nothing written)" ++ "\n" ++ body := reports none
  refine ⟨body, written, rehearsed, ?_⟩
  have none : laterLines (report { r with path := none }) = body.toList := by
    rw [rehearsed]
    exact laterLines_eq "Image: (dry run, nothing written)".toList body.toList
      (by simp [String.toList_append]) (by decide)
  have characters : (report r).toList = "Image: ".toList ++ (p.text.toList ++ '\n' :: body.toList) := by
    rw [written]
    simp [String.toList_append]
  have start : '\n' ∉ "Image: ".toList := by decide
  rw [none]
  constructor
  · intro same broken
    -- What follows a line feed in the path comes before the body.
    obtain ⟨line, rest, text, single⟩ := List.eq_append_cons_of_mem broken
    have later : laterLines (report r) = rest ++ '\n' :: body.toList :=
      laterLines_eq ("Image: ".toList ++ line) _ (by rw [characters, text]; simp) (by simp [single])
    have length := congrArg List.length (same.trans later)
    rw [List.length_append, List.length_cons] at length
    omega
  · intro single
    refine (laterLines_eq ("Image: ".toList ++ p.text.toList) body.toList ?_ ?_).symm
    · rw [characters, List.append_assoc]
    · rw [List.mem_append, not_or]
      exact ⟨start, single⟩

/-! ## Whole runs -/

section Succeeds
variable (wet : i.dryRun = false)
  (h : (perform i : Running (StateM FileTree) InstallReport) t = (.ok r, u))
include wet h

theorem installed_of_perform (apart : ∀ place contents,
    t.file i.bootLoader = .ok (place, contents) → t.destination i.image ≠ .ok place) :
    ∃ files label serial image place contents target, Asked t i files label serial ∧
      Installed t { label, serial } i.bootLoader i.image files r u image place contents target ∧
      partitionFor { label, serial } image = ⟨63, 2880⟩ := by
  obtain ⟨files, label, serial, asked, installed⟩ := perform_eq_ok wet h
  obtain ⟨image, place, contents, target, ready, rfl, rfl⟩ :=
    install_eq_ok (plain_of_install installed) installed
  have other : target ≠ place := by
    rintro rfl
    exact apart _ contents ready.found (destination_eq_ok_iff.2 ready.lands)
  refine ⟨files, label, serial, image, place, contents, target, asked, ready.installed other, ?_⟩
  rw [partitionFor, (build_size (build_of_buildImage ready.built)).2]
  rfl

theorem rehearsed_of_perform : r.path = some i.image ∧
    (perform { i with dryRun := true } : Running (StateM FileTree) InstallReport) t =
      (.ok { r with path := none }, t) := by
  obtain ⟨files, label, serial, asked, installed⟩ := perform_eq_ok wet h
  obtain ⟨image, _, _, _, ready, rfl, _⟩ := install_eq_ok (plain_of_install installed) installed
  exact ⟨rfl, perform_dryRun asked (dryRun_eq_ok_iff.2 ⟨image, ready.built, rfl⟩)⟩

end Succeeds

theorem run_of_adds_verify {fewer more : List String} {j : Invocation}
    (adds : Switch.verify.Adds fewer more) (accepted : parse more = .ok j) :
    (run more : StateM FileTree Ending) = run fewer :=
  run_eq_of_perform accepted (Switch.parse_of_adds adds accepted).2 (perform_verify j false).symm

theorem dryRun_of_adds {fewer more : List String} {j : Invocation}
    (adds : Switch.dryRun.Adds fewer more) (accepted : parse fewer = .ok i)
    (more : parse more = .ok j) : j = { i with dryRun := true } := by
  obtain ⟨on, without⟩ := Switch.parse_of_adds adds more
  have on : j.dryRun = true := on
  cases accepted.symm.trans without
  rw [← on]
  rfl

/-- On any tree, for arguments without `--dry-run` whose run exits with 0: the image of the inputs is
installed, an audit that is asked for or left out changes nothing, and a dry run leaves the tree and
prints the same report with another path. -/
theorem run_delivers (t : FileTree) (arguments : List String) (i : Invocation)
    (accepted : parse arguments = .ok i) (wet : i.dryRun = false)
    (apart : ∀ place contents, t.file i.bootLoader = .ok (place, contents) →
      t.destination i.image ≠ .ok place)
    (e : Ending) (u : FileTree)
    (ends : (run arguments : StateM FileTree Ending) t = (e, u)) (succeeds : e.exit.code = 0) :
    (∃ files label serial r image place contents target, Asked t i files label serial ∧
      e = .done r ∧
      Installed t { label, serial } i.bootLoader i.image files r u image place contents target ∧
      partitionFor { label, serial } image = ⟨63, 2880⟩) ∧
    (∀ others, Switch.verify.Adds others arguments →
      (run others : StateM FileTree Ending) t = (e, u)) ∧
    (∀ others, Switch.verify.Adds arguments others → (∃ j, parse others = .ok j) →
      (run others : StateM FileTree Ending) t = (e, u)) ∧
    (i.verify = false → ∃ j, parse ("--verify" :: arguments) = .ok j) ∧
    (∀ others, Switch.dryRun.Adds arguments others → (∃ j, parse others = .ok j) → ∃ d body,
      (run others : StateM FileTree Ending) t = (d, t) ∧ d.exit.code = 0 ∧
      e.exit.output = "Image: " ++ i.image.text ++ "\n" ++ body ∧
      d.exit.output = "Image: (dry run, nothing written)" ++ "\n" ++ body ∧
      (laterLines d.exit.output = laterLines e.exit.output ↔ '\n' ∉ i.image.text.toList)) ∧
    ∃ j, parse ("--dry-run" :: arguments) = .ok j := by
  obtain ⟨r, rfl, performed⟩ := run_done accepted ends succeeds
  refine ⟨?delivered, ?removed, ?added, ?audit, ?rehearsed, ?rehearsal⟩
  case delivered =>
    obtain ⟨files, label, serial, image, place, contents, target, asked, installed, partition⟩ :=
      installed_of_perform wet performed apart
    exact ⟨files, label, serial, r, image, place, contents, target, asked, rfl, installed, partition⟩
  case removed =>
    intro others adds
    rw [← run_of_adds_verify adds accepted]
    exact ends
  case added =>
    rintro others adds ⟨j, more⟩
    rw [run_of_adds_verify adds more]
    exact ends
  case audit => exact fun off => ⟨_, Switch.parse_cons (w := .verify) accepted off⟩
  case rehearsed =>
    rintro others adds ⟨j, more⟩
    obtain ⟨path, rehearsed⟩ := rehearsed_of_perform wet performed
    rw [← dryRun_of_adds adds accepted more] at rehearsed
    obtain ⟨body, written, printed, later⟩ := report_rehearsed path
    exact ⟨_, body, run_eq more rehearsed, rfl, written, printed, later⟩
  case rehearsal => exact ⟨_, Switch.parse_cons (w := .dryRun) accepted wet⟩

/-! ## A tree with a manifest -/

def listing : String :=
  "\x7b\"files\":[\x7b\"name\":\"A\",\"ext\":\"BIN\",\"path\":\"a.bin\"\x7d]," ++
    "\"label\":\"DISK\",\"serial\":7\x7d"

def program : SourceFile := ⟨"A", "BIN", Bytes.ofList [1, 2, 3]⟩

def listedTree : FileTree :=
  (((FileTree.fresh ["work"]).addFile ["boot.bin"] (Bytes.zeros 512)).addFile ["a.bin"]
    program.contents).addFile ["m.json"] listing.toUTF8

def loaderPath : Path := ⟨"boot.bin"⟩

theorem listedTree_loader :
    listedTree.file loaderPath = .ok (["work", "boot.bin"], Bytes.zeros 512) := rfl

theorem ofJson_listing : Manifest.ofJson listing =
    .ok { files := [⟨"A", "BIN", ⟨"a.bin"⟩⟩], label := some "DISK", serial := some 7 } := by
  decide +kernel

def command (image : String) : List String := ["boot.bin", image, "-m", "m.json", "--serial=CAFE"]

def listed (image : String) : Invocation where
  bootLoader := loaderPath
  image := ⟨image⟩
  manifest := some ⟨"m.json"⟩
  serial := some 0xcafe

theorem listed_asked (image : String) :
    Asked listedTree (listed image) [program] "DISK" 0xcafe := by
  have stands : Manifest.Stands listedTree ⟨"m.json"⟩ _ :=
    ⟨listing.toUTF8, listing, rfl, dif_pos listing.isValidUTF8, ofJson_listing⟩
  have place : (Manifest.directory ⟨"m.json"⟩).join ⟨"a.bin"⟩ = ⟨"a.bin"⟩ := by decide +kernel
  refine .listed rfl stands (.cons ⟨rfl, rfl, ?_⟩ .nil)
  rw [place]
  rfl

theorem listed_performs {image : String} (nameable : Nameable listedTree ⟨image⟩)
    (parent : listedTree.kind? (directoryOf ⟨image⟩) = some .directory)
    (vacant : listedTree.kind? ⟨image⟩ ≠ some .directory) : ∃ r u,
    (perform (listed image) : Running (StateM FileTree) InstallReport) listedTree = (.ok r, u) := by
  have valid : Geometry.floppy.validate = .ok () := rfl
  have admissible : Builder.Admissible Geometry.floppy [program] := by decide +kernel
  obtain ⟨built, build⟩ := Builder.build_of_admissible
    (s := { label := "DISK", serial := 0xcafe }) valid admissible
  rw [Builder.build_floppy, ← buildImage_eq] at build
  have plain : listedTree.kind? loaderPath ≠ some .directory := plain_of_file listedTree_loader
  obtain ⟨r, u, installed⟩ := (install_succeeds_iff plain nameable parent vacant).2
    ⟨⟨_, _, listedTree_loader, by rw [Bytes.size_zeros]; decide⟩, _,
      dryRun_eq_ok_iff.2 ⟨built, build, rfl⟩⟩
  exact ⟨r, u, perform_install (listed_asked image) rfl installed⟩

theorem listedTree_delivers : ∃ e u r image,
    (run (command "../fs.img") : StateM FileTree Ending) listedTree = (e, u) ∧ e.exit.code = 0 ∧
    Installed listedTree { label := "DISK", serial := 0xcafe } loaderPath ⟨"../fs.img"⟩ [program] r u
      image ["work", "boot.bin"] (Bytes.zeros 512) ["fs.img"] ∧
    (run ("--verify" :: command "../fs.img") : StateM FileTree Ending) listedTree = (e, u) ∧
    ∃ d, (run ("--dry-run" :: command "../fs.img") : StateM FileTree Ending) listedTree =
      (d, listedTree) ∧ laterLines d.exit.output = laterLines e.exit.output := by
  have accepted : parse (command "../fs.img") = .ok (listed "../fs.img") := by decide +kernel
  have nameable : Nameable listedTree ⟨"../fs.img"⟩ :=
    ⟨⟨[".."], "fs.img", rfl, by decide⟩, by decide, by decide, by decide +kernel⟩
  have target : listedTree.destination ⟨"../fs.img"⟩ = .ok ["fs.img"] := rfl
  have apart : ∀ place contents, listedTree.file loaderPath = .ok (place, contents) →
      listedTree.destination ⟨"../fs.img"⟩ ≠ .ok place := by
    intro place contents found
    cases listedTree_loader.symm.trans found
    rw [target]
    decide
  obtain ⟨r, u, performed⟩ := listed_performs nameable (by decide +kernel) (by decide +kernel)
  have ends : (run (command "../fs.img") : StateM FileTree Ending) listedTree = (.done r, u) :=
    run_eq accepted performed
  obtain ⟨⟨files, label, serial, _, image, place, contents, spot, asked, same, installed, _⟩, _,
      audited, verify, rehearsed, dryRun⟩ :=
    run_delivers listedTree (command "../fs.img") (listed "../fs.img") accepted rfl apart (.done r) u
      ends rfl
  cases same
  obtain ⟨rfl, rfl, rfl⟩ := asked.unique (listed_asked "../fs.img")
  cases listedTree_loader.symm.trans installed.found
  cases target.symm.trans installed.destination
  obtain ⟨d, _, dry, _, _, _, later⟩ := rehearsed _ ⟨[], _, by decide, rfl, rfl⟩ dryRun
  exact ⟨.done r, u, r, image, ends, rfl, installed, audited _ ⟨[], _, by decide, rfl, rfl⟩
    (verify rfl), d, dry, later.2 (by decide)⟩

/-- A path of two lines is printed in two lines, of which a dry run lacks the second. -/
theorem second_line_missing : ∃ e u d,
    parse (command "a\nb") = .ok (listed "a\nb") ∧ (listed "a\nb").dryRun = false ∧
    listedTree.file loaderPath = .ok (["work", "boot.bin"], Bytes.zeros 512) ∧
    listedTree.destination ⟨"a\nb"⟩ = .ok ["work", "a\nb"] ∧
    (run (command "a\nb") : StateM FileTree Ending) listedTree = (e, u) ∧ e.exit.code = 0 ∧
    (run ("--dry-run" :: command "a\nb") : StateM FileTree Ending) listedTree = (d, listedTree) ∧
    laterLines d.exit.output ≠ laterLines e.exit.output := by
  have accepted : parse (command "a\nb") = .ok (listed "a\nb") := by decide +kernel
  have dry := Switch.parse_cons (w := .dryRun) accepted rfl
  have nameable : Nameable listedTree ⟨"a\nb"⟩ :=
    ⟨⟨[], "a\nb", rfl, by decide⟩, by decide, by decide, by decide +kernel⟩
  obtain ⟨r, u, performed⟩ := listed_performs nameable (by decide +kernel) (by decide +kernel)
  obtain ⟨path, rehearsed⟩ := rehearsed_of_perform rfl performed
  obtain ⟨_, _, _, later⟩ := report_rehearsed path
  exact ⟨.done r, u, .done { r with path := none }, accepted, rfl, listedTree_loader, rfl,
    run_eq accepted performed, rfl, run_eq dry rehearsed, fun same => later.1 same (by decide)⟩

end BootDisk.CommandLine
