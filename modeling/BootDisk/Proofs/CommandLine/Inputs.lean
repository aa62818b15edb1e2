import BootDisk.CommandLine.Run
import BootDisk.Proofs.BuildTree.Collect

set_option autoImplicit false

namespace BootDisk
open FileTree

namespace Manifest

def directory (path : Path) : Path := path.parent?.getD ⟨""⟩

structure Names (t : FileTree) (base : Path) (e : ManifestEntry) (f : SourceFile) : Prop where
  name : f.name = e.name
  ext : f.ext = e.ext
  contents : t.read (base.join e.path) = .ok f.contents

/-- The path leads to the text of this manifest. -/
def Stands (t : FileTree) (path : Path) (m : Manifest) : Prop :=
  ∃ bytes text, t.read path = .ok bytes ∧ String.fromUTF8? bytes = some text ∧ ofJson text = .ok m

theorem load_eq_ok_iff {path : Path} {t u : FileTree} {m : Manifest} :
    (load path : Step FileTree Manifest) t = (.ok m, u) ↔
      ∃ found, Stands t path found ∧ m = { found with base := directory path } ∧ u = t := by
  rw [load, Step.bind_eq_ok_iff]
  constructor
  · rintro ⟨bytes, v, answered, rest⟩
    obtain ⟨read, rfl⟩ := readInput_eq_ok_iff.1 answered
    cases decoded : String.fromUTF8? bytes with
    | none =>
      rw [decoded] at rest
      cases rest
    | some text =>
      rw [decoded] at rest
      dsimp only at rest
      cases parsed : ofJson text with
      | error p =>
        rw [parsed] at rest
        cases rest
      | ok found =>
        rw [parsed] at rest
        cases rest
        exact ⟨found, ⟨bytes, text, read, decoded, parsed⟩, rfl, rfl⟩
  · rintro ⟨found, ⟨bytes, text, read, decoded, parsed⟩, rfl, rfl⟩
    refine ⟨bytes, u, readInput_eq_ok_iff.2 ⟨read, rfl⟩, ?_⟩
    rw [decoded]
    dsimp only
    rw [parsed]
    rfl

theorem readFiles_eq_ok_iff {m : Manifest} {t u : FileTree} {files : List SourceFile} :
    (m.readFiles : Step FileTree (List SourceFile)) t = (.ok files, u) ↔
      List.Forall₂ (Names t m.base) m.files files ∧ u = t := by
  rw [readFiles, Step.mapM_eq_ok_iff fun _ => (keeps_readInput _).bind fun _ => Step.keeps_pure _]
  refine and_congr_left fun _ => ?_
  have each : ∀ e f, ((return ⟨e.name, e.ext, ← readInput (m.base.join e.path)⟩ :
      Step FileTree SourceFile) t = (.ok f, t) ↔ Names t m.base e f) := by
    intro e f
    rw [Step.bind_eq_ok_iff]
    constructor
    · rintro ⟨bytes, v, answered, made⟩
      cases made
      exact ⟨rfl, rfl, (readInput_eq_ok_iff.1 answered).1⟩
    · rintro ⟨name, ext, contents⟩
      refine ⟨f.contents, t, readInput_eq_ok_iff.2 ⟨contents, rfl⟩, ?_⟩
      rw [← name, ← ext]
      rfl
  exact ⟨fun h => h.imp fun e f => (each e f).1, fun h => h.imp fun e f => (each e f).2⟩

end Manifest

namespace CommandLine

section During
variable {α : Type} {context : Option Context} {action : Step FileTree α} {t u : FileTree}

theorem during_ok {a : α} (h : action t = (.ok a, u)) :
    (during context action : Running (StateM FileTree) α) t = (.ok a, u) := by
  change ((action t).1.mapError _, (action t).2) = _
  rw [h]
  rfl

theorem during_eq_ok {a : α}
    (h : (during context action : Running (StateM FileTree) α) t = (.ok a, u)) :
    action t = (.ok a, u) := by
  match run : action t with
  | (.ok b, v) =>
    cases h.symm.trans (during_ok run)
    rfl
  | (.error e, v) =>
    change ((action t).1.mapError _, (action t).2) = _ at h
    rw [run] at h
    cases h

end During

/-- The files, the label and the serial that an invocation asks for. -/
inductive Asked (t : FileTree) (i : Invocation) :
    List SourceFile → (label : String) → (serial : UInt32) → Prop where
  | listed {path : Path} {m : Manifest} {files : List SourceFile} (named : i.manifest = some path)
      (stands : m.Stands t path)
      (found : List.Forall₂ (Manifest.Names t (Manifest.directory path)) m.files files) :
      Asked t i files (i.label.getD (m.label.getD "VCORE"))
        (i.serial.getD (m.serial.getD 0x12345678))
  | collected {files : List SourceFile} (unnamed : i.manifest = none)
      (found : (BuildTree.collect i.root : Step FileTree (List SourceFile)) t = (.ok files, t)) :
      Asked t i files (i.label.getD "VCORE") (i.serial.getD 0x12345678)

variable {t u : FileTree} {i : Invocation} {files : List SourceFile} {s : Settings}

theorem inputs_eq_ok
    (h : (inputs i : Running (StateM FileTree) (List SourceFile × Settings)) t =
      (.ok (files, s), u)) :
    Asked t i files (i.applyTo s).label (i.applyTo s).serial ∧ s.partitionStart = 63 ∧ u = t := by
  rw [inputs] at h
  cases named : i.manifest with
  | some path =>
    rw [named] at h
    obtain ⟨_, v, loaded, next⟩ := Step.bind_eq_ok_iff.1 h
    obtain ⟨found, w, read, made⟩ := Step.bind_eq_ok_iff.1 next
    obtain ⟨m, stands, rfl, rfl⟩ := Manifest.load_eq_ok_iff.1 (during_eq_ok loaded)
    obtain ⟨each, rfl⟩ := Manifest.readFiles_eq_ok_iff.1 (during_eq_ok read)
    cases made
    exact ⟨.listed (m := m) named stands each, rfl, rfl⟩
  | none =>
    rw [named] at h
    obtain ⟨found, v, collected, made⟩ := Step.bind_eq_ok_iff.1 h
    cases (BuildTree.keeps_collect i.root).eq (during_eq_ok collected)
    cases made
    exact ⟨.collected named (during_eq_ok collected), rfl, rfl⟩

theorem inputs_ok {label : String} {serial : UInt32} (asked : Asked t i files label serial) :
    ∃ s, (inputs i : Running (StateM FileTree) (List SourceFile × Settings)) t =
      (.ok (files, s), t) ∧ (i.applyTo s).label = label ∧ (i.applyTo s).serial = serial ∧
      s.partitionStart = 63 := by
  cases asked with
  | @listed path m _ named stands found =>
    refine ⟨m.applyTo {}, ?_, rfl, rfl, rfl⟩
    have loaded : (Manifest.load path : Step FileTree Manifest) t =
        (.ok { m with base := Manifest.directory path }, t) :=
      Manifest.load_eq_ok_iff.2 ⟨m, stands, rfl, rfl⟩
    have read : ({ m with base := Manifest.directory path }.readFiles :
        Step FileTree (List SourceFile)) t = (.ok files, t) :=
      Manifest.readFiles_eq_ok_iff.2 ⟨found, rfl⟩
    rw [inputs, named]
    exact (Step.bind_ok (during_ok loaded)).trans (Step.bind_ok (during_ok read))
  | collected unnamed found =>
    refine ⟨{}, ?_, rfl, rfl, rfl⟩
    rw [inputs, unnamed]
    exact Step.bind_ok (during_ok found)

theorem Asked.unique {others : List SourceFile} {label label' : String} {serial serial' : UInt32}
    (first : Asked t i files label serial) (second : Asked t i others label' serial') :
    files = others ∧ label = label' ∧ serial = serial' := by
  obtain ⟨s, given, rfl, rfl, _⟩ := inputs_ok first
  obtain ⟨v, again, rfl, rfl, _⟩ := inputs_ok second
  cases given.symm.trans again
  exact ⟨rfl, rfl, rfl⟩

end CommandLine

end BootDisk
