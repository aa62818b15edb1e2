import BootDisk.Manifest
import BootDisk.Proofs.Json.Variants
import BootDisk.Settings.Json

set_option autoImplicit false

/-!
# The JSON forms of manifests and settings

What is written for a manifest or for settings is read back, and so is every variant of it: with the
keys in another order, with more keys, and without what has its default. A manifest is read without
the directory that it was read from, which is not part of its text.
-/
namespace BootDisk

namespace Json.Shape
variable {σ β : Type} {fields : List (Field σ)} {draft : List String → σ}

theorem sets_field {f : Field σ} {r : Reader β} {key : String} {text : List Char} {b : β}
    (update : σ → β → σ) (found : fields.find? (·.name == key) = some f)
    (reads : ∀ s, f.read s = do return update s (← r)) (takes : Takes r text b)
    (met : ∀ seen, draft (key :: seen) = update (draft seen) b) : Sets fields draft (key, text) := by
  refine ⟨f, found, fun seen => ?_⟩
  rw [reads, met]
  exact takes.bind_pure _

theorem takes_label (l : Option String) :
    Takes (optional text) (Printer.optional Printer.text l) l :=
  takes_optional (fun s => ⟨takes_text s, fun c first => by cases first; decide⟩) l

theorem takes_serial (n : Option UInt32) :
    Takes (optional word32) (Printer.optional (fun n => Printer.natural n.toNat) n) n := by
  refine takes_optional (fun n => ⟨takes_word32 n, ?_⟩) n
  obtain ⟨c, more, whole, digit⟩ := Number.natural_begins n.toNat
  rw [whole]
  rintro d ⟨⟩ rfl
  cases digit

theorem default_or_met {r : Reader β} {write : β → List Char} (takes : ∀ b, Takes r (write b) b)
    {met : Prop} [Decidable met] {b default : β} (h : met ∨ write b = write default) :
    (if met then b else default) = b := by
  by_cases here : met
  · rw [if_pos here]
  · rw [if_neg here]
    have same := h.resolve_left here
    exact (takes default).unique (same ▸ takes b)

end Json.Shape

open Json Json.Shape

namespace ManifestEntry
variable {e : ManifestEntry} {written : List Char}

def members (e : ManifestEntry) : List Member :=
  [("name", Printer.text e.name), ("ext", Printer.text e.ext), ("path", Printer.text e.path.text)]

/-- A missing extension is empty. -/
def defaults : List Member := [("ext", Printer.text "")]

def draftOf (e : ManifestEntry) (keys : List String) : Draft where
  name := if "name" ∈ keys then some e.name else none
  ext := if "ext" ∈ keys then e.ext else ""
  path := if "path" ∈ keys then some e.path.text else none

/-- The text is the object of the entry or a variant of it. -/
def Form (e : ManifestEntry) (written : List Char) : Prop :=
  ∃ ms, Variant (fields.map Field.name) defaults e.members ms ∧ written = Printer.object ms

theorem sets_members (e : ManifestEntry) : ∀ m ∈ e.members, Sets fields e.draftOf m := by
  have name : Sets fields e.draftOf ("name", Printer.text e.name) :=
    sets_field (fun d s => { d with name := some s }) rfl (fun _ => rfl) (takes_text _)
      fun seen => by simp [draftOf]
  have ext : Sets fields e.draftOf ("ext", Printer.text e.ext) :=
    sets_field (fun d s => { d with ext := s }) rfl (fun _ => rfl) (takes_text _)
      fun seen => by simp [draftOf]
  have path : Sets fields e.draftOf ("path", Printer.text e.path.text) :=
    sets_field (fun d s => { d with path := some s }) rfl (fun _ => rfl) (takes_text _)
      fun seen => by simp [draftOf]
  simpa only [members, List.forall_mem_cons, List.not_mem_nil, false_imp_iff, implies_true, and_true]
    using And.intro name (And.intro ext path)

theorem finish_draftOf {keys : List String} (h : ∀ m ∈ e.members, m.1 ∈ keys ∨ m ∈ defaults) :
    (e.draftOf keys).finish = some e := by
  simp only [members, defaults, List.mem_cons, List.not_mem_nil, or_false, forall_eq_or_imp,
    forall_eq, Prod.mk.injEq] at h
  obtain ⟨name, ext, path⟩ := h
  have nameMet : "name" ∈ keys := name.resolve_right (by simp)
  have pathMet : "path" ∈ keys := path.resolve_right (by simp)
  have extension : (e.draftOf keys).ext = e.ext :=
    default_or_met takes_text (ext.imp_right fun same => same.2)
  have named : (e.draftOf keys).name = some e.name := if_pos nameMet
  have located : (e.draftOf keys).path = some e.path.text := if_pos pathMet
  rw [Draft.finish, named, located, extension]
  rfl

theorem takes_form (h : e.Form written) : Takes reader written e := by
  obtain ⟨ms, variant, rfl⟩ := h
  exact takes_variant (sets_members e) (by simp [members]) (fun _ => finish_draftOf) variant

theorem form_json (e : ManifestEntry) : e.Form e.json := ⟨_, .written, rfl⟩

end ManifestEntry

namespace Manifest
variable {m : Manifest} {written : List Char} {entries : List (List Char)}

def members (m : Manifest) (entries : List (List Char)) : List Member :=
  [("files", Printer.list entries), ("label", Printer.optional Printer.text m.label),
    ("serial", Printer.optional (fun n => Printer.natural n.toNat) m.serial)]

def defaults : List Member :=
  [("label", Printer.optional Printer.text none),
    ("serial", Printer.optional (fun n : UInt32 => Printer.natural n.toNat) none)]

def draftOf (m : Manifest) (keys : List String) : Draft where
  files := if "files" ∈ keys then some m.files else none
  label := if "label" ∈ keys then m.label else none
  serial := if "serial" ∈ keys then m.serial else none

def Form (m : Manifest) (written : List Char) : Prop :=
  ∃ entries ms, List.Forall₂ (fun e t => e.Form t) m.files entries ∧
    Variant (fields.map Field.name) defaults (m.members entries) ms ∧ written = Printer.object ms

theorem sets_members (each : List.Forall₂ (fun e t => ManifestEntry.Form e t) m.files entries) :
    ∀ n ∈ m.members entries, Sets fields m.draftOf n := by
  have takes : List.Forall₂ (Takes ManifestEntry.reader) entries m.files :=
    (each.imp fun _ _ form => ManifestEntry.takes_form form).flip
  have files : Sets fields m.draftOf ("files", Printer.list entries) :=
    sets_field (fun d l => { d with files := some l }) rfl (fun _ => rfl) (takes_list takes)
      fun seen => by simp [draftOf]
  have label : Sets fields m.draftOf ("label", Printer.optional Printer.text m.label) :=
    sets_field (fun d l => { d with label := l }) rfl (fun _ => rfl) (takes_label _)
      fun seen => by simp [draftOf]
  have serial : Sets fields m.draftOf
      ("serial", Printer.optional (fun n => Printer.natural n.toNat) m.serial) :=
    sets_field (fun d n => { d with serial := n }) rfl (fun _ => rfl) (takes_serial _)
      fun seen => by simp [draftOf]
  simpa only [members, List.forall_mem_cons, List.not_mem_nil, false_imp_iff, implies_true, and_true]
    using And.intro files (And.intro label serial)

theorem finish_draftOf {keys : List String}
    (h : ∀ n ∈ m.members entries, n.1 ∈ keys ∨ n ∈ defaults) :
    (m.draftOf keys).finish = some { m with base := ⟨""⟩ } := by
  simp only [members, defaults, List.mem_cons, List.not_mem_nil, or_false, forall_eq_or_imp,
    forall_eq, Prod.mk.injEq] at h
  obtain ⟨files, label, serial⟩ := h
  have filesMet : "files" ∈ keys := files.resolve_right (by simp)
  have labelled : (m.draftOf keys).label = m.label :=
    default_or_met takes_label (label.imp_right fun same => by simpa using same)
  have numbered : (m.draftOf keys).serial = m.serial :=
    default_or_met takes_serial (serial.imp_right fun same => by simpa using same)
  have listed : (m.draftOf keys).files = some m.files := if_pos filesMet
  rw [Draft.finish, listed, labelled, numbered]
  rfl

theorem takes_form (h : m.Form written) : Takes reader written { m with base := ⟨""⟩ } := by
  obtain ⟨entries, ms, each, variant, rfl⟩ := h
  exact takes_variant (sets_members each) (by simp [members]) (fun _ => finish_draftOf) variant

theorem form_toJson (m : Manifest) : m.Form m.toJson.toList := by
  refine ⟨m.files.map ManifestEntry.json, _, ?_, .written, String.toList_ofList⟩
  rw [List.forall₂_map_right_iff, List.forall₂_same]
  exact fun e _ => ManifestEntry.form_json e

end Manifest

namespace Settings
variable {s : Settings} {written : List Char}

def members (s : Settings) : List Member :=
  [("volume_label", Printer.text s.label), ("volume_serial", Printer.natural s.serial.toNat),
    ("partition_start", Printer.natural s.partitionStart.toNat),
    ("verify_after_build", Printer.bool s.verify)]

def draftOf (s : Settings) (keys : List String) : Settings where
  label := if "volume_label" ∈ keys then s.label else ({} : Settings).label
  serial := if "volume_serial" ∈ keys then s.serial else ({} : Settings).serial
  partitionStart :=
    if "partition_start" ∈ keys then s.partitionStart else ({} : Settings).partitionStart
  verify := if "verify_after_build" ∈ keys then s.verify else ({} : Settings).verify

def Form (s : Settings) (written : List Char) : Prop :=
  ∃ ms, Variant (fields.map Field.name) (members {}) s.members ms ∧ written = Printer.object ms

theorem sets_members (s : Settings) : ∀ m ∈ s.members, Sets fields s.draftOf m := by
  have label : Sets fields s.draftOf ("volume_label", Printer.text s.label) :=
    sets_field (fun d l => { d with label := l }) rfl (fun _ => rfl) (takes_text _)
      fun seen => by simp [draftOf]
  have serial : Sets fields s.draftOf ("volume_serial", Printer.natural s.serial.toNat) :=
    sets_field (fun d n => { d with serial := n }) rfl (fun _ => rfl) (takes_word32 _)
      fun seen => by simp [draftOf]
  have start : Sets fields s.draftOf
      ("partition_start", Printer.natural s.partitionStart.toNat) :=
    sets_field (fun d n => { d with partitionStart := n }) rfl (fun _ => rfl) (takes_word32 _)
      fun seen => by simp [draftOf]
  have verify : Sets fields s.draftOf ("verify_after_build", Printer.bool s.verify) :=
    sets_field (fun d b => { d with verify := b }) rfl (fun _ => rfl) (takes_bool _)
      fun seen => by simp [draftOf]
  simpa only [members, List.forall_mem_cons, List.not_mem_nil, false_imp_iff, implies_true, and_true]
    using And.intro label (And.intro serial (And.intro start verify))

theorem draftOf_eq {keys : List String} (h : ∀ m ∈ s.members, m.1 ∈ keys ∨ m ∈ members {}) :
    s.draftOf keys = s := by
  simp only [members, List.mem_cons, List.not_mem_nil, or_false, forall_eq_or_imp, forall_eq,
    Prod.mk.injEq] at h
  obtain ⟨label, serial, start, verify⟩ := h
  have labelled : (s.draftOf keys).label = s.label :=
    default_or_met takes_text (label.imp_right fun same => by simpa using same)
  have numbered : (s.draftOf keys).serial = s.serial :=
    default_or_met takes_word32 (serial.imp_right fun same => by simpa using same)
  have started : (s.draftOf keys).partitionStart = s.partitionStart :=
    default_or_met takes_word32 (start.imp_right fun same => by simpa using same)
  have verified : (s.draftOf keys).verify = s.verify :=
    default_or_met takes_bool (verify.imp_right fun same => by simpa using same)
  change Settings.mk _ _ _ _ = Settings.mk s.label s.serial s.partitionStart s.verify
  rw [Settings.mk.injEq]
  exact ⟨labelled, numbered, started, verified⟩

theorem takes_form (h : s.Form written) : Takes reader written s := by
  obtain ⟨ms, variant, rfl⟩ := h
  exact takes_variant (sets_members s) (by simp [members])
    (fun _ met => congrArg some (draftOf_eq met)) variant

theorem form_toJson (s : Settings) : s.Form s.toJson.toList :=
  ⟨_, .written, String.toList_ofList⟩

end Settings

/-- Manifests and settings are read back from what is written for them, and from every variant of it. -/
theorem Json.forms_lossless :
    (∀ m : Manifest, Manifest.ofJson m.toJson = .ok { m with base := ⟨""⟩ }) ∧
    (∀ s : Settings, Settings.ofJson s.toJson = .ok s) ∧
    (∀ (m : Manifest) (written : List Char), m.Form written →
      Manifest.ofJson (String.ofList written) = .ok { m with base := ⟨""⟩ }) ∧
    ∀ (s : Settings) (written : List Char), s.Form written →
      Settings.ofJson (String.ofList written) = .ok s := by
  have manifest : ∀ (m : Manifest) (written : List Char), m.Form written →
      Manifest.ofJson (String.ofList written) = .ok { m with base := ⟨""⟩ } :=
    fun m written form => (Manifest.takes_form form).run
  have settings : ∀ (s : Settings) (written : List Char), s.Form written →
      Settings.ofJson (String.ofList written) = .ok s :=
    fun s written form => (Settings.takes_form form).run
  refine ⟨fun m => ?_, fun s => ?_, manifest, settings⟩
  · rw [← manifest m _ m.form_toJson, String.ofList_toList]
  · rw [← settings s _ s.form_toJson, String.ofList_toList]

theorem Json.shuffled_forms_read :
    Manifest.ofJson
      "\x7b\"x\":[null,\x7b\x7d],\"files\":[\x7b\"path\":\"k\",\"name\":\"K\"\x7d]\x7d" =
        .ok { files := [⟨"K", "", ⟨"k"⟩⟩] } ∧
    Settings.ofJson "\x7b\"verify_after_build\":true,\"volume_serial\":7\x7d" =
      .ok { serial := 7, verify := true } := by
  obtain ⟨_, _, manifest, settings⟩ := forms_lossless
  let entry : ManifestEntry := ⟨"K", "", ⟨"k"⟩⟩
  have reversed : entry.Form
      (Printer.object [("path", Printer.text "k"), ("name", Printer.text "K")]) :=
    ⟨_, .shortened ("ext", Printer.text "") (.head _) (.permuted .written (by decide)), rfl⟩
  have extra : Written (Printer.list ["null".toList, Printer.object []]) := by
    refine .list _ ?_
    rintro t (_ | ⟨_, _ | ⟨_, ⟨⟩⟩⟩)
    · exact .null
    · exact .object [] (by simp)
  constructor
  · have form : Manifest.Form { files := [entry] } (Printer.object [
        ("x", Printer.list ["null".toList, Printer.object []]),
        ("files", Printer.list [
          Printer.object [("path", Printer.text "k"), ("name", Printer.text "K")]])]) := by
      refine ⟨_, _, .cons reversed .nil, .extended "x" _ (by decide) extra ?_, rfl⟩
      refine .shortened ("label", "null".toList) (.head _) ?_
      exact .shortened ("serial", "null".toList) (.tail _ (.head _)) (.permuted .written (by decide))
    exact manifest _ _ form
  · have form : Settings.Form { serial := 7, verify := true } (Printer.object [
        ("verify_after_build", Printer.bool true), ("volume_serial", Printer.natural 7)]) := by
      refine ⟨_, .shortened ("volume_label", Printer.text "VCORE") (.head _) ?_, rfl⟩
      refine .shortened ("partition_start", Printer.natural 63) (.tail _ (.tail _ (.head _))) ?_
      exact .permuted .written (by decide)
    exact settings _ _ form

end BootDisk
