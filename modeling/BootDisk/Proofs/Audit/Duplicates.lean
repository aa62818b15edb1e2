import BootDisk.Proofs.Directory.Names
import BootDisk.Proofs.Volume.Directory

set_option autoImplicit false

/-!
# Names that occur again

The audit compares records by the names they show, and a directory tells them apart by the bytes of
both halves. Equal bytes show equal names, so the audit reports every record that a directory would
refuse as a duplicate. It also reports records of different bytes that show one name, which needs a
record that is not plain: bytes that are no text all show as the same replacement character.
-/
namespace BootDisk.Audit

/-- Records at two different places of a list are related. -/
def Repeated (same : Record → Record → Prop) (records : List Record) : Prop :=
  ∃ (i j : Nat) (r s : Record), i < j ∧ records[i]? = some r ∧ records[j]? = some s ∧ same r s

theorem repeated_iff {same : Record → Record → Prop} {records : List Record} :
    Repeated same records ↔ ¬ records.Pairwise fun r s => ¬ same r s := by
  rw [List.pairwise_iff_getElem]
  constructor
  · rintro ⟨i, j, r, s, before, first, second, related⟩ apart
    obtain ⟨hi, rfl⟩ := List.getElem?_eq_some_iff.1 first
    obtain ⟨hj, rfl⟩ := List.getElem?_eq_some_iff.1 second
    exact apart i j hi hj before related
  · intro again
    apply Classical.byContradiction
    intro none
    refine again fun i j hi hj before related => none ?_
    exact ⟨i, j, _, _, before, List.getElem?_eq_getElem hi, List.getElem?_eq_getElem hj, related⟩

theorem Repeated.imp {same same' : Record → Record → Prop} {records : List Record}
    (h : Repeated same records)
    (le : ∀ r ∈ records, ∀ s ∈ records, same r s → same' r s) : Repeated same' records := by
  obtain ⟨i, j, r, s, before, first, second, related⟩ := h
  exact ⟨i, j, r, s, before, first, second,
    le r (List.mem_of_getElem? first) s (List.mem_of_getElem? second) related⟩

/-- Different records that show the same name. -/
def Blurred (r s : Record) : Prop := r.shortName = s.shortName ∧ r.sameName s = false

theorem repeated_shown_iff {records : List Record} :
    Repeated (fun r s => r.shortName = s.shortName) records ↔
      Repeated (fun r s => r.sameName s) records ∨ Repeated Blurred records := by
  constructor
  · rintro ⟨i, j, r, s, before, first, second, shown⟩
    cases same : r.sameName s with
    | true => exact .inl ⟨i, j, r, s, before, first, second, same⟩
    | false => exact .inr ⟨i, j, r, s, before, first, second, shown, same⟩
  · rintro (same | blurred)
    · exact same.imp fun r _ s _ h => Record.shortName_congr h
    · exact blurred.imp fun r _ s _ h => h.1

namespace Progress

/-- How often this name has been reported to occur again. -/
def reports (p : Progress) (n : String) : Nat := p.defects.toList.count (.duplicateName n)

section Reports
variable (p : Progress) {n : String} {d : Defect}

theorem reports_defect (other : d ≠ .duplicateName n) : (p.defect d).reports n = p.reports n := by
  rw [reports, defect, Array.toList_push, List.count_append, List.count_singleton,
    if_neg (by simpa using other)]
  rfl

theorem reports_defectIf (c : Prop) [Decidable c] (other : d ≠ .duplicateName n) :
    (p.defectIf c d).reports n = p.reports n := by
  unfold defectIf
  split
  · exact p.reports_defect other
  · rfl

theorem reports_name (name : String) :
    (p.name name).reports n = p.reports n + if name = n ∧ n ∈ p.names then 1 else 0 := by
  change (p.defectIf (name ∈ p.names) (.duplicateName name)).reports n = _
  by_cases same : name = n
  · subst same
    unfold defectIf
    by_cases met : name ∈ p.names
    · rw [if_pos met, if_pos ⟨rfl, met⟩, reports, defect, Array.toList_push, List.count_append,
        List.count_singleton_self]
      rfl
    · rw [if_neg met, if_neg fun h => met h.2]
      rfl
  · rw [reports_defectIf _ _ (by simpa using same), if_neg fun h => same h.1]
    rfl

theorem reports_claims (name : String) (maxCluster : Nat) (clusters : List Nat) :
    (clusters.foldl (claim name maxCluster) p).reports n = p.reports n := by
  induction clusters generalizing p with
  | nil => rfl
  | cons c rest ih =>
    rw [List.foldl_cons, ih]
    change ((p.defectIf (maxCluster < c) _).defectIf _ _).reports n = _
    rw [reports_defectIf, reports_defectIf]
    · nofun
    · nofun

end Reports

end Progress

section Steps
variable {v : Volume} {p q : Progress} {n : String}

theorem reports_checkEnd (name : String) (clusters : List Nat) :
    (checkEnd v name clusters p).reports n = p.reports n := by
  unfold checkEnd
  cases clusters.getLast? with
  | none => rfl
  | some last => exact p.reports_defectIf _ nofun

theorem chain_reports {name : String} {r : Record} {maxCluster : Nat}
    (h : chain v name r maxCluster p = .ok q) : q.reports n = p.reports n := by
  obtain ⟨needed, _, run⟩ := Outcome.bind_eq_ok_iff.1 h
  cases run
  rw [Progress.reports_claims]
  change (checkEnd v name _ (p.defectIf _ _)).reports n = _
  exact (reports_checkEnd name _).trans (p.reports_defectIf _ nofun)

theorem record_reports {r : Record} (h : record v p r = .ok q) :
    q.reports n = (p.name r.shortName).reports n := by
  unfold record at h
  dsimp only at h
  by_cases empty : r.size = 0
  · rw [if_pos empty] at h
    cases h
    split <;> rfl
  · rw [if_neg empty] at h
    obtain ⟨maxCluster, _, h⟩ := Outcome.bind_eq_ok_iff.1 h
    split at h
    · cases h
      exact (p.name r.shortName).reports_defect nofun
    · exact chain_reports h

/-- A name is reported for each record that shows it, but for the first one. -/
theorem records_reports (bounds : v.geometry.Bounds) {records : List Record}
    (h : records.foldlM (record v) p = .ok q) : q.reports n =
      p.reports n + ((records.map Record.shortName).count n - if n ∈ p.names then 0 else 1) := by
  -- The names met so far are those of the records already audited.
  induction records generalizing p with
  | nil =>
    cases h
    rw [List.map_nil, List.count_nil, Nat.zero_sub]
    rfl
  | cons r rest ih =>
    obtain ⟨next, step, tail⟩ := Outcome.bind_eq_ok_iff.1 h
    obtain ⟨_, same, learned⟩ := record_eq_ok bounds p r
    cases same.symm.trans step
    have known := learned.names n
    rw [ih tail, record_reports step, Progress.reports_name, List.map_cons, List.count_cons]
    by_cases shown : r.shortName = n
    · have met : n ∈ next.names := known.2 (.inl shown.symm)
      by_cases old : n ∈ p.names
      · simp [shown, met, old]
        omega
      · simp [shown, met, old]
    · have new : n ∈ next.names ↔ n ∈ p.names := by
        rw [known]
        exact or_iff_right fun e => shown e.symm
      simp [shown, new]

end Steps

section Elsewhere
variable {v : Volume} (n : String)

theorem duplicateName_not_mem_bootSector {defects : List Defect} {warnings : List Warning}
    (h : bootSector v = .ok (defects, warnings)) : .duplicateName n ∉ defects := by
  obtain ⟨b₀, b₁, b₂, s₀, s₁, type, rfl⟩ := defects_of_bootSector h
  simp only [List.mem_append, not_or]
  refine ⟨⟨⟨?_, ?_⟩, ?_⟩, ?_⟩ <;> split <;> simp

theorem duplicateName_not_mem_differingCopies {first : ByteArray} {left copy : Nat}
    {defects : List Defect} (h : differingCopies v first left copy = .ok defects) :
    .duplicateName n ∉ defects := by
  induction left generalizing copy defects with
  | zero =>
    cases h
    exact List.not_mem_nil
  | succ left ih =>
    obtain ⟨bytes, _, h⟩ := Outcome.bind_eq_ok_iff.1 h
    obtain ⟨rest, tail, h⟩ := Outcome.bind_eq_ok_iff.1 h
    have later := ih tail
    cases h
    split
    · exact later
    · simpa using later

theorem duplicateName_not_mem_tables {defects : List Defect} (h : tables v = .ok defects) :
    .duplicateName n ∉ defects := by
  obtain ⟨first, copies, media, b₀, b₁, b₂, examined, rfl⟩ := defects_of_tables h
  rw [List.mem_append, not_or]
  refine ⟨duplicateName_not_mem_differingCopies n examined.copies, ?_⟩
  split <;> simp

end Elsewhere

/-- All names an audit reports to occur again come from its pass over the records. -/
theorem count_of_ofVolume {v : Volume} (bounds : v.geometry.Bounds) {a : Audit}
    (h : ofVolume v = .ok a) : ∃ records, v.records = .ok records ∧
      ∀ n, a.defects.count (.duplicateName n) = (records.map Record.shortName).count n - 1 := by
  obtain ⟨⟨bootDefects, bootWarnings⟩, boot, h⟩ := Outcome.bind_eq_ok_iff.1 h
  obtain ⟨tableDefects, table, h⟩ := Outcome.bind_eq_ok_iff.1 h
  obtain ⟨records, listed, h⟩ := Outcome.bind_eq_ok_iff.1 h
  obtain ⟨p, run, h⟩ := Outcome.bind_eq_ok_iff.1 h
  cases h
  refine ⟨records, listed, fun n => ?_⟩
  have front := List.count_eq_zero.2 (duplicateName_not_mem_bootSector n boot)
  have middle := List.count_eq_zero.2 (duplicateName_not_mem_tables n table)
  have last := records_reports bounds (n := n) run
  rw [if_neg Std.HashSet.not_mem_empty] at last
  change p.defects.toList.count (.duplicateName n) = 0 + _ at last
  rw [List.count_append, List.count_append, front, middle, last]
  omega

/-- What an audit tells about names, against the records it has read. -/
structure Reported (records : List Record) (a : Audit) : Prop where
  count : ∀ n, a.defects.count (.duplicateName n) = (records.map Record.shortName).count n - 1
  reported_iff : (∃ n, .duplicateName n ∈ a.defects) ↔
    Repeated (fun r s => r.sameName s) records ∨ Repeated Blurred records
  plain_iff : (∀ r ∈ records, r.Plain) → ((∃ n, .duplicateName n ∈ a.defects) ↔
    Repeated (fun r s => r.sameName s) records)

theorem not_nodup_shown_iff {records : List Record} :
    ¬ (records.map Record.shortName).Nodup ↔
      Repeated (fun r s => r.sameName s) records ∨ Repeated Blurred records := by
  rw [List.Nodup, List.pairwise_map, ← repeated_shown_iff, repeated_iff]

theorem not_blurred_of_plain {r s : Record} (hr : r.Plain) (hs : s.Plain) : ¬ Blurred r s := by
  rintro ⟨shown, different⟩
  rw [hr.sameName_of_shortName hs shown] at different
  cases different

theorem reported_of_count {records : List Record} {a : Audit}
    (count : ∀ n, a.defects.count (.duplicateName n) =
      (records.map Record.shortName).count n - 1) : Reported records a := by
  have shown : (∃ n, .duplicateName n ∈ a.defects) ↔
      Repeated (fun r s => r.sameName s) records ∨ Repeated Blurred records := by
    rw [← not_nodup_shown_iff, List.nodup_iff_count]
    simp only [← List.count_pos_iff, count, Classical.not_forall, Nat.not_le]
    exact exists_congr fun n => Nat.sub_pos_iff_lt
  refine ⟨count, shown, fun plain => shown.trans (or_iff_left ?_)⟩
  rintro ⟨i, j, r, s, before, first, second, blurred⟩
  exact not_blurred_of_plain (plain r (List.mem_of_getElem? first))
    (plain s (List.mem_of_getElem? second)) blurred

theorem count_of_mount {image : ByteArray} {v : Volume} (h : Volume.mount image = .ok v) :
    ∃ records a, v.records = .ok records ∧ ofImage image = .ok a ∧
      ∀ n, a.defects.count (.duplicateName n) = (records.map Record.shortName).count n - 1 := by
  obtain ⟨rfl, valid, sector, data⟩ := mounted_of_mount h
  have bounds := Geometry.bounds_of_validate valid
  obtain ⟨a, ends⟩ := ofVolume_ends bounds sector data
  obtain ⟨records, listed, count⟩ := count_of_ofVolume bounds ends
  exact ⟨records, a, listed, by rw [ofImage, Outcome.bind_ok h, ends], count⟩

def compact : Geometry := { Volume.lone with rootEntries := 16 }

def emptyFile (byte : UInt8) : Record := { Record.letter byte 0 with size := 0 }

def compactImage (names : List UInt8) : ByteArray :=
  Volume.fourSectors compact [0xf8, 0xff, 0xff] (names.map emptyFile)

theorem compact_mounts (names : List UInt8) (few : names.length ≤ 16)
    (used : ∀ b ∈ names, b ≠ 0) : ∃ v, Volume.mount (compactImage names) = .ok v ∧
      v.records = .ok (names.map emptyFile) := by
  obtain ⟨v, run, _, listed⟩ := Volume.fourSectors_mounts (g := compact)
    ⟨rfl, rfl, rfl, rfl, rfl, rfl⟩ [0xf8, 0xff, 0xff] (by decide) (names.map emptyFile)
    (by rwa [List.length_map])
    (by
      intro r hr
      obtain ⟨b, hb, rfl⟩ := List.mem_map.1 hr
      exact used b hb)
  exact ⟨v, run, listed⟩

/-- A name that several records show is reported for each of them but the first. No records of equal
names are missed, and where all records are plain, no others are reported. -/
theorem duplicates_reported {image : ByteArray} {v : Volume} (h : Volume.mount image = .ok v) :
    ∃ records a, v.records = .ok records ∧ ofImage image = .ok a ∧ Reported records a := by
  obtain ⟨records, a, listed, ends, count⟩ := count_of_mount h
  exact ⟨records, a, listed, ends, reported_of_count count⟩

theorem twice_reported : ∃ v a, Volume.mount (compactImage [0x41, 0x42, 0x41]) = .ok v ∧
    ofImage (compactImage [0x41, 0x42, 0x41]) = .ok a ∧
    Reported ([0x41, 0x42, 0x41].map emptyFile) a ∧
    a.defects.count (.duplicateName "A") = 1 ∧ a.defects.count (.duplicateName "B") = 0 := by
  obtain ⟨v, run, listed⟩ := compact_mounts [0x41, 0x42, 0x41] (by decide) (by simp)
  obtain ⟨records, a, read, ends, reported⟩ := duplicates_reported run
  cases read.symm.trans listed
  refine ⟨v, a, run, ends, reported, ?_, ?_⟩
  · rw [reported.count]
    decide
  · rw [reported.count]
    decide

/-- Two names outside of ASCII are stored under different bytes and shown as one. -/
theorem codePage_reported : ∃ v a, Volume.mount (compactImage [0x80, 0x81]) = .ok v ∧
    v.records = .ok ([0x80, 0x81].map emptyFile) ∧
    ofImage (compactImage [0x80, 0x81]) = .ok a ∧ .duplicateName "\ufffd" ∈ a.defects ∧
    ¬ Repeated (fun r s => r.sameName s) ([0x80, 0x81].map emptyFile) := by
  obtain ⟨v, run, listed⟩ := compact_mounts [0x80, 0x81] (by decide) (by simp)
  obtain ⟨records, a, read, ends, count⟩ := count_of_mount run
  cases read.symm.trans listed
  refine ⟨v, a, run, listed, ends, ?_, ?_⟩
  · rw [← List.count_pos_iff, count]
    decide
  · rw [repeated_iff, Classical.not_not]
    decide

end BootDisk.Audit
