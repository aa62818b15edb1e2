import BootDisk.Proofs.Audit.Records

set_option autoImplicit false

namespace BootDisk.Audit

theorem differingCopies_eq_nil_iff (v : Volume) (first : ByteArray) (left copy : Nat) :
    differingCopies v first left copy = .ok [] ↔
      ∀ k, copy ≤ k → k < copy + left → v.tableCopy k = .ok first := by
  induction left generalizing copy with
  | zero =>
    constructor
    · intro _ k lower upper
      omega
    · exact fun _ => rfl
  | succ left ih =>
    rw [differingCopies, Outcome.bind_eq_ok_iff]
    constructor
    · rintro ⟨bytes, here, run⟩
      obtain ⟨rest, tail, result⟩ := Outcome.bind_eq_ok_iff.1 run
      by_cases same : bytes.data = first.data
      · rw [if_pos same] at result
        cases result
        intro k lower upper
        by_cases this : k = copy
        · rw [this, here, ByteArray.ext same]
        · exact (ih (copy + 1)).1 tail k (by omega) (by omega)
      · rw [if_neg same] at result
        cases result
    · intro copies
      refine ⟨first, copies copy (by omega) (by omega), ?_⟩
      rw [Outcome.bind_ok ((ih (copy + 1)).2 fun k lower upper =>
        copies k (by omega) (by omega)), if_pos rfl]
      rfl

/-- What the audit of the tables has read: the first copy and its first bytes, and the media byte of
the boot sector. -/
structure Examined (v : Volume) (first : ByteArray) (copies : List Defect)
    (media b₀ b₁ b₂ : UInt8) : Prop where
  here : v.tableCopy 0 = .ok first
  copies : differingCopies v first (v.geometry.tableCount.toNat - 1) 1 = .ok copies
  media : BootSector.byte v.bootSector BootSector.Offset.media = .ok media
  byte₀ : Bytes.byte? first 0 = some b₀
  byte₁ : Bytes.byte? first 1 = some b₁
  byte₂ : Bytes.byte? first 2 = some b₂

theorem defects_of_tables {v : Volume} {defects : List Defect} (h : tables v = .ok defects) :
    ∃ first copies media b₀ b₁ b₂, Examined v first copies media b₀ b₁ b₂ ∧
      defects = copies ++
        if b₀ = media ∧ b₁ = 0xff ∧ b₂ = 0xff then [] else [.reservedEntries b₀ b₁ b₂ media] := by
  obtain ⟨first, here, h⟩ := Outcome.bind_eq_ok_iff.1 h
  obtain ⟨copies, others, h⟩ := Outcome.bind_eq_ok_iff.1 h
  obtain ⟨media, recorded, h⟩ := Outcome.bind_eq_ok_iff.1 h
  obtain ⟨b₀, first₀, h⟩ := Outcome.bind_eq_ok_iff.1 h
  obtain ⟨b₁, first₁, h⟩ := Outcome.bind_eq_ok_iff.1 h
  obtain ⟨b₂, first₂, h⟩ := Outcome.bind_eq_ok_iff.1 h
  exact ⟨first, copies, media, b₀, b₁, b₂, {
    here := here
    copies := others
    media := recorded
    byte₀ := Outcome.orFault_eq_ok_iff.1 first₀
    byte₁ := Outcome.orFault_eq_ok_iff.1 first₁
    byte₂ := Outcome.orFault_eq_ok_iff.1 first₂ }, (Except.ok.inj h).symm⟩

theorem tableCopy_of_tables {v : Volume} (h : tables v = .ok []) : ∃ first,
    ∀ copy, copy < v.geometry.tableCount.toNat → v.tableCopy copy = .ok first := by
  obtain ⟨first, copies, media, b₀, b₁, b₂, examined, none⟩ := defects_of_tables h
  have others := examined.copies
  rw [(List.append_eq_nil_iff.1 none.symm).1, differingCopies_eq_nil_iff] at others
  refine ⟨first, fun copy inside => ?_⟩
  by_cases zero : copy = 0
  · rw [zero, examined.here]
  · exact others copy (by omega) (by omega)

theorem reserved_of_tables {v : Volume} (h : tables v = .ok []) : ∃ first media,
    v.tableCopy 0 = .ok first ∧ BootSector.byte v.bootSector BootSector.Offset.media = .ok media ∧
    Bytes.byte? first 0 = some media ∧ Bytes.byte? first 1 = some 0xff ∧
    Bytes.byte? first 2 = some 0xff := by
  obtain ⟨first, copies, media, b₀, b₁, b₂, examined, none⟩ := defects_of_tables h
  have reserved := (List.append_eq_nil_iff.1 none.symm).2
  split at reserved
  · rename_i same
    obtain ⟨rfl, rfl, rfl⟩ := same
    exact ⟨first, b₀, examined.here, examined.media, examined.byte₀, examined.byte₁,
      examined.byte₂⟩
  · cases reserved

theorem defects_of_bootSector {v : Volume} {defects : List Defect} {warnings : List Warning}
    (h : bootSector v = .ok (defects, warnings)) : ∃ b₀ b₁ b₂ s₀ s₁ type, defects =
      (if b₀ = 0xeb ∨ b₀ = 0xe9 then [] else [Defect.jump b₀ b₁ b₂]) ++
      (if [s₀, s₁] = BootSector.signature then [] else [.signature s₀ s₁]) ++
      (if type = BootSector.systemType then [] else [.systemType type]) ++
      (if v.geometry.imageSize = v.image.size then []
        else [.imageSize v.image.size v.geometry]) := by
  unfold bootSector at h
  dsimp only at h
  obtain ⟨b₀, _, h⟩ := Outcome.bind_eq_ok_iff.1 h
  obtain ⟨b₁, _, h⟩ := Outcome.bind_eq_ok_iff.1 h
  obtain ⟨b₂, _, h⟩ := Outcome.bind_eq_ok_iff.1 h
  obtain ⟨s₀, _, h⟩ := Outcome.bind_eq_ok_iff.1 h
  obtain ⟨s₁, _, h⟩ := Outcome.bind_eq_ok_iff.1 h
  obtain ⟨extended, _, h⟩ := Outcome.bind_eq_ok_iff.1 h
  obtain ⟨type, _, h⟩ := Outcome.bind_eq_ok_iff.1 h
  exact ⟨b₀, b₁, b₂, s₀, s₁, Bytes.toList type, (Prod.mk.inj (Except.ok.inj h)).1.symm⟩

theorem imageSize_of_bootSector {v : Volume} {warnings : List Warning}
    (h : bootSector v = .ok ([], warnings)) : v.geometry.imageSize = v.image.size := by
  obtain ⟨b₀, b₁, b₂, s₀, s₁, type, none⟩ := defects_of_bootSector h
  have last := (List.append_eq_nil_iff.1 none.symm).2
  by_cases same : v.geometry.imageSize = v.image.size
  · exact same
  · rw [if_neg same] at last
    cases last

/-- A volume in which an audit finds no defect. -/
structure Clear (v : Volume) (records : List Record) : Prop where
  listed : v.records = .ok records
  orderly : Orderly v records
  copies : ∃ first, ∀ copy, copy < v.geometry.tableCount.toNat → v.tableCopy copy = .ok first
  size : v.geometry.imageSize = v.image.size

theorem parts_of_ofVolume {v : Volume} {a : Audit} (h : ofVolume v = .ok a)
    (valid : a.isValid = true) : (∃ warnings, bootSector v = .ok ([], warnings)) ∧
      tables v = .ok [] ∧ ∃ records p, v.records = .ok records ∧
        records.foldlM (record v) {} = .ok p ∧ p.defects = #[] := by
  obtain ⟨⟨bootDefects, bootWarnings⟩, boot, h⟩ := Outcome.bind_eq_ok_iff.1 h
  obtain ⟨tableDefects, table, h⟩ := Outcome.bind_eq_ok_iff.1 h
  obtain ⟨records, listed, h⟩ := Outcome.bind_eq_ok_iff.1 h
  obtain ⟨p, run, h⟩ := Outcome.bind_eq_ok_iff.1 h
  cases h
  rw [isValid, List.isEmpty_iff, List.append_eq_nil_iff, List.append_eq_nil_iff] at valid
  obtain ⟨⟨rfl, rfl⟩, noRecord⟩ := valid
  exact ⟨⟨_, boot⟩, table, records, p, listed, run, Array.toList_eq_nil_iff.1 noRecord⟩

theorem clear_of_ofVolume {v : Volume} (bounds : v.geometry.Bounds) {a : Audit}
    (h : ofVolume v = .ok a) (valid : a.isValid = true) : ∃ records, Clear v records := by
  obtain ⟨⟨_, boot⟩, table, records, p, listed, run, none⟩ := parts_of_ofVolume h valid
  obtain ⟨q, same, clean, _⟩ := records_from_empty bounds records
  cases same.symm.trans run
  exact ⟨records, {
    listed := listed
    orderly := clean.1 none
    copies := tableCopy_of_tables table
    size := imageSize_of_bootSector boot }⟩

end BootDisk.Audit
