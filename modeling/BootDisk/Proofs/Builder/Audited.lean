import BootDisk.Proofs.Audit.Regions
import BootDisk.Proofs.Builder.Reading

set_option autoImplicit false

namespace BootDisk.Builder

theorem audit_bootSector {v : Volume} (s : Settings)
    (sector : v.bootSector = BootSector.encode (.ofSettings s) v.geometry)
    (size : v.geometry.imageSize = v.image.size) : Audit.bootSector v = .ok ([], []) := by
  have fields := BootSector.fields_isPrefix_encode (.ofSettings s) v.geometry
  obtain ⟨b₀, b₁, b₂⟩ := BootSector.byte_jump (.ofSettings s) v.geometry
  obtain ⟨s₀, s₁⟩ := BootSector.byte_signature (.ofSettings s) v.geometry
  have extended := BootSector.byte_of_piece fields 15 rfl
  have type := BootSector.slice_systemType (.ofSettings s) v.geometry
  rw [Audit.bootSector, sector]
  dsimp only
  rw [Outcome.bind_ok b₀, Outcome.bind_ok b₁, Outcome.bind_ok b₂, Outcome.bind_ok s₀,
    Outcome.bind_ok s₁]
  change BootSector.byte _ (BootSector.pieceOffset 15) >>= _ = _
  rw [Outcome.bind_ok extended, Outcome.bind_ok (Outcome.orFault_some type), Bytes.toList_ofList,
    if_pos rfl, if_pos size]
  rfl

section Audited
variable {g : Geometry} {s : Settings} {slots : List Slot} {b : Builder} (bounds : g.Bounds)
  (h : Holds g s slots b)
include bounds h

theorem proper_finished (image : ByteArray) {t : Slot} (ht : t ∈ slots) :
    Audit.Proper ⟨image, g, b.table⟩ t.record := by
  have slot := h.plan.slot_bounds ht
  have within := h.plan.within
  have first := h.plan.toNat_firstCluster bounds ht
  have chain : b.table.chain t.record.firstCluster.toNat = List.range' t.start (t.count g) :=
    chain_record bounds h ht
  have mem : ∀ c ∈ List.range' t.start (t.count g), t.start ≤ c ∧ c < t.start + t.count g :=
    fun c hc => List.mem_range'_1.1 hc
  constructor
  · change _ ≤ _ ∧ _ ≤ g.maxCluster
    omega
  · dsimp only
    rw [chain, List.length_range', h.plan.toNat_size bounds ht]
    rfl
  · dsimp only
    rw [chain]
    intro c hc
    rw [List.getLast?_range', if_neg (by omega), Option.some_inj] at hc
    rw [h.table.runs t ht c (by omega) (by omega), AllocationTable.linkedEntry, if_pos (by omega)]
    rfl
  · dsimp only
    rw [chain]
    exact List.nodup_range'
  · dsimp only
    rw [chain]
    intro c hc
    have := mem c hc
    omega

theorem record_nonempty {t : Slot} (ht : t ∈ slots) : t.record.size ≠ 0 := by
  intro empty
  have size := h.plan.toNat_size bounds ht
  have nonempty := (h.plan.fits t ht).nonempty
  rw [empty, UInt32.toNat_zero] at size
  omega

omit bounds in
theorem runs_apart : slots.Pairwise fun t u =>
    ∀ c ∈ (t.extent g).clusters, c ∉ (u.extent g).clusters := by
  have once : ((slots.map (Slot.extent g)).flatMap Extent.clusters).Nodup := by
    rw [h.plan.tile.clusters]
    exact List.nodup_range'
  rw [List.flatMap_map, List.Nodup, List.pairwise_flatMap] at once
  refine once.2.imp ?_
  intro t u apart c hc other
  exact apart c hc c other rfl

theorem orderly_finished (image : ByteArray) :
    Audit.Orderly ⟨image, g, b.table⟩ (slots.map Slot.record) where
  proper := by
    intro r hr _
    obtain ⟨t, ht, rfl⟩ := List.mem_map.1 hr
    exact proper_finished bounds h image ht
  names := by
    rw [List.Nodup, List.pairwise_map, List.pairwise_map]
    refine h.plan.distinct.imp_of_mem ?_
    intro t u ht hu different same
    have named : ∀ w ∈ slots, w.record.Named := fun w hw =>
      Record.Named.of_make (Record.make_with (h.plan.fits w hw).made _ _)
    rw [(named t ht).sameName_of_shortName (named u hu) same] at different
    cases different
  apart := by
    rw [List.pairwise_map]
    refine (runs_apart h).imp_of_mem ?_
    intro t u ht hu apart
    rw [Audit.owned_nonempty _ (record_nonempty bounds h ht),
      Audit.owned_nonempty _ (record_nonempty bounds h hu)]
    dsimp only
    rw [chain_record bounds h ht, chain_record bounds h hu]
    exact apart

variable (reserved : 1 ≤ g.reservedSectors.toNat) {image : ByteArray}
  (bytes : Bytes.toList image = finishedBytes g s slots b)
include reserved bytes

theorem audit_tables : Audit.tables ⟨image, g, b.table⟩ = .ok [] := by
  have room : 3 ≤ g.tableSize := Nat.le_trans (by decide) bounds.sector_le_tableSize
  obtain ⟨b₀, b₁, b₂⟩ := h.table.reserved_bytes room
  have copy : ∀ k, k < g.tableCount.toNat →
      (⟨image, g, b.table⟩ : Volume).tableCopy k = .ok b.table.bytes := fun k inside =>
    Outcome.orFault_some (tableCopy_finished bounds h reserved bytes inside)
  have others := (Audit.differingCopies_eq_nil_iff ⟨image, g, b.table⟩ b.table.bytes
    (g.tableCount.toNat - 1) 1).2 fun k lower upper => copy k (by omega)
  have media : BootSector.byte (image.extract 0 Geometry.bootSectorSize)
      (BootSector.pieceOffset 8) = .ok 0xf8 := by
    rw [bootSector_finished bytes]
    exact BootSector.byte_of_piece (BootSector.fields_isPrefix_encode _ _) 8 rfl
  rw [Audit.tables, Outcome.bind_ok (copy 0 bounds.tables), Outcome.bind_ok others]
  change BootSector.byte (image.extract 0 Geometry.bootSectorSize)
    (BootSector.pieceOffset 8) >>= _ = _
  rw [Outcome.bind_ok media, Outcome.bind_ok (Outcome.orFault_some b₀),
    Outcome.bind_ok (Outcome.orFault_some b₁), Outcome.bind_ok (Outcome.orFault_some b₂)]
  rfl

theorem audit_finished (valid : g.validate = .ok ()) :
    ∃ a, Audit.ofImage image = .ok a ∧ a.defects = [] ∧ a.warnings = [] := by
  have sector := audit_bootSector (v := ⟨image, g, b.table⟩) s (bootSector_finished bytes)
    (size_finished bounds h reserved bytes).symm
  have tables := audit_tables bounds h reserved bytes
  have listed := records_finished bounds h reserved bytes
  obtain ⟨p, run, clean, quiet⟩ := Audit.records_from_empty (v := ⟨image, g, b.table⟩) bounds
    (slots.map Slot.record)
  have noDefect := clean.2 (orderly_finished bounds h image)
  have noWarning := quiet.2 (by
    intro r hr empty
    obtain ⟨t, ht, rfl⟩ := List.mem_map.1 hr
    exact absurd empty (record_nonempty bounds h ht))
  rw [Audit.ofImage, Outcome.bind_ok (mount_finished bounds h reserved bytes valid),
    Audit.ofVolume, Outcome.bind_ok sector]
  dsimp only
  rw [Outcome.bind_ok tables, Outcome.bind_ok listed, Outcome.bind_ok run]
  refine ⟨_, rfl, ?_, ?_⟩
  · rw [noDefect]
    rfl
  · rw [noWarning]
    rfl

end Audited

/-- The audit accepts whatever a builder can produce, after any run of attempts to add files. -/
theorem addEach_audited (g : Geometry) (s : Settings) (valid : g.validate = .ok ())
    (reserved : 1 ≤ g.reservedSectors.toNat) :
    ∃ first, start g s = .ok first ∧ ∀ files : List SourceFile,
      (∀ f ∈ files, f.size < 0x100000000 * g.clusterSize) →
        ∃ image a, (addEach files first).2.finish = .ok image ∧
          Audit.ofImage image.bytes = .ok a ∧ a.isValid = true ∧ a.defects = [] ∧
          a.warnings = [] := by
  have bounds := Geometry.bounds_of_validate valid
  obtain ⟨first, run, fresh⟩ := start_holds s valid
  refine ⟨first, run, fun files short => ?_⟩
  obtain ⟨slots, _, h⟩ := addEach_holds bounds files short fresh
  obtain ⟨image, finished, _, bytes⟩ := finish_eq_ok bounds h reserved
  obtain ⟨a, audited, defects, warnings⟩ := audit_finished bounds h reserved bytes valid
  exact ⟨image, a, finished, audited, by rw [Audit.isValid, defects]; rfl, defects, warnings⟩

theorem floppy_audited : ∃ first image a, start Geometry.floppy {} = .ok first ∧
    (addEach [letter, letter] first).2.finish = .ok image ∧
    Audit.ofImage image.bytes = .ok a ∧ a.isValid = true ∧ a.defects = [] ∧ a.warnings = [] := by
  obtain ⟨first, run, audited⟩ := addEach_audited Geometry.floppy {} rfl (by decide)
  obtain ⟨image, a, finished⟩ := audited [letter, letter] (by decide)
  exact ⟨first, image, a, run, finished⟩

end BootDisk.Builder
