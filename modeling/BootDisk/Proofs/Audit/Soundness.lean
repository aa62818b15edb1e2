import BootDisk.Proofs.Audit.Completion
import BootDisk.Proofs.Builder.Audited

set_option autoImplicit false

/-!
# An image without defects can be read

Nothing is assumed of the bytes of the image: the boot sector may be hostile, chains may loop or
cross, and sizes take any value of 32 bits. When the audit finds no defect, every record is read in
full from clusters of its own.
-/
namespace BootDisk.Audit

theorem mount_eq_ok {image : ByteArray} {v : Volume} (h : Volume.mount image = .ok v) :
    v.image = image ∧ v.geometry.validate = .ok () :=
  ⟨(mounted_of_mount h).whole, (mounted_of_mount h).valid⟩

/-- The chain of a record that is not empty holds the file and nothing else. -/
structure SoundChain (v : Volume) (r : Record) : Prop where
  distinct : (v.table.chain r.firstCluster.toNat).Nodup
  inside : ∀ c ∈ v.table.chain r.firstCluster.toNat,
    Geometry.firstCluster ≤ c ∧ c ≤ v.geometry.maxCluster
  length : (v.table.chain r.firstCluster.toNat).length =
    (r.size.toNat + v.geometry.clusterSize - 1) / v.geometry.clusterSize
  ended : ∃ last, (v.table.chain r.firstCluster.toNat).getLast? = some last ∧
    AllocationTable.isEndMark (v.table.entry last) = true

/-- What the reader finds in a volume with these records. -/
structure Sound (v : Volume) (records : List Record) : Prop where
  listed : v.records = .ok records
  contents : ∀ r ∈ records, ∃ contents, v.contents r = .ok contents ∧
    contents.size = r.size.toNat
  chains : ∀ r ∈ records, r.size ≠ 0 → SoundChain v r
  apart : records.Pairwise fun r t => r.size ≠ 0 → t.size ≠ 0 →
    ∀ c ∈ v.table.chain r.firstCluster.toNat, c ∉ v.table.chain t.firstCluster.toNat
  names : (records.map Record.shortName).Nodup
  copies : ∃ first, ∀ copy, copy < v.geometry.tableCount.toNat → v.tableCopy copy = .ok first
  size : v.image.size = v.geometry.imageSize

theorem contents_empty (v : Volume) {r : Record} (empty : r.size = 0) :
    v.contents r = .ok ByteArray.empty := by
  rw [Volume.contents]
  dsimp only
  rw [empty, if_neg (by rw [UInt32.toNat_zero]; omega)]
  exact Chain.read_empty _ _ _

section Clear
variable {v : Volume} (bounds : v.geometry.Bounds)
include bounds

theorem Proper.sound {r : Record} (h : Proper v r) (nonempty : r.size ≠ 0) : SoundChain v r := by
  have positive := bounds.clusterSize_pos
  have small : r.size.toNat ≤ r.size.toNat * v.geometry.clusterSize :=
    Nat.le_mul_of_pos_right _ positive
  have length : (v.table.chain r.firstCluster.toNat).length =
      clustersExact r.size.toNat v.geometry.clusterSize :=
    h.length.trans (clustersNeeded_of_le positive small r.size.toNat_lt)
  have held : v.table.chain r.firstCluster.toNat ≠ [] := by
    rw [← List.length_pos_iff, length]
    exact clustersExact_pos positive (UInt32.lt_iff_toNat_lt.1 (UInt32.pos_iff_ne_zero.2 nonempty))
  exact {
    distinct := h.distinct
    inside := fun c hc => ⟨(AllocationTable.mem_chain hc).1, h.upper c hc⟩
    length := length
    ended := ⟨_, List.getLast?_eq_some_getLast held,
      h.ended _ (List.getLast?_eq_some_getLast held)⟩ }

theorem SoundChain.contents {r : Record} (h : SoundChain v r)
    (size : v.image.size = v.geometry.imageSize) :
    ∃ contents, v.contents r = .ok contents ∧ contents.size = r.size.toNat := by
  have inside : ∀ c ∈ v.table.chain r.firstCluster.toNat,
      Chain.Inside v.image v.geometry c := by
    intro c hc
    exact Chain.inside_of_le bounds (h.inside c hc).1 (h.inside c hc).2 size
  have enough : r.size.toNat ≤
      (v.table.chain r.firstCluster.toNat).length * v.geometry.clusterSize := by
    rw [h.length]
    exact size_le_clustersExact bounds.clusterSize_pos
  obtain ⟨contents, read, _, length⟩ := Chain.read_eq_ok bounds inside
    (Nat.lt_trans r.size.toNat_lt (by decide)) enough
  refine ⟨contents, ?_, length⟩
  rw [Volume.contents]
  dsimp only
  rw [if_neg (by omega)]
  exact read

theorem Clear.sound {records : List Record} (h : Clear v records) : Sound v records where
  listed := h.listed
  contents := by
    intro r hr
    by_cases empty : r.size = 0
    · exact ⟨_, contents_empty v empty, by rw [empty]; rfl⟩
    · exact ((h.orderly.proper r hr empty).sound bounds empty).contents bounds h.size.symm
  chains := fun r hr nonempty => (h.orderly.proper r hr nonempty).sound bounds nonempty
  apart := by
    refine h.orderly.apart.imp ?_
    intro r t apart first second
    rw [owned_nonempty v first, owned_nonempty v second] at apart
    exact apart
  names := h.orderly.names
  copies := h.copies
  size := h.size.symm

end Clear

/-- Whatever the bytes, an image that passes the audit can be read. -/
theorem sound_of_ofImage {image : ByteArray} {a : Audit} (h : ofImage image = .ok a)
    (valid : a.isValid = true) :
    ∃ v records, Volume.mount image = .ok v ∧ v.image = image ∧ Sound v records := by
  obtain ⟨v, mounted, run⟩ := Outcome.bind_eq_ok_iff.1 h
  obtain ⟨whole, layout⟩ := mount_eq_ok mounted
  have bounds := Geometry.bounds_of_validate layout
  obtain ⟨records, clear⟩ := clear_of_ofVolume bounds run valid
  exact ⟨v, records, mounted, whole, clear.sound bounds⟩

theorem floppy_sound : ∃ first b image a v records,
    Builder.start Geometry.floppy {} = .ok first ∧
    Builder.addAll [Builder.letter] first = (.ok (), b) ∧ b.finish = .ok image ∧
    ofImage image.bytes = .ok a ∧ a.isValid = true ∧ Volume.mount image.bytes = .ok v ∧
    Sound v records ∧ records.length = 1 := by
  have valid : Geometry.floppy.validate = .ok () := rfl
  have bounds := Geometry.bounds_of_validate valid
  have reserved : 1 ≤ Geometry.floppy.reservedSectors.toNat := by decide
  obtain ⟨first, t, b, run, added, _, holds⟩ := Builder.floppy_takes_letter
  obtain ⟨image, finished, _, bytes⟩ := Builder.finish_eq_ok bounds holds reserved
  obtain ⟨a, audited, defects, _⟩ := Builder.audit_finished bounds holds reserved bytes valid
  have clear : a.isValid = true := by rw [isValid, defects]; rfl
  obtain ⟨v, records, mounted, _, sound⟩ := sound_of_ofImage audited clear
  have one : records.length = 1 := by
    cases (Builder.mount_finished bounds holds reserved bytes valid).symm.trans mounted
    cases (Builder.records_finished bounds holds reserved bytes).symm.trans sound.listed
    rfl
  exact ⟨first, b, image, a, v, records, run, added, finished, audited, clear, mounted, sound, one⟩

end BootDisk.Audit
