import BootDisk.Proofs.Builder.Frame

set_option autoImplicit false

namespace BootDisk.Builder

theorem plan_nil (g : Geometry) : Plan g [] Geometry.firstCluster where
  fits := by simp
  tile := rfl
  within := by
    rw [Geometry.maxCluster_eq]
    unfold Geometry.firstCluster
    omega
  room := Nat.zero_le _
  distinct := List.Pairwise.nil

section Blank
variable {g : Geometry} (bounds : g.Bounds) (s : Settings)
include bounds

theorem blank_image : Bytes.splice? (Bytes.zeros g.imageSize) 0
    (BootSector.encode (.ofSettings s) g) =
      some (Bytes.ofList (header g s ++ dataRegion g [] Geometry.firstCluster)) := by
  have first := bounds.bootSector_le_dataOffset
  have last := bounds.dataOffset_lt_imageSize
  have split : Bytes.toList (Bytes.zeros g.imageSize) = [] ++
      List.replicate Geometry.bootSectorSize 0 ++
      List.replicate (g.imageSize - Geometry.bootSectorSize) 0 := by
    rw [Bytes.toList_zeros, List.nil_append, List.replicate_append_replicate,
      Nat.add_sub_cancel' (by omega)]
  have splice : Bytes.splice? (Bytes.zeros g.imageSize) 0
      (BootSector.encode (.ofSettings s) g) = _ :=
    Bytes.splice?_of_toList split rfl (by
      rw [BootSector.encode_size, List.length_replicate, Geometry.bootSectorSize])
  have zeros : g.imageSize - Geometry.bootSectorSize =
      g.dataOffset - Geometry.bootSectorSize + (g.imageSize - g.dataOffset) := by omega
  rw [splice, header, dataRegion, g.clusterOffset_first, List.flatMap_nil, List.nil_append,
    List.nil_append, List.append_assoc, List.replicate_append_replicate, zeros]

theorem linked_blank : Linked g [] Geometry.firstCluster
    ⟨Bytes.ofList (AllocationTable.blankBytes 0xf8 g.tableSize)⟩ := by
  have room : 3 ≤ g.tableSize := Nat.le_trans (by decide) bounds.sector_le_tableSize
  have entries := AllocationTable.entry_blank 0xf8 g.tableSize room
  refine ⟨?_, entries 0, entries 1, by simp, ?_, ?_⟩
  · rw [Bytes.size_ofList, AllocationTable.blankBytes, List.length_append, List.length_replicate]
    change 3 + _ = _
    omega
  · intro c hc
    unfold Geometry.firstCluster at hc
    rw [entries, if_neg (by omega), if_neg (by omega)]
  · intro c hc
    have := bounds.capacity
    rw [Geometry.maxCluster_eq] at this
    rw [AllocationTable.bits_blank, if_neg (by omega), if_neg (by omega)]
    rfl

theorem blank_holds : ∃ b, blank g s = .ok b ∧ Holds g s [] b := by
  have room : 3 ≤ g.tableSize := Nat.le_trans (by decide) bounds.sector_le_tableSize
  have table := AllocationTable.blank_eq_ok (BootSector.Parameters.ofSettings s).media room
  have root : RootDirectory.blank g = .ok ⟨Bytes.zeros g.rootSize, #[], g.rootEntries⟩ := by
    rw [RootDirectory.blank, Outcome.bind_ok bounds.checked_rootSize]
    rfl
  have allocator := Allocator.ofGeometry_eq_ok bounds
  refine ⟨{
    geometry := g
    image := Bytes.ofList (header g s ++ dataRegion g [] Geometry.firstCluster)
    table := ⟨Bytes.ofList (AllocationTable.blankBytes 0xf8 g.tableSize)⟩
    root := ⟨Bytes.zeros g.rootSize, #[], g.rootEntries⟩
    allocator := ⟨Geometry.firstCluster, g.maxCluster, g.clusterSize⟩
    placed := #[] }, ?_, ?_⟩
  · rw [blank, Outcome.bind_ok (Outcome.orFault_some (blank_image bounds s)), Outcome.bind_ok table,
      Outcome.bind_ok root, Outcome.bind_ok allocator]
    rfl
  · exact {
      plan := plan_nil g
      geometry := rfl
      image := Bytes.toList_ofList _
      table := linked_blank bounds
      root := ⟨rfl, by rw [Bytes.toList_zeros, rootRegion]; simp, rfl⟩
      maxCluster := rfl
      clusterSize := rfl
      placed := rfl }

end Blank

theorem start_holds {g : Geometry} (s : Settings) (valid : g.validate = .ok ()) :
    ∃ b, start g s = .ok b ∧ Holds g s [] b := by
  obtain ⟨b, run, holds⟩ := blank_holds (Geometry.bounds_of_validate valid) s
  exact ⟨b, by rw [start, Outcome.bind_ok valid, run], holds⟩

/-- The slot takes the next clusters and a free place in the directory. -/
structure Next (g : Geometry) (slots : List Slot) (next : Nat) (t : Slot) : Prop where
  fits : t.Fits g
  start : t.start = next
  within : next + t.count g ≤ g.maxCluster + 1
  room : slots.length < g.rootEntries.toNat
  distinct : ∀ u ∈ slots, u.record.sameName t.record = false

theorem Listed.check_new {g : Geometry} {slots : List Slot} {d : RootDirectory}
    (h : Listed g slots d) (room : slots.length < g.rootEntries.toNat) {r : Record}
    (new : ∀ u ∈ slots, u.record.sameName r = false) : d.check r = .ok () := by
  apply RootDirectory.check_new
  · rw [h.length, h.capacity]
    exact room
  · rw [RootDirectory.contains_eq_false_iff, h.records]
    intro s hs
    obtain ⟨u, hu, rfl⟩ := List.mem_map.1 hs
    exact new u hu

section Grow
variable {g : Geometry} {s : Settings} {slots : List Slot} {next : Nat} {t : Slot}

theorem Plan.snoc (h : Plan g slots next) (ht : Next g slots next t) :
    Plan g (slots ++ [t]) (next + t.count g) where
  fits := by
    intro u hu
    rcases List.mem_append.1 hu with old | new
    · exact h.fits u old
    · exact List.mem_singleton.1 new ▸ ht.fits
  tile := by
    rw [List.map_append, Extent.tile_append]
    exact ⟨next, h.tile, ht.start, ht.fits.count_pos, rfl⟩
  within := ht.within
  room := by
    have := ht.room
    rw [List.length_append, List.length_singleton]
    omega
  distinct := by
    rw [List.pairwise_append]
    refine ⟨h.distinct, List.pairwise_singleton _ _, ?_⟩
    intro u hu v hv
    exact List.mem_singleton.1 hv ▸ ht.distinct u hu

variable (bounds : g.Bounds)
include bounds

theorem copy_next (h : Plan g slots next) (ht : Next g slots next t) {image : ByteArray}
    (bytes : Bytes.toList image = header g s ++ dataRegion g slots next) :
    Extent.copy g (t.extent g) t.file.contents image = (.ok (), Bytes.ofList
      (header g s ++ dataRegion g (slots ++ [t]) (next + t.count g))) := by
  have lower := h.first_le
  have grown := g.clusterOffset_add lower (t.count g)
  have inside := bounds.clusterOffset_le ht.within
  have enough := ht.fits.enough
  have front := length_header bounds s
  have written := h.flatMap_data_end
  have size : image.size = g.imageSize := by
    have length := h.length_dataRegion bounds
    have := bounds.dataOffset_lt_imageSize
    rw [← Bytes.toList_length, bytes, List.length_append]
    omega
  have split : Bytes.toList image = header g s ++ slots.flatMap (Slot.data g) ++
      List.replicate t.file.size 0 ++
      List.replicate (g.imageSize - g.clusterOffset next - t.file.size) 0 := by
    rw [bytes, dataRegion, List.append_assoc _ (List.replicate _ _),
      List.replicate_append_replicate, Nat.add_sub_cancel' (by omega), List.append_assoc]
  have zeros : g.imageSize - g.clusterOffset next - t.file.size =
      t.count g * g.clusterSize - t.file.size +
        (g.imageSize - g.clusterOffset (next + t.count g)) := by omega
  have start : (t.extent g).start = next := ht.start
  have copied : Extent.copy g (t.extent g) t.file.contents image = _ :=
    Extent.copy_eq_ok bounds (by rw [start]; exact lower)
      (by rw [size, start]; change g.clusterOffset next + t.count g * g.clusterSize ≤ _; omega)
      enough split (by rw [start, List.length_append]; omega) (by rw [List.length_replicate]; rfl)
  rw [copied, zeros, ← List.replicate_append_replicate, dataRegion, List.flatMap_append,
    List.flatMap_singleton, Slot.data]
  simp only [List.append_assoc]

theorem link_next (h : Plan g slots next) (ht : Next g slots next t) {table : AllocationTable}
    (linked : Linked g slots next table) :
    ∃ u, AllocationTable.link t.start (t.count g) table = (.ok (), u) ∧
      Linked g (slots ++ [t]) (next + t.count g) u := by
  have plan := h.snoc ht
  have lower := h.first_le
  obtain ⟨u, run, size, entries, spare⟩ := AllocationTable.link_eq_ok t.start (t.count g) table
    ht.fits.count_pos (by rw [linked.capacity, ht.start]; exact plan.next_le_capacity bounds)
    (by rw [ht.start]; exact plan.next_small bounds)
  rw [ht.start] at entries
  unfold Geometry.firstCluster at lower
  refine ⟨u, run, size.trans linked.size, ?_, ?_, ?_, ?_, ?_⟩
  · rw [entries, if_neg (by omega), linked.media]
  · rw [entries, if_neg (by omega), linked.ones]
  · intro v hv c first last
    rw [entries]
    rcases List.mem_append.1 hv with old | new
    · have := h.slot_bounds old
      rw [if_neg (by omega)]
      exact linked.runs v old c first last
    · rw [List.mem_singleton.1 new, ht.start] at first last ⊢
      rw [if_pos ⟨first, last⟩]
  · intro c hc
    rw [entries, if_neg (by omega)]
    exact linked.free c (by omega)
  · intro c hc
    rw [spare c (by rw [linked.capacity]; exact hc)]
    exact linked.spare c hc

theorem push_next (ht : Next g slots next t) {d : RootDirectory} (listed : Listed g slots d) :
    ∃ u, RootDirectory.push t.record d = (.ok (), u) ∧ Listed g (slots ++ [t]) u := by
  have checked := listed.check_new ht.room ht.distinct
  obtain ⟨u, run, filled⟩ := listed.filled.push bounds.bytesPerSector_ne_zero checked
  rw [← List.map_singleton, ← List.map_append] at filled
  exact ⟨u, run, listed_of_filled filled⟩

end Grow

section Holds
variable {g : Geometry} {s : Settings} {slots : List Slot} {b : Builder} (bounds : g.Bounds)
  (h : Holds g s slots b)
include bounds h

theorem Holds.framed : Framed g s b where
  geometry := h.geometry
  image := h.image_size bounds
  sector := by
    have split : Bytes.toList b.image = [] ++ Bytes.toList (BootSector.encode (.ofSettings s) g) ++
        (List.replicate (g.dataOffset - Geometry.bootSectorSize) 0 ++
          dataRegion g slots b.allocator.next) := by
      rw [h.image, header, List.append_assoc, List.nil_append]
    have sector : Bytes.slice? b.image 0 Geometry.bootSectorSize = _ :=
      Bytes.slice?_of_toList split rfl
        (by rw [Bytes.toList_length, BootSector.encode_size, Geometry.bootSectorSize])
    rw [sector, Bytes.ofList_toList]
  table := h.table.size
  root := by rw [← Bytes.toList_length, h.root.bytes, h.plan.length_rootRegion bounds]
  slots := h.root.capacity
  maxCluster := h.maxCluster
  clusterSize := h.clusterSize
  lower := h.plan.first_le
  upper := h.plan.within

omit bounds in
theorem Placed.next {t : Slot} {c : Builder} (placed : Placed g b t c) :
    Next g slots b.allocator.next t := by
  obtain ⟨room, new⟩ := RootDirectory.check_eq_ok_iff.1 placed.checked
  rw [h.root.length, h.root.capacity] at room
  rw [RootDirectory.contains_eq_false_iff, h.root.records] at new
  exact {
    fits := placed.fits
    start := placed.start
    within := placed.start ▸ placed.within
    room := room
    distinct := fun u hu => new u.record (List.mem_map_of_mem hu) }

theorem Placed.holds {t : Slot} {c : Builder} (placed : Placed g b t c) :
    Holds g s (slots ++ [t]) c := by
  have next := placed.next h
  have allocator := placed.allocator
  have cursor : c.allocator.next = b.allocator.next + t.count g := by
    rw [allocator]
    rfl
  obtain ⟨table, linkRun, linked⟩ := link_next bounds h.plan next h.table
  obtain ⟨root, pushRun, listed⟩ := push_next bounds next h.root
  have copyRun := copy_next (s := s) bounds h.plan next h.image
  cases (Prod.mk.inj (placed.table.symm.trans linkRun)).2
  cases (Prod.mk.inj (placed.root.symm.trans pushRun)).2
  exact {
    plan := cursor ▸ h.plan.snoc next
    geometry := placed.geometry.trans h.geometry
    image := by
      rw [(Prod.mk.inj (placed.image.symm.trans copyRun)).2, Bytes.toList_ofList, cursor]
    table := cursor ▸ linked
    root := listed
    maxCluster := by
      rw [allocator]
      exact h.maxCluster
    clusterSize := by
      rw [allocator]
      exact h.clusterSize
    placed := by
      rw [placed.placed, Array.toList_push, h.placed, List.map_append]
      rfl }

end Holds

end BootDisk.Builder
