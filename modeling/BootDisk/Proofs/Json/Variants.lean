import BootDisk.Proofs.Json.Records

set_option autoImplicit false

namespace BootDisk.Json.Shape

/-- What can be done to the members of an object without a change of what is read: they can change
their places, one with an unknown key can be added, and one can be left out if its value is the one
that a missing field has. -/
inductive Variant (known : List String) (defaults canonical : List Member) : List Member → Prop
  | written : Variant known defaults canonical canonical
  | permuted {ms ns : List Member} : Variant known defaults canonical ms → ms.Perm ns →
      Variant known defaults canonical ns
  | extended {ms : List Member} (key : String) (text : List Char) : key ∉ known → Written text →
      Variant known defaults canonical ms → Variant known defaults canonical ((key, text) :: ms)
  | shortened {ms : List Member} (m : Member) : m ∈ defaults →
      Variant known defaults canonical (m :: ms) → Variant known defaults canonical ms

section Variant
variable {known : List String} {defaults canonical members : List Member}

/-- A variant is made of members that are kept and members with other keys. -/
structure Parts (known : List String) (defaults canonical members kept added : List Member) :
    Prop where
  perm : members.Perm (kept ++ added)
  sublist : kept.Sublist canonical
  complete : ∀ m ∈ canonical, m ∈ kept ∨ m ∈ defaults
  added : ∀ m ∈ added, m.1 ∉ known ∧ Written m.2

theorem Parts.shortened {m : Member} {kept added : List Member}
    (h : Parts known defaults canonical (m :: members) kept added) (default : m ∈ defaults) :
    ∃ kept added, Parts known defaults canonical members kept added := by
  have perm : members.Perm ((kept ++ added).erase m) := by
    have erased := h.perm.erase m
    rwa [List.erase_cons_head] at erased
  -- what is left out now was kept until now, or it was added before
  by_cases here : m ∈ kept
  · rw [List.erase_append_left _ here] at perm
    refine ⟨kept.erase m, added, perm, List.erase_sublist.trans h.sublist, fun n hn => ?_, h.added⟩
    rcases h.complete n hn with stays | unused
    · by_cases same : n = m
      · exact .inr (same ▸ default)
      · exact .inl ((List.mem_erase_of_ne same).2 stays)
    · exact .inr unused
  · rw [List.erase_append_right _ here] at perm
    exact ⟨kept, added.erase m, perm, h.sublist, h.complete,
      fun n hn => h.added n (List.mem_of_mem_erase hn)⟩

theorem Variant.parts (h : Variant known defaults canonical members) :
    ∃ kept added, Parts known defaults canonical members kept added := by
  induction h with
  | written =>
    exact ⟨canonical, [], by rw [List.append_nil], .refl _, fun _ hm => .inl hm, by simp⟩
  | permuted _ perm ih =>
    obtain ⟨kept, added, parts⟩ := ih
    exact ⟨kept, added, perm.symm.trans parts.perm, parts.sublist, parts.complete, parts.added⟩
  | extended key text other written _ ih =>
    obtain ⟨kept, added, parts⟩ := ih
    refine ⟨kept, (key, text) :: added, (parts.perm.cons _).trans List.perm_middle.symm,
      parts.sublist, parts.complete, ?_⟩
    intro m hm
    rcases List.mem_cons.1 hm with rfl | hm
    · exact ⟨other, written⟩
    · exact parts.added m hm
  | shortened m default _ ih =>
    obtain ⟨kept, added, parts⟩ := ih
    exact parts.shortened default

variable {σ α : Type} {fields : List (Field σ)} {draft : List String → σ} {finish : σ → Option α}
  {a : α}

/-- Every variant of the object of a record is read as the record. -/
theorem takes_variant (sets : ∀ m ∈ canonical, Sets fields draft m)
    (distinct : (canonical.map Prod.fst).Nodup)
    (finished : ∀ keys, (∀ m ∈ canonical, m.1 ∈ keys ∨ m ∈ defaults) →
      finish (draft keys) = some a)
    (variant : Variant (fields.map Field.name) defaults canonical members) :
    Takes (record fields (draft []) finish) (Printer.object members) a := by
  obtain ⟨kept, added, parts⟩ := variant.parts
  have stays : ∀ m ∈ kept, Sets fields draft m := fun m hm => sets m (parts.sublist.subset hm)
  -- the keys that count are those of the members that are kept
  have keys : (knownKeys fields members).Perm (knownKeys fields kept) := by
    have whole := (parts.perm.map Prod.fst).filter fun key => key ∈ fields.map Field.name
    rw [List.map_append, List.filter_append] at whole
    have none := knownKeys_none fun m hm => (parts.added m hm).1
    rw [knownKeys] at none
    rw [none, List.append_nil] at whole
    exact whole
  refine takes_record (fun m hm => ?_) ?_ fun met perm => finished met fun m hm => ?_
  · rcases List.mem_append.1 (parts.perm.mem_iff.1 hm) with old | new
    · exact .inl (stays m old)
    · obtain ⟨other, written⟩ := parts.added m new
      refine .inr ⟨?_, written⟩
      by_contra some
      exact other (find?_ne_none_iff.1 some)
  · have less : (kept.map Prod.fst).Nodup := distinct.sublist (parts.sublist.map Prod.fst)
    exact keys.nodup_iff.2 (List.Pairwise.filter _ less)
  · refine (parts.complete m hm).imp_left fun old => ?_
    obtain ⟨f, found, _⟩ := stays m old
    refine (perm.trans keys).mem_iff.2 (List.mem_filter.2 ⟨List.mem_map_of_mem old, ?_⟩)
    exact decide_eq_true (find?_ne_none_iff.1 (by rw [found]; simp))

end Variant

end BootDisk.Json.Shape
