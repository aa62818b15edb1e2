import BootDisk.Proofs.Directory.Names

set_option autoImplicit false

/-!
# Normal forms of names

A name is stored in upper case, cut to its width and padded. The text shown for it has its name
bytes and no others, in UTF-8 one byte each, with a dot between the halves. So the text is cut at
the dot into two halves that are stored as they are.
-/
namespace BootDisk.Record

def halves (shown : String) : String × String :=
  let base := shown.toList.takeWhile (· ≠ '.')
  (String.ofList base, String.ofList (shown.toList.drop (base.length + 1)))

theorem utf8_charOf {l : List UInt8} (h : ∀ b ∈ l, b.toNat < 0x80) :
    (String.ofList (l.map charOf)).toUTF8.data.toList = l := by
  rw [String.toUTF8_eq_toByteArray, String.toByteArray_ofList, List.utf8Encode,
    List.toList_data_toByteArray]
  induction l with
  | nil => rfl
  | cons b l ih =>
    have code := toNat_charOf (h b (by simp))
    have upper := h b (by simp)
    have single : (charOf b).utf8Size = 1 := by
      rw [Char.utf8Size_eq_one_iff, UInt32.le_iff_toNat_le]
      change (charOf b).toNat ≤ 127
      omega
    have byte : (charOf b).val.toUInt8 = b := by
      rw [← UInt8.toNat_inj, UInt32.toNat_toUInt8]
      change (charOf b).toNat % 256 = b.toNat
      omega
    rw [List.map_cons, List.flatMap_cons, String.utf8EncodeChar_eq_singleton single, byte,
      ih fun c hc => h c (by simp [hc])]
    rfl

theorem halves_of_shown {base ext : List Char} (h : '.' ∉ base) :
    halves (String.ofList (base ++ suffix ext)) = (String.ofList base, String.ofList ext) := by
  have rest : (base ++ suffix ext).drop (base.length + 1) = ext := by
    rw [← List.drop_drop, List.drop_left]
    cases ext <;> rfl
  rw [halves, String.toList_ofList, takeWhile_suffix ext h, rest]

theorem upperByte_of_mem {b : UInt8} (h : b ∈ nameBytes) : upperByte b = b := by
  have all : (nameBytes.all fun b => decide (upperByte b = b)) = true := by decide
  exact of_decide_eq_true (List.all_eq_true.1 all b h)

theorem upperPrefix_eq_nil_iff {n : Nat} (width : n ≠ 0) (part : String) :
    upperPrefix n part = [] ↔ part = "" := by
  rw [upperPrefix, List.map_eq_nil_iff, List.take_eq_nil_iff, or_iff_right width,
    Array.toList_eq_nil_iff, ← String.toByteArray_inj]
  constructor
  · intro none
    exact ByteArray.ext none
  · exact congrArg ByteArray.data

theorem length_upperPrefix (n : Nat) (part : String) : (upperPrefix n part).length ≤ n := by
  rw [upperPrefix, List.length_map, List.length_take]
  exact Nat.min_le_left _ _

theorem upperPrefix_charOf {n : Nat} {l : List UInt8} (short : l.length ≤ n)
    (bytes : ∀ b ∈ l, b ∈ nameBytes) : upperPrefix n (String.ofList (l.map charOf)) = l := by
  rw [upperPrefix, utf8_charOf fun b hb => (nameBytes_bounds (bytes b hb)).1,
    List.take_of_length_le short]
  exact (List.map_congr_left fun b hb => upperByte_of_mem (bytes b hb)).trans (List.map_id l)

theorem Storable.of_make {name ext : String} {cluster : UInt16} {size : UInt32} {r : Record}
    (h : make name ext cluster size = .ok r) : Storable name ext :=
  defect?_eq_none_iff.1 (defect?_of_make h)

theorem exists_make_iff (name ext : String) (cluster : UInt16) (size : UInt32) :
    (∃ r, make name ext cluster size = .ok r) ↔ Storable name ext :=
  ⟨fun ⟨_, made⟩ => Storable.of_make made,
    fun storable => make_of_sound (defect?_eq_none_iff.2 storable) cluster size⟩

theorem storable_iff (name ext : String) : Storable name ext ↔ name ≠ "" ∧
    (∀ b ∈ upperPrefix 8 name, isNameByte b = true) ∧
      ∀ b ∈ upperPrefix 3 ext, isNameByte b = true := by
  simp only [isNameByte, List.contains_iff_mem]
  have empty := upperPrefix_eq_nil_iff (by decide : 8 ≠ 0) name
  constructor
  · intro h
    exact ⟨mt empty.2 h.nonempty, h.name, h.ext⟩
  · rintro ⟨nonempty, name, ext⟩
    exact ⟨mt empty.1 nonempty, name, ext⟩

theorem shownName_eq (name ext : String) : shownName name ext = String.ofList
    ((upperPrefix 8 name ++ if ext = "" then [] else 0x2e :: upperPrefix 3 ext).map charOf) := by
  have none := upperPrefix_eq_nil_iff (by decide : 3 ≠ 0) ext
  have tail : suffix ((upperPrefix 3 ext).map charOf) =
      (if ext = "" then [] else 0x2e :: upperPrefix 3 ext).map charOf := by
    by_cases empty : ext = ""
    · rw [if_pos empty, none.2 empty]
      rfl
    · rw [if_neg empty, suffix, if_neg (by simpa using mt none.1 empty)]
      rfl
  rw [shownName, tail, List.map_append]

section Shown
variable {name ext : String} (h : Storable name ext)
include h

theorem Storable.utf8_shown : (shownName name ext).toUTF8.data.toList =
    upperPrefix 8 name ++ if ext = "" then [] else 0x2e :: upperPrefix 3 ext := by
  rw [shownName_eq]
  apply utf8_charOf
  intro b hb
  rcases List.mem_append.1 hb with inName | inSuffix
  · exact (nameBytes_bounds (h.name b inName)).1
  · split at inSuffix
    · cases inSuffix
    · rcases List.mem_cons.1 inSuffix with rfl | inExt
      · decide
      · exact (nameBytes_bounds (h.ext b inExt)).1

theorem Storable.halves_shown : halves (shownName name ext) =
    (String.ofList ((upperPrefix 8 name).map charOf),
      String.ofList ((upperPrefix 3 ext).map charOf)) := by
  refine halves_of_shown fun dot => ?_
  obtain ⟨b, hb, same⟩ := List.mem_map.1 dot
  exact charOf_ne_dot (h.name b hb) same

theorem Storable.upperPrefix_halves :
    upperPrefix 8 (halves (shownName name ext)).1 = upperPrefix 8 name ∧
      upperPrefix 3 (halves (shownName name ext)).2 = upperPrefix 3 ext := by
  rw [h.halves_shown]
  exact ⟨upperPrefix_charOf (length_upperPrefix 8 name) h.name,
    upperPrefix_charOf (length_upperPrefix 3 ext) h.ext⟩

theorem Storable.of_halves :
    Storable (halves (shownName name ext)).1 (halves (shownName name ext)).2 := by
  obtain ⟨base, tail⟩ := h.upperPrefix_halves
  exact ⟨by rw [base]; exact h.nonempty, by rw [base]; exact h.name, by rw [tail]; exact h.ext⟩

end Shown

/-- What the text shown for a record that was made says about its name. -/
structure Canonical (name ext : String) (r : Record) : Prop where
  shown : r.shortName.toUTF8.data.toList =
    upperPrefix 8 name ++ if ext = "" then [] else 0x2e :: upperPrefix 3 ext
  stable : ∀ cluster size, ∃ s,
    make (halves r.shortName).1 (halves r.shortName).2 cluster size = .ok s ∧
      s.name = r.name ∧ s.ext = r.ext
  determined : ∀ name' ext' cluster size s, make name' ext' cluster size = .ok s →
    (r.shortName = s.shortName ↔ r.name = s.name ∧ r.ext = s.ext)

/-- A record can be made for exactly the names of which the stored part has name bytes only. It
shows this part, which is made into the same name again, and records of different names show
different texts. -/
theorem make_canonical (name ext : String) (cluster : UInt16) (size : UInt32) :
    ((∃ r, make name ext cluster size = .ok r) ↔ name ≠ "" ∧
      (∀ b ∈ upperPrefix 8 name, isNameByte b = true) ∧
        ∀ b ∈ upperPrefix 3 ext, isNameByte b = true) ∧
    ∀ r, make name ext cluster size = .ok r → Canonical name ext r := by
  refine ⟨(exists_make_iff name ext cluster size).trans (storable_iff name ext), fun r made => ?_⟩
  have storable := Storable.of_make made
  have shown := shortName_of_make made
  refine ⟨by rw [shown, storable.utf8_shown], fun cluster size => ?_,
    fun name' ext' cluster size s other => ⟨fun same => ?_, fun fields => ?_⟩⟩
  · rw [shown]
    obtain ⟨s, again⟩ := (exists_make_iff _ _ cluster size).2 storable.of_halves
    exact ⟨s, again, (sameName_iff s r).1
      ((sameName_iff_of_make again made).2 storable.upperPrefix_halves)⟩
  · exact (sameName_iff r s).1
      ((Named.of_make made).sameName_of_shortName (Named.of_make other) same)
  · exact shortName_congr ((sameName_iff r s).2 fields)

theorem longName_canonical : ∃ r s, make "long_Programé" "text" 2 1 = .ok r ∧
    Canonical "long_Programé" "text" r ∧ make "LONG_PRO" "tex" 9 0 = .ok s ∧
    r.shortName = s.shortName := by
  obtain ⟨exists_iff, canonical⟩ := make_canonical "long_Programé" "text" 2 1
  obtain ⟨r, made⟩ := exists_iff.2
    ⟨by decide, List.all_eq_true.1 (by decide), List.all_eq_true.1 (by decide)⟩
  obtain ⟨s, other⟩ := (exists_make_iff "LONG_PRO" "tex" 9 0).2
    ((storable_iff _ _).2
      ⟨by decide, List.all_eq_true.1 (by decide), List.all_eq_true.1 (by decide)⟩)
  refine ⟨r, s, made, canonical r made, other, ((canonical r made).determined _ _ _ _ s other).2 ?_⟩
  rw [← sameName_iff, sameName_iff_of_make made other]
  decide

end BootDisk.Record
