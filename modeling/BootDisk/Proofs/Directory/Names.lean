import BootDisk.Proofs.Directory.Records
import BootDisk.Proofs.Step
import BootDisk.Text.Uppercase

set_option autoImplicit false

/-!
# Short names

Both halves of the name of a record that was made are name bytes padded with spaces. Name bytes are
printable ASCII without blanks and dots, so that the text shown for such a record determines both
halves.
-/
namespace BootDisk.Record

theorem nameBytes_bounds {b : UInt8} (h : b ∈ nameBytes) :
    b.toNat < 0x80 ∧ 0x20 < b.toNat ∧ b.toNat ≠ 0x2e := by
  have all : (nameBytes.all fun b =>
      decide (b.toNat < 0x80 ∧ 0x20 < b.toNat ∧ b.toNat ≠ 0x2e)) = true := rfl
  exact of_decide_eq_true (List.all_eq_true.1 all b h)

/-- The bytes of a half before they are padded. -/
def upperPrefix (n : Nat) (part : String) : List UInt8 :=
  (part.toUTF8.data.toList.take n).map upperByte

/-- One half of a name as it is stored: name bytes, then spaces. -/
def IsHalf (stored : List UInt8) : Prop :=
  ∃ front pad, stored = front ++ List.replicate pad space ∧ ∀ b ∈ front, b ∈ nameBytes

theorem toList_padded {n : Nat} {bytes : List UInt8} (h : bytes.length ≤ n) :
    (Vector.ofFn fun i : Fin n => bytes[i.val]?.getD space).toList =
      bytes ++ List.replicate (n - bytes.length) space := by
  apply List.ext_getElem
  · simp
    omega
  · intro i left right
    simp only [Vector.getElem_toList, Vector.getElem_ofFn, List.getElem_append]
    split
    · rename_i inside
      rw [List.getElem?_eq_getElem inside, Option.getD_some]
    · rename_i outside
      rw [List.getElem?_eq_none (by omega), Option.getD_none, List.getElem_replicate]

theorem field_eq_ok {n : Nat} {part : String} {v : Vector UInt8 n} (h : field n part = .ok v) :
    (∀ b ∈ upperPrefix n part, b ∈ nameBytes) ∧
      v.toList = upperPrefix n part ++
        List.replicate (n - (upperPrefix n part).length) space := by
  have short : (upperPrefix n part).length ≤ n := by
    rw [upperPrefix, List.length_map, List.length_take]
    omega
  change (if (upperPrefix n part).all isNameByte then
    (pure (Vector.ofFn fun i => (upperPrefix n part)[i.val]?.getD space) : Outcome (Vector UInt8 n))
    else fail (.invalidName part)) = .ok v at h
  split at h
  · rename_i all
    cases h
    refine ⟨?_, toList_padded short⟩
    simpa [isNameByte] using all
  · cases h

theorem field_of_bytes {n : Nat} {part : String} (h : ∀ b ∈ upperPrefix n part, b ∈ nameBytes) :
    ∃ v : Vector UInt8 n, field n part = .ok v := by
  have all : (upperPrefix n part).all isNameByte = true := by simpa [isNameByte] using h
  exact ⟨_, if_pos all⟩

theorem field_eq_error {n : Nat} {part : String} (h : ∃ b ∈ upperPrefix n part, b ∉ nameBytes) :
    field n part = .error (.error (.invalidName part)) := by
  have some : ¬ (upperPrefix n part).all isNameByte = true := by simpa [isNameByte] using h
  exact if_neg some

theorem firstByte_eq_space_iff {part : String} {v : Vector UInt8 8} (h : field 8 part = .ok v) :
    firstByte v = space ↔ upperPrefix 8 part = [] := by
  obtain ⟨bytes, stored⟩ := field_eq_ok h
  have head : v.toList[0]? = some (firstByte v) := by
    rw [Vector.getElem?_toList, Vector.getElem?_eq_getElem (Nat.zero_lt_succ 7)]
    rfl
  rw [stored] at head
  cases front : upperPrefix 8 part with
  | nil =>
    rw [front] at head
    simpa [eq_comm] using head
  | cons b rest =>
    rw [front] at head bytes
    have first : b = firstByte v := by simpa using head
    have member := bytes b (by simp)
    constructor
    · intro blank
      rw [first, blank] at member
      exact absurd (nameBytes_bounds member).2.1 (by decide)
    · simp

theorem isHalf_of_field {n : Nat} {part : String} {v : Vector UInt8 n}
    (h : field n part = .ok v) : IsHalf v.toList :=
  ⟨_, _, (field_eq_ok h).2, (field_eq_ok h).1⟩

structure Named (r : Record) : Prop where
  name : IsHalf r.name.toList
  ext : IsHalf r.ext.toList
  used : firstByte r.name ≠ space

theorem make_eq (name ext : String) (cluster : UInt16) (size : UInt32) :
    make name ext cluster size = field 8 name >>= fun n =>
      if firstByte n = space then fail (.invalidName name)
      else field 3 ext >>= fun e => pure ⟨n, e, archive, cluster, size⟩ := rfl

theorem make_eq_ok {name ext : String} {cluster : UInt16} {size : UInt32} {r : Record}
    (h : make name ext cluster size = .ok r) :
    field 8 name = .ok r.name ∧ firstByte r.name ≠ space ∧ field 3 ext = .ok r.ext ∧
      r = ⟨r.name, r.ext, archive, cluster, size⟩ := by
  rw [make_eq] at h
  obtain ⟨n, hn, h⟩ := Outcome.bind_eq_ok_iff.1 h
  by_cases first : firstByte n = space
  · rw [if_pos first] at h
    cases h
  · rw [if_neg first] at h
    obtain ⟨e, he, h⟩ := Outcome.bind_eq_ok_iff.1 h
    cases h
    exact ⟨hn, first, he, rfl⟩

theorem make_of_fields {name ext : String} {n : Vector UInt8 8} {e : Vector UInt8 3}
    (hn : field 8 name = .ok n) (first : firstByte n ≠ space) (he : field 3 ext = .ok e)
    (cluster : UInt16) (size : UInt32) :
    make name ext cluster size = .ok ⟨n, e, archive, cluster, size⟩ := by
  rw [make_eq, Outcome.bind_ok hn, if_neg first]
  exact Outcome.bind_ok he

/-- Cluster and size have no part in whether a record can be made. -/
theorem make_with {name ext : String} {r : Record} (h : make name ext 0 0 = .ok r)
    (cluster : UInt16) (size : UInt32) :
    make name ext cluster size = .ok { r with firstCluster := cluster, size } := by
  obtain ⟨hn, first, he, shape⟩ := make_eq_ok h
  rw [make_of_fields hn first he, shape]

/-- Up to its width each half consists of name bytes, and the first is not empty. -/
structure Storable (name ext : String) : Prop where
  nonempty : upperPrefix 8 name ≠ []
  name : ∀ b ∈ upperPrefix 8 name, b ∈ nameBytes
  ext : ∀ b ∈ upperPrefix 3 ext, b ∈ nameBytes

/-- The half that cannot be stored: of two, the one that is looked at first. -/
def defect? (name ext : String) : Option String :=
  if upperPrefix 8 name = [] ∨ ∃ b ∈ upperPrefix 8 name, b ∉ nameBytes then some name
  else if ∃ b ∈ upperPrefix 3 ext, b ∉ nameBytes then some ext
  else none

theorem defect?_eq_none_iff {name ext : String} :
    defect? name ext = none ↔ Storable name ext := by
  unfold defect?
  constructor
  · intro none
    by_cases first : upperPrefix 8 name = [] ∨ ∃ b ∈ upperPrefix 8 name, b ∉ nameBytes
    · rw [if_pos first] at none
      cases none
    · by_cases second : ∃ b ∈ upperPrefix 3 ext, b ∉ nameBytes
      · rw [if_neg first, if_pos second] at none
        cases none
      · exact ⟨fun empty => first (.inl empty), by simpa using fun other => first (.inr other),
          by simpa using second⟩
  · rintro ⟨nonempty, nameBytes, extBytes⟩
    rw [if_neg (by simpa [nonempty] using nameBytes), if_neg (by simpa using extBytes)]

theorem make_of_defect {name ext part : String} (h : defect? name ext = some part)
    (cluster : UInt16) (size : UInt32) :
    make name ext cluster size = .error (.error (.invalidName part)) := by
  unfold defect? at h
  by_cases bytes : ∀ b ∈ upperPrefix 8 name, b ∈ nameBytes
  · obtain ⟨n, stored⟩ := field_of_bytes bytes
    rw [make_eq, Outcome.bind_ok stored]
    by_cases empty : upperPrefix 8 name = []
    · rw [if_pos (.inl empty)] at h
      cases h
      rw [if_pos ((firstByte_eq_space_iff stored).2 empty)]
      rfl
    · rw [if_neg (by simpa [empty] using bytes)] at h
      rw [if_neg (mt (firstByte_eq_space_iff stored).1 empty)]
      split at h
      · rename_i other
        cases h
        rw [field_eq_error other]
        rfl
      · cases h
  · have other : ∃ b ∈ upperPrefix 8 name, b ∉ nameBytes := by simpa using bytes
    rw [if_pos (.inr other)] at h
    cases h
    rw [make_eq, field_eq_error other]
    rfl

theorem make_of_sound {name ext : String} (h : defect? name ext = none) (cluster : UInt16)
    (size : UInt32) : ∃ r, make name ext cluster size = .ok r := by
  obtain ⟨nonempty, nameBytes, extBytes⟩ := defect?_eq_none_iff.1 h
  obtain ⟨n, hn⟩ := field_of_bytes nameBytes
  obtain ⟨e, he⟩ := field_of_bytes extBytes
  exact ⟨_, make_of_fields hn (mt (firstByte_eq_space_iff hn).1 nonempty) he cluster size⟩

theorem defect?_of_make {name ext : String} {cluster : UInt16} {size : UInt32} {r : Record}
    (h : make name ext cluster size = .ok r) : defect? name ext = none := by
  cases defect : defect? name ext with
  | none => rfl
  | some part =>
    rw [make_of_defect defect] at h
    cases h

theorem Named.of_make {name ext : String} {cluster : UInt16} {size : UInt32} {r : Record}
    (h : make name ext cluster size = .ok r) : r.Named := by
  obtain ⟨hn, first, he, _⟩ := make_eq_ok h
  exact ⟨isHalf_of_field hn, isHalf_of_field he, first⟩

theorem Named.head_ne_zero {r : Record} (h : r.Named) : firstByte r.name ≠ 0 := by
  obtain ⟨front, pad, stored, bytes⟩ := h.name
  have member : firstByte r.name ∈ front ++ List.replicate pad space := by
    rw [← stored, Vector.mem_toList_iff]
    exact Vector.getElem_mem (Nat.zero_lt_succ 7)
  rcases List.mem_append.1 member with inFront | inPad
  · intro zero
    have bounds := nameBytes_bounds (bytes _ inFront)
    rw [zero] at bounds
    simp at bounds
  · exact absurd (List.eq_of_mem_replicate inPad) h.used

def charOf (b : UInt8) : Char := Char.ofNat b.toNat

theorem toNat_charOf {b : UInt8} (h : b.toNat < 0x80) : (charOf b).toNat = b.toNat := by
  have valid : b.toNat.isValidChar := Or.inl (by omega)
  rw [charOf, Char.ofNat, dif_pos valid]
  rfl

theorem charOf_inj {b c : UInt8} (hb : b.toNat < 0x80) (hc : c.toNat < 0x80)
    (h : charOf b = charOf c) : b = c := by
  apply UInt8.toNat_inj.1
  rw [← toNat_charOf hb, h, toNat_charOf hc]

theorem not_blank_charOf {b : UInt8} (h : b ∈ nameBytes) :
    Text.CharClass.blank.contains (charOf b) = false := by
  obtain ⟨upper, lower, _⟩ := nameBytes_bounds h
  rw [Text.CharClass.contains, toNat_charOf upper]
  simp [Text.CharClass.blank]
  omega

theorem charOf_ne_dot {b : UInt8} (h : b ∈ nameBytes) : charOf b ≠ '.' := by
  intro e
  have bounds := nameBytes_bounds h
  have code := congrArg Char.toNat e
  rw [toNat_charOf bounds.1] at code
  exact bounds.2.2 code

theorem halfText_trimmed {front : List UInt8} (pad : Nat) (ascii : ∀ b ∈ front, b.toNat < 0x80)
    (last : ∀ b, front.getLast? = some b → Text.CharClass.blank.contains (charOf b) = false) :
    halfText (front ++ List.replicate pad space) = front.map charOf := by
  have whole : ∀ b ∈ front ++ List.replicate pad space, b.toNat < 0x80 := by
    intro b hb
    rcases List.mem_append.1 hb with inFront | inPad
    · exact ascii b inFront
    · rw [List.eq_of_mem_replicate inPad]
      decide
  have padding : ∀ c ∈ List.replicate pad (charOf space),
      Text.CharClass.blank.contains c = true := by
    intro c hc
    rw [List.eq_of_mem_replicate hc]
    decide
  have kept : (front.map charOf).reverse.dropWhile Text.CharClass.blank.contains =
      (front.map charOf).reverse := by
    rw [← List.map_reverse]
    cases e : front.reverse with
    | nil => rfl
    | cons b rest =>
      have here := last b (by rw [List.getLast?_eq_head?_reverse, e]; rfl)
      exact List.dropWhile_cons_of_neg (by rw [here]; decide)
  rw [halfText, Text.Utf8.decode_ascii _ whole, Text.trimEnd, List.map_append,
    List.map_replicate, List.reverse_append, List.reverse_replicate]
  change (List.dropWhile _ (List.replicate pad (charOf space) ++
    (front.map charOf).reverse)).reverse = _
  rw [List.dropWhile_append_of_pos padding, kept, List.reverse_reverse]

theorem halfText_padded {front : List UInt8} (pad : Nat) (h : ∀ b ∈ front, b ∈ nameBytes) :
    halfText (front ++ List.replicate pad space) = front.map charOf :=
  halfText_trimmed pad (fun b hb => (nameBytes_bounds (h b hb)).1)
    fun b last => not_blank_charOf (h b (List.mem_of_getLast? last))

def suffix (ext : List Char) : List Char := if ext.isEmpty then [] else '.' :: ext

theorem shortName_eq (r : Record) : r.shortName =
    String.ofList (halfText r.name.toList ++ suffix (halfText r.ext.toList)) := by
  unfold shortName suffix
  dsimp only
  split
  · rw [List.append_nil]
  · rfl

theorem takeWhile_suffix {base : List Char} (ext : List Char) (h : '.' ∉ base) :
    (base ++ suffix ext).takeWhile (· ≠ '.') = base := by
  have inside : ∀ c ∈ base, (decide (c ≠ '.')) = true := fun c hc =>
    decide_eq_true fun dot => h (dot ▸ hc)
  rw [List.takeWhile_append_of_pos inside]
  unfold suffix
  split <;> simp

theorem append_suffix_inj {base base' ext ext' : List Char} (h : '.' ∉ base) (h' : '.' ∉ base')
    (e : base ++ suffix ext = base' ++ suffix ext') : base = base' ∧ ext = ext' := by
  have bases : base = base' := by rw [← takeWhile_suffix ext h, e, takeWhile_suffix ext' h']
  refine ⟨bases, ?_⟩
  rw [bases, List.append_cancel_left_eq] at e
  unfold suffix at e
  cases ext <;> cases ext' <;> simp_all

theorem map_charOf_inj {l m : List UInt8} (hl : ∀ b ∈ l, b.toNat < 0x80)
    (hm : ∀ b ∈ m, b.toNat < 0x80) (h : l.map charOf = m.map charOf) : l = m := by
  induction l generalizing m with
  | nil =>
    cases m with
    | nil => rfl
    | cons c m => cases h
  | cons b l ih =>
    cases m with
    | nil => cases h
    | cons c m =>
      obtain ⟨first, rest⟩ := List.cons.inj h
      rw [charOf_inj (hl b (by simp)) (hm c (by simp)) first,
        ih (fun d hd => hl d (by simp [hd])) (fun d hd => hm d (by simp [hd])) rest]

/-- A half that is shown byte by byte: ASCII with no white space but the padding at its end. -/
def IsPlain (stored : List UInt8) : Prop :=
  ∃ front pad, stored = front ++ List.replicate pad space ∧ (∀ b ∈ front, b.toNat < 0x80) ∧
    ∀ b, front.getLast? = some b → Text.CharClass.blank.contains (charOf b) = false

theorem IsHalf.plain {l : List UInt8} (h : IsHalf l) : IsPlain l := by
  obtain ⟨front, pad, stored, bytes⟩ := h
  exact ⟨front, pad, stored, fun b hb => (nameBytes_bounds (bytes b hb)).1,
    fun b last => not_blank_charOf (bytes b (List.mem_of_getLast? last))⟩

/-- Halves of one width that show the same text are the same. -/
theorem IsPlain.eq_of_halfText {l m : List UInt8} (hl : IsPlain l) (hm : IsPlain m)
    (width : l.length = m.length) (h : halfText l = halfText m) : l = m := by
  obtain ⟨front, pad, rfl, ascii, last⟩ := hl
  obtain ⟨front', pad', rfl, ascii', last'⟩ := hm
  rw [halfText_trimmed pad ascii last, halfText_trimmed pad' ascii' last'] at h
  have same := map_charOf_inj ascii ascii' h
  subst same
  rw [List.length_append, List.length_append, List.length_replicate, List.length_replicate]
    at width
  rw [show pad = pad' by omega]

theorem IsPlain.dot_not_mem {l : List UInt8} (h : IsPlain l) (dotless : 0x2e ∉ l) :
    '.' ∉ halfText l := by
  obtain ⟨front, pad, rfl, ascii, last⟩ := h
  rw [halfText_trimmed pad ascii last]
  intro member
  obtain ⟨b, hb, e⟩ := List.mem_map.1 member
  have dot : b = 0x2e := charOf_inj (ascii b hb) (by decide) e
  exact dotless (List.mem_append_left _ (dot ▸ hb))

theorem IsHalf.dotless {l : List UInt8} (h : IsHalf l) : 0x2e ∉ l := by
  obtain ⟨front, pad, rfl, bytes⟩ := h
  intro member
  rcases List.mem_append.1 member with inFront | inPad
  · exact (nameBytes_bounds (bytes _ inFront)).2.2 rfl
  · exact absurd (List.eq_of_mem_replicate inPad) (by decide)

theorem sameName_iff (r s : Record) : r.sameName s = true ↔ r.name = s.name ∧ r.ext = s.ext := by
  simp [sameName]

def shownName (name ext : String) : String :=
  String.ofList ((upperPrefix 8 name).map charOf ++ suffix ((upperPrefix 3 ext).map charOf))

section Made
variable {name ext name' ext' : String} {cluster cluster' : UInt16} {size size' : UInt32}
  {r s : Record} (hr : make name ext cluster size = .ok r)
include hr

theorem halfText_of_make : halfText r.name.toList = (upperPrefix 8 name).map charOf ∧
    halfText r.ext.toList = (upperPrefix 3 ext).map charOf := by
  obtain ⟨hn, _, he, _⟩ := make_eq_ok hr
  obtain ⟨nameBytes, nameStored⟩ := field_eq_ok hn
  obtain ⟨extBytes, extStored⟩ := field_eq_ok he
  rw [nameStored, extStored]
  exact ⟨halfText_padded _ nameBytes, halfText_padded _ extBytes⟩

theorem shortName_of_make : r.shortName = shownName name ext := by
  obtain ⟨base, tail⟩ := halfText_of_make hr
  rw [shortName_eq, base, tail, shownName]

/-- Two names clash when they are equal up to case and beyond the widths of their halves. -/
theorem sameName_iff_of_make (hs : make name' ext' cluster' size' = .ok s) :
    r.sameName s = true ↔
      upperPrefix 8 name = upperPrefix 8 name' ∧ upperPrefix 3 ext = upperPrefix 3 ext' := by
  obtain ⟨hn, _, he, _⟩ := make_eq_ok hr
  obtain ⟨hn', _, he', _⟩ := make_eq_ok hs
  rw [sameName_iff]
  constructor
  · rintro ⟨names, exts⟩
    obtain ⟨base, tail⟩ := halfText_of_make hr
    obtain ⟨base', tail'⟩ := halfText_of_make hs
    rw [← names, base] at base'
    rw [← exts, tail] at tail'
    have ascii : ∀ {l : List UInt8}, (∀ b ∈ l, b ∈ nameBytes) → ∀ b ∈ l, b.toNat < 0x80 :=
      fun bytes b hb => (nameBytes_bounds (bytes b hb)).1
    exact ⟨map_charOf_inj (ascii (field_eq_ok hn).1) (ascii (field_eq_ok hn').1) base',
      map_charOf_inj (ascii (field_eq_ok he).1) (ascii (field_eq_ok he').1) tail'⟩
  · rintro ⟨names, exts⟩
    constructor
    · apply Vector.toList_inj.1
      rw [(field_eq_ok hn).2, (field_eq_ok hn').2, names]
    · apply Vector.toList_inj.1
      rw [(field_eq_ok he).2, (field_eq_ok he').2, exts]

end Made

/-- A record whose text shows both halves of its name. -/
structure Plain (r : Record) : Prop where
  name : IsPlain r.name.toList
  ext : IsPlain r.ext.toList
  dotless : 0x2e ∉ r.name.toList

theorem Named.plain {r : Record} (h : r.Named) : r.Plain :=
  ⟨h.name.plain, h.ext.plain, h.name.dotless⟩

/-- Plain records show the same name only if their name fields agree. -/
theorem Plain.sameName_of_shortName {r s : Record} (hr : r.Plain) (hs : s.Plain)
    (h : r.shortName = s.shortName) : r.sameName s = true := by
  rw [shortName_eq, shortName_eq] at h
  obtain ⟨base, ext⟩ := append_suffix_inj (hr.name.dot_not_mem hr.dotless)
    (hs.name.dot_not_mem hs.dotless) (String.ofList_injective h)
  rw [sameName_iff]
  constructor
  · apply Vector.toList_inj.1
    exact hr.name.eq_of_halfText hs.name (by simp) base
  · apply Vector.toList_inj.1
    exact hr.ext.eq_of_halfText hs.ext (by simp) ext

theorem Named.sameName_of_shortName {r s : Record} (hr : r.Named) (hs : s.Named)
    (h : r.shortName = s.shortName) : r.sameName s = true :=
  hr.plain.sameName_of_shortName hs.plain h

theorem shortName_congr {r s : Record} (h : r.sameName s = true) : r.shortName = s.shortName := by
  obtain ⟨name, ext⟩ := (sameName_iff r s).1 h
  rw [shortName_eq, shortName_eq, name, ext]

theorem toUpper_charOf {b : UInt8} (h : b ∈ nameBytes) : (charOf b).toUpper = charOf b := by
  have all : (nameBytes.all fun b => decide ((charOf b).toUpper = charOf b)) = true := by decide
  exact of_decide_eq_true (List.all_eq_true.1 all b h)

theorem IsHalf.toUpper {l : List UInt8} (h : IsHalf l) :
    (halfText l).map Char.toUpper = halfText l := by
  obtain ⟨front, pad, rfl, bytes⟩ := h
  rw [halfText_padded pad bytes, List.map_map]
  exact List.map_congr_left fun b hb => toUpper_charOf (bytes b hb)

theorem Named.asciiUpper_shortName {r : Record} (h : r.Named) :
    Text.asciiUpper r.shortName = r.shortName := by
  have suffixed : (suffix (halfText r.ext.toList)).map Char.toUpper =
      suffix (halfText r.ext.toList) := by
    rw [suffix]
    split
    · rfl
    · rw [List.map_cons, h.ext.toUpper]
      rfl
  apply String.toList_injective
  rw [Text.asciiUpper, String.toList_map, shortName_eq, String.toList_ofList, List.map_append,
    h.name.toUpper, suffixed]

end BootDisk.Record
