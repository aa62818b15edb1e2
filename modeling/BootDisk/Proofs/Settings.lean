import BootDisk.Proofs.BootSector.Offsets
import BootDisk.Proofs.Directory.Names
import BootDisk.Proofs.Text.Ascii

set_option autoImplicit false

/-!
# Volume labels

Every text becomes a label of eleven legal bytes, one for each of its first eleven characters. Legal
bytes taken as a text become themselves, so the labels that are stored are all rows of eleven legal
bytes, and storing a label that was read changes nothing.
-/
namespace BootDisk.Settings

def Legal (b : UInt8) : Prop := 0x20 ≤ b ∧ b ≤ 0x7e ∧ ¬ (0x61 ≤ b ∧ b ≤ 0x7a)

instance : DecidablePred Legal := fun _ => inferInstanceAs (Decidable (_ ∧ _))

theorem labelByte_foreign {c : Char} (foreign : 0x80 ≤ c.toNat) : labelByte c = 0x5f :=
  if_neg fun range => absurd (Nat.le_trans foreign range.2) (by decide)

theorem legal_labelByte : ∀ c : Char, Legal (labelByte c) := by
  apply Text.forall_of_ascii
  · decide
  · intro c foreign
    rw [labelByte_foreign foreign]
    decide

theorem labelByte_toUpper : ∀ c : Char, labelByte c.toUpper = labelByte c := by
  apply Text.forall_of_ascii
  · decide
  · intro c foreign
    rw [Text.toUpper_foreign foreign]

theorem labelByte_charOf {b : UInt8} (legal : Legal b) : labelByte (Record.charOf b) = b := by
  have known : ∀ n : Fin 0x80, Legal (UInt8.ofNat n) →
      labelByte (Record.charOf (UInt8.ofNat n)) = UInt8.ofNat n := by decide
  have ascii : b.toNat < 0x80 := Nat.lt_succ_of_le (Nat.le_succ_of_le legal.2.1)
  have here := known ⟨b.toNat, ascii⟩
  rw [UInt8.ofNat_toNat] at here
  exact here legal

def labelText (bytes : Vector UInt8 11) : String := String.ofList (bytes.toList.map Record.charOf)

theorem getElem_labelBytes (s : Settings) (i : Fin 11) :
    s.labelBytes[i] = (s.label.toList[i.val]?).elim 0x20 labelByte := by
  rw [Fin.getElem_fin, labelBytes, Vector.getElem_ofFn]
  cases s.label.toList[i.val]? with
  | none => rfl
  | some c => rfl

theorem legal_labelBytes (s : Settings) (i : Fin 11) : Legal s.labelBytes[i] := by
  rw [getElem_labelBytes]
  cases s.label.toList[i.val]? with
  | none => decide
  | some c => exact legal_labelByte c

theorem labelBytes_labelText {s : Settings} {bytes : Vector UInt8 11}
    (legal : ∀ i : Fin 11, Legal bytes[i]) (text : s.label = labelText bytes) :
    s.labelBytes = bytes := by
  refine Vector.ext fun i h => ?_
  have char : s.label.toList[i]? = some (Record.charOf bytes[i]) := by
    rw [text, labelText, String.toList_ofList, List.getElem?_map, Vector.getElem?_toList,
      Vector.getElem?_eq_getElem h]
    rfl
  calc
    s.labelBytes[i] = (s.label.toList[i]?).elim 0x20 labelByte := s.getElem_labelBytes ⟨i, h⟩
    _ = labelByte (Record.charOf bytes[i]) := by rw [char]; rfl
    _ = bytes[i] := labelByte_charOf (legal ⟨i, h⟩)

/-- The case of a letter is lost, and so is all behind the first eleven characters. -/
theorem labelBytes_congr {s t : Settings} (same :
      (t.label.toList.take 11).map Char.toUpper = (s.label.toList.take 11).map Char.toUpper) :
    t.labelBytes = s.labelBytes := by
  have upper (u : Settings) (i : Fin 11) : u.labelBytes[i] =
      (((u.label.toList.take 11).map Char.toUpper)[i.val]?).elim 0x20 labelByte := by
    rw [getElem_labelBytes, List.getElem?_map, List.getElem?_take_of_lt i.isLt]
    cases u.label.toList[i.val]? with
    | none => rfl
    | some c => exact (labelByte_toUpper c).symm
  refine Vector.ext fun i h => ?_
  have mine := upper s ⟨i, h⟩
  rw [← same] at mine
  exact (upper t ⟨i, h⟩).trans mine.symm

/-- A label is stored as legal bytes. Byte `i` comes from character `i` alone, whatever its case,
and is a space where the text has ended. Bytes that are legal, such as those of a label that was
stored before, are stored as they are. -/
theorem labelBytes_canonical (s : Settings) :
    (∀ i : Fin 11, Legal s.labelBytes[i]) ∧
    (∀ (t : Settings) (i : Fin 11), t.label.toList[i.val]? = s.label.toList[i.val]? →
      t.labelBytes[i] = s.labelBytes[i]) ∧
    (∀ i : Fin 11, s.label.length ≤ i.val → s.labelBytes[i] = 0x20) ∧
    (∀ t : Settings, (t.label.toList.take 11).map Char.toUpper =
      (s.label.toList.take 11).map Char.toUpper → t.labelBytes = s.labelBytes) ∧
    { s with label := labelText s.labelBytes }.labelBytes = s.labelBytes ∧
    (∀ bytes : Vector UInt8 11, (∀ i : Fin 11, Legal bytes[i]) →
      { s with label := labelText bytes }.labelBytes = bytes) ∧
    ∀ g : Geometry, Bytes.slice? (BootSector.encode (.ofSettings s) g) 0x2b 11 =
      some (Bytes.ofList s.labelBytes.toList) := by
  refine ⟨s.legal_labelBytes, fun t i same => ?_, fun i ended => ?_, fun t => labelBytes_congr,
    labelBytes_labelText s.legal_labelBytes rfl, fun bytes legal => labelBytes_labelText legal rfl,
    fun g => (BootSector.holds_encode _ g).label⟩
  · rw [getElem_labelBytes, getElem_labelBytes, same]
  · rw [getElem_labelBytes, List.getElem?_eq_none ended]
    rfl

theorem accented_canonical : ∃ long short : Settings,
    long.label = "café\tdiské 7" ∧ short.label = "CAFé\tDISKé " ∧
    (short.label.toList.take 11).map Char.toUpper =
      (long.label.toList.take 11).map Char.toUpper ∧ short.labelBytes = long.labelBytes ∧
    long.labelBytes = #v[0x43, 0x41, 0x46, 0x5f, 0x5f, 0x44, 0x49, 0x53, 0x4b, 0x5f, 0x20] ∧
    (∀ i : Fin 11, Legal long.labelBytes[i]) ∧
    Bytes.slice? (BootSector.encode (.ofSettings short) .floppy) 0x2b 11 =
      some (Bytes.ofList long.labelBytes.toList) := by
  obtain ⟨legal, _, _, congr, _⟩ := labelBytes_canonical { label := "café\tdiské 7" }
  obtain ⟨_, _, _, _, _, _, stored⟩ := labelBytes_canonical { label := "CAFé\tDISKé " }
  have same := congr { label := "CAFé\tDISKé " } (by decide)
  exact ⟨{ label := "café\tdiské 7" }, { label := "CAFé\tDISKé " }, rfl, rfl, by decide, same,
    by decide, legal, same ▸ stored .floppy⟩

end BootDisk.Settings
