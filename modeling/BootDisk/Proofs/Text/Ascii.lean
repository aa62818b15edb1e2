set_option autoImplicit false

namespace BootDisk.Text

theorem forall_of_ascii {P : Char → Prop} (ascii : ∀ n : Fin 0x80, P (Char.ofNat n))
    (foreign : ∀ c : Char, 0x80 ≤ c.toNat → P c) (c : Char) : P c := by
  by_cases small : c.toNat < 0x80
  · have known := ascii ⟨c.toNat, small⟩
    rwa [Char.ofNat_toNat] at known
  · exact foreign c (Nat.le_of_not_lt small)

section Foreign
variable {c : Char} (foreign : 0x80 ≤ c.toNat)
include foreign

theorem not_le_of_foreign {e : Char} (ascii : e.toNat < 0x80) : ¬ c ≤ e := by
  rw [Char.le_def, UInt32.le_iff_toNat_le]
  exact Nat.not_le_of_lt (Nat.lt_of_lt_of_le ascii foreign)

theorem toLower_foreign : c.toLower = c :=
  dif_neg fun range => not_le_of_foreign foreign (by decide : 'Z'.toNat < 0x80) range.2

theorem toUpper_foreign : c.toUpper = c :=
  dif_neg fun range => not_le_of_foreign foreign (by decide : 'z'.toNat < 0x80) range.2

end Foreign

end BootDisk.Text
