import BootDisk.Proofs.Text.Ascii
import BootDisk.Serial
import Mathlib.Data.List.Induction

set_option autoImplicit false

namespace BootDisk.Serial

theorem digit?_digitChar : ∀ d : Fin 16, digit? (Nat.digitChar d) = some d.val := by decide

theorem digit?_foreign {c : Char} (foreign : 0x80 ≤ c.toNat) : digit? c = none := by
  have above {e : Char} := @Text.not_le_of_foreign c foreign e
  rw [digit?, if_neg fun range => above (by decide : '9'.toNat < 0x80) range.2,
    if_neg fun range => above (by decide : 'f'.toNat < 0x80) range.2,
    if_neg fun range => above (by decide : 'F'.toNat < 0x80) range.2]

theorem digit?_toLower : ∀ c : Char, digit? c.toLower = digit? c := by
  apply Text.forall_of_ascii
  · decide
  · intro c foreign
    rw [Text.toLower_foreign foreign]

theorem lower_of_digit? : ∀ c : Char, ∀ d ∈ digit? c, d < 16 ∧ c.toLower = Nat.digitChar d := by
  apply Text.forall_of_ascii
  · decide
  · intro c foreign d known
    rw [digit?_foreign foreign] at known
    cases known

structure Digits (s : List Char) : Prop where
  nonempty : s ≠ []
  all : ∀ c ∈ s, (digit? c).isSome

theorem digits_iff (s : List Char) :
    (!s.isEmpty && s.all fun c => (digit? c).isSome) = true ↔ Digits s := by
  rw [Bool.and_eq_true, Bool.not_eq_true', List.isEmpty_eq_false_iff, List.all_eq_true]
  exact ⟨fun h => ⟨h.1, h.2⟩, fun h => ⟨h.nonempty, h.all⟩⟩

instance (s : List Char) : Decidable (Digits s) := decidable_of_iff _ (digits_iff s)

theorem Digits.not_mem {s : List Char} (h : Digits s) {c : Char} (none : digit? c = none) :
    c ∉ s := by
  intro there
  have digit := h.all c there
  rw [none] at digit
  cases digit

def appended (n : Nat) (s : List Char) : Nat := s.foldl (fun n c => 16 * n + (digit? c).getD 0) n

def value (s : List Char) : Nat := appended 0 s

theorem le_appended (n : Nat) (s : List Char) : n ≤ appended n s := by
  induction s generalizing n with
  | nil => exact Nat.le_refl n
  | cons c s ih =>
    have next := ih (16 * n + (digit? c).getD 0)
    change n ≤ appended (16 * n + (digit? c).getD 0) s
    omega

theorem appended_toLower (n : Nat) (s : List Char) :
    appended n (s.map Char.toLower) = appended n s := by
  induction s generalizing n with
  | nil => rfl
  | cons c s ih =>
    change appended (16 * n + (digit? c.toLower).getD 0) (s.map Char.toLower) = _
    rw [digit?_toLower, ih]
    rfl

theorem appended_zeros (k : Nat) (s : List Char) :
    appended 0 (List.replicate k '0' ++ s) = value s := by
  induction k with
  | zero => rfl
  | succ k ih => exact ih

theorem value_concat (s : List Char) (c : Char) :
    value (s ++ [c]) = 16 * value s + (digit? c).getD 0 := by
  rw [value, appended, List.foldl_append]
  rfl

/-- Digits are refused exactly where the whole number has more than 32 bits. -/
theorem extend_eq (n : Nat) (s : List Char) (small : n < 0x100000000)
    (digits : ∀ c ∈ s, (digit? c).isSome) :
    extend n s = if appended n s < 0x100000000 then .ok (appended n s) else .error .tooLarge := by
  induction s generalizing n with
  | nil => exact (if_pos small).symm
  | cons c s ih =>
    obtain ⟨d, known⟩ := Option.isSome_iff_exists.1 (digits c List.mem_cons_self)
    have next : appended n (c :: s) = appended (16 * n + d) s := by
      change appended (16 * n + (digit? c).getD 0) s = _
      rw [known]
      rfl
    rw [extend, known, next]
    by_cases fits : 16 * n + d < 0x100000000
    · rw [← ih _ fits fun e he => digits e (List.mem_cons_of_mem c he)]
      exact if_pos fits
    · have more := le_appended (16 * n + d) s
      rw [if_neg (show ¬ appended (16 * n + d) s < 0x100000000 by omega)]
      exact if_neg fits

theorem digits_of_extend {n m : Nat} {s : List Char} (h : extend n s = .ok m) :
    ∀ c ∈ s, (digit? c).isSome := by
  induction s generalizing n with
  | nil => exact fun c none => absurd none List.not_mem_nil
  | cons c s ih =>
    rw [extend] at h
    match known : digit? c with
    | none =>
      rw [known] at h
      cases h
    | some d =>
      rw [known] at h
      dsimp only at h
      split at h
      · exact List.forall_mem_cons.2 ⟨Option.isSome_of_eq_some known, ih h⟩
      · cases h

theorem extend_eq_ok_iff {s : List Char} {n : Nat} :
    extend 0 s = .ok n ↔ (∀ c ∈ s, (digit? c).isSome) ∧ value s = n ∧ n < 0x100000000 := by
  constructor
  · intro h
    have all := digits_of_extend h
    rw [extend_eq 0 s (by decide) all] at h
    split at h
    · rename_i fits
      cases h
      exact ⟨all, rfl, fits⟩
    · cases h
  · rintro ⟨all, rfl, fits⟩
    rw [extend_eq 0 s (by decide) all]
    exact if_pos fits

/-- The digits of the number behind zeros, each letter in either case. -/
def Renders (n : Nat) (s : List Char) : Prop :=
  ∃ zeros, s.map Char.toLower = List.replicate zeros '0' ++ Nat.toDigits 16 n

theorem digits_toDigits (n : Nat) : Digits (Nat.toDigits 16 n) ∧ value (Nat.toDigits 16 n) = n := by
  induction n using Nat.strongRecOn with
  | ind n ih =>
    have last : digit? (Nat.digitChar (n % 16)) = some (n % 16) :=
      digit?_digitChar ⟨n % 16, Nat.mod_lt n (by decide)⟩
    rw [Nat.toDigits_eq_if (by decide)]
    by_cases small : n < 16
    · rw [Nat.mod_eq_of_lt small] at last
      rw [if_pos small]
      refine ⟨⟨List.cons_ne_nil _ _, ?_⟩, ?_⟩
      · exact List.forall_mem_singleton.2 (Option.isSome_of_eq_some last)
      · change 16 * 0 + (digit? (Nat.digitChar n)).getD 0 = n
        rw [last, Option.getD_some, Nat.mul_zero, Nat.zero_add]
    · obtain ⟨digits, same⟩ := ih (n / 16) (by omega)
      rw [if_neg small]
      refine ⟨⟨List.append_ne_nil_of_left_ne_nil digits.nonempty _, ?_⟩, ?_⟩
      · refine List.forall_mem_append.2 ⟨digits.all, ?_⟩
        exact List.forall_mem_singleton.2 (Option.isSome_of_eq_some last)
      · rw [value_concat, same, last, Option.getD_some]
        omega

theorem Renders.digits {n : Nat} {s : List Char} (h : Renders n s) : Digits s := by
  obtain ⟨zeros, lower⟩ := h
  have known := (digits_toDigits n).1
  refine ⟨?_, fun c hc => ?_⟩
  · rintro rfl
    exact known.nonempty (List.append_eq_nil_iff.1 lower.symm).2
  · rw [← digit?_toLower]
    have there : c.toLower ∈ s.map Char.toLower := List.mem_map_of_mem hc
    rw [lower] at there
    rcases List.mem_append.1 there with zero | digit
    · rw [List.eq_of_mem_replicate zero]
      rfl
    · exact known.all _ digit

theorem Renders.value_eq {n : Nat} {s : List Char} (h : Renders n s) : value s = n := by
  obtain ⟨zeros, lower⟩ := h
  rw [value, ← appended_toLower, lower, appended_zeros]
  exact (digits_toDigits n).2

/-- Every row of digits is a rendering of its value. The induction takes the last digit off, as the
digits of a number are made. -/
theorem Digits.renders {s : List Char} (h : Digits s) : Renders (value s) s := by
  induction s using List.reverseRecOn with
  | nil => exact absurd rfl h.nonempty
  | append_singleton s c ih =>
    obtain ⟨d, known⟩ := Option.isSome_iff_exists.1 (h.all c (List.mem_concat_self))
    obtain ⟨small, lower⟩ := lower_of_digit? c d known
    rw [Renders, List.map_append, List.map_singleton, lower, value_concat, known, Option.getD_some]
    by_cases first : s = []
    · subst first
      refine ⟨0, ?_⟩
      change [Nat.digitChar d] = Nat.toDigits 16 (16 * 0 + d)
      rw [Nat.mul_zero, Nat.zero_add, Nat.toDigits_of_lt_base small]
    · obtain ⟨zeros, front⟩ := ih ⟨first, fun e he => h.all e (List.mem_append_left _ he)⟩
      rw [front, ← Nat.toDigits_of_lt_base small]
      by_cases zero : value s = 0
      · rw [zero]
        refine ⟨zeros + 1, ?_⟩
        rw [List.replicate_succ', Nat.mul_zero, Nat.zero_add]
        rfl
      · refine ⟨zeros, ?_⟩
        have positive := Nat.pos_of_ne_zero zero
        rw [List.append_assoc, Nat.toDigits_append_toDigits (by decide) positive small]

end BootDisk.Serial
