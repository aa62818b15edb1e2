import BootDisk.Json.Text

set_option autoImplicit false

namespace BootDisk.Json

namespace Reader
variable {α β : Type} {r : Reader α} {s rest : List Char} {a : α}

theorem bind_ok {f : α → Reader β} (h : r s = .ok (a, rest)) : (r >>= f) s = f a rest := by
  change (r s >>= fun p => f p.1 p.2) = _
  rw [h]
  rfl

theorem map_ok (f : α → β) (h : r s = .ok (a, rest)) : (f <$> r) s = .ok (f a, rest) := by
  change (r s >>= fun p => pure (f p.1, p.2)) = _
  rw [h]
  rfl

end Reader

namespace Text

section Character
variable {c d : Char} {n : Nat} (rest : List Char)

theorem hexValue?_digitChar : ∀ d : Fin 16, hexValue? (Nat.digitChar d) = some d.val := by decide

theorem control_ofNat : ∀ n : Fin 32, control (Char.ofNat n) =
    ['\\', 'u', '0', '0', Nat.digitChar (n / 16), Nat.digitChar (n % 16)] := by decide

theorem hexDigits_control (small : n < 32) : hexDigits
    ('0' :: '0' :: Nat.digitChar (n / 16) :: Nat.digitChar (n % 16) :: rest) = .ok (n, rest) := by
  have high : hexValue? (Nat.digitChar (n / 16)) = some (n / 16) :=
    hexValue?_digitChar ⟨n / 16, by omega⟩
  have low : hexValue? (Nat.digitChar (n % 16)) = some (n % 16) :=
    hexValue?_digitChar ⟨n % 16, by omega⟩
  have zero : hexValue? '0' = some 0 := rfl
  have whole : 4096 * 0 + 256 * 0 + 16 * (n / 16) + n % 16 = n := by omega
  rw [hexDigits, zero, high, low]
  dsimp only
  rw [whole]

theorem codePoint_control (small : n < 32) : codePoint
    ('0' :: '0' :: Nat.digitChar (n / 16) :: Nat.digitChar (n % 16) :: rest) =
      .ok (Char.ofNat n, rest) := by
  have low : isLowSurrogate n = false := by
    rw [isLowSurrogate, Bool.and_eq_false_iff]
    exact .inl (decide_eq_false (by omega))
  have high : isHighSurrogate n = false := by
    rw [isHighSurrogate, Bool.and_eq_false_iff]
    exact .inl (decide_eq_false (by omega))
  rw [codePoint, Reader.bind_ok (hexDigits_control rest small), low, high]
  rfl

theorem lookup_of_short? (h : short? c = some d) : d ≠ 'u' ∧ shortEscapes.lookup d = some c := by
  unfold short? at h
  split at h
  all_goals cases h
  all_goals decide

theorem escape_short (h : short? c = some d) : escape (d :: rest) = .ok (c, rest) := by
  obtain ⟨other, found⟩ := lookup_of_short? h
  rw [escape, found]
  exact other

theorem skipEscape_short (h : short? c = some d) : skipEscape (d :: rest) = .ok ((), rest) := by
  obtain ⟨other, found⟩ := lookup_of_short? h
  rw [skipEscape, found]
  · rfl
  · exact other

theorem writeChar_cases (c : Char) :
    (∃ letters, writeChar c = '\\' :: letters ∧ ∀ rest,
      escape (letters ++ rest) = .ok (c, rest) ∧ skipEscape (letters ++ rest) = .ok ((), rest)) ∨
    (c ≠ '"' ∧ c ≠ '\\' ∧ ¬ c.toNat < 0x20 ∧ writeChar c = [c]) := by
  rw [writeChar]
  match short : short? c with
  | some d =>
    exact .inl ⟨[d], rfl, fun rest => ⟨escape_short rest short, skipEscape_short rest short⟩⟩
  | none =>
    dsimp only
    by_cases low : c.toNat < 0x20
    · have written := control_ofNat ⟨c.toNat, low⟩
      dsimp only at written
      rw [Char.ofNat_toNat] at written
      rw [if_pos low, written]
      refine .inl ⟨_, rfl, fun rest => ⟨?_, ?_⟩⟩
      · have read := codePoint_control rest low
        rw [Char.ofNat_toNat] at read
        exact read
      · exact Reader.map_ok _ (hexDigits_control rest low)
    · rw [if_neg low]
      refine .inr ⟨?_, ?_, low, rfl⟩
      · rintro rfl
        cases short
      · rintro rfl
        cases short

theorem writeChar_ne_nil (c : Char) : writeChar c ≠ [] := by
  obtain ⟨_, whole, _⟩ | ⟨_, _, _, whole⟩ := writeChar_cases c
  all_goals
    rw [whole]
    exact List.cons_ne_nil _ _

theorem next_writeChar (c : Char) : next (writeChar c ++ rest) = .ok (some c, rest) := by
  obtain ⟨letters, whole, read⟩ | ⟨quote, back, high, whole⟩ := writeChar_cases c
  · rw [whole]
    exact Reader.map_ok some (read rest).1
  · rw [whole, List.singleton_append, next, if_neg high]
    · exact quote
    · exact back

theorem skipOver_writeChar (b : Char) (bound : List Char) (c : Char) :
    skipOver (b :: bound) (writeChar c ++ rest) = skipOver bound rest := by
  obtain ⟨letters, whole, read⟩ | ⟨quote, back, high, whole⟩ := writeChar_cases c
  · rw [whole]
    change (skipEscape (letters ++ rest) >>= fun p => skipOver bound p.2) = _
    rw [(read rest).2]
    rfl
  · rw [whole, List.singleton_append, skipOver, if_neg high]
    · exact quote
    · exact back

end Character

theorem length_lt_written (chars rest : List Char) :
    chars.length < (chars.flatMap writeChar ++ '"' :: rest).length := by
  induction chars with
  | nil => simp
  | cons c chars ih =>
    have some := List.length_pos_iff.2 (writeChar_ne_nil c)
    rw [List.flatMap_cons, List.append_assoc, List.length_append, List.length_cons]
    omega

theorem collect_written (chars : List Char) {bound : List Char} (got rest : List Char)
    (enough : chars.length < bound.length) :
    collect bound got (chars.flatMap writeChar ++ '"' :: rest) =
      .ok (String.ofList (got.reverse ++ chars), rest) := by
  induction chars generalizing bound got with
  | nil =>
    match bound, enough with
    | b :: bound, _ =>
      rw [List.append_nil]
      rfl
  | cons c chars ih =>
    match bound, enough with
    | b :: bound, enough =>
      rw [List.flatMap_cons, List.append_assoc, collect, Reader.bind_ok (next_writeChar _ c)]
      dsimp only
      rw [ih (c :: got) (Nat.lt_of_succ_lt_succ enough), List.reverse_cons, List.append_assoc,
        List.singleton_append]

theorem skipOver_written (chars : List Char) {bound : List Char} (rest : List Char)
    (enough : chars.length < bound.length) :
    skipOver bound (chars.flatMap writeChar ++ '"' :: rest) = .ok ((), rest) := by
  induction chars generalizing bound with
  | nil =>
    match bound, enough with
    | b :: bound, _ => rfl
  | cons c chars ih =>
    match bound, enough with
    | b :: bound, enough =>
      rw [List.flatMap_cons, List.append_assoc, skipOver_writeChar]
      exact ih (Nat.lt_of_succ_lt_succ enough)

theorem write_append (s : String) (rest : List Char) :
    write s ++ rest = '"' :: (s.toList.flatMap writeChar ++ '"' :: rest) := by
  rw [write, List.cons_append, List.cons_append, List.append_assoc, List.singleton_append]

/-- Any string is read back from behind its opening quote. -/
theorem read_written (s : String) (rest : List Char) :
    read (s.toList.flatMap writeChar ++ '"' :: rest) = .ok (s, rest) := by
  rw [read, collect_written _ _ _ (length_lt_written _ _), List.reverse_nil, List.nil_append,
    String.ofList_toList]

theorem skip_written (s : String) (rest : List Char) :
    skip (s.toList.flatMap writeChar ++ '"' :: rest) = .ok ((), rest) :=
  skipOver_written _ _ (length_lt_written _ _)

end Text

end BootDisk.Json
