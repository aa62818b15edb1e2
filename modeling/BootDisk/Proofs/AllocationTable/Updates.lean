import BootDisk.Proofs.AllocationTable.Packing

set_option autoImplicit false

/-!
# Runs of writes

The bytes of a table are one row of bits, the low bit of a byte first, and twelve bits belong to each
entry: bit `j` to entry `j / 12`. After any writes an entry holds the low twelve bits of the value
written to it last, and no bit of another entry has moved. So the values written last, and not the
order of writes to different entries, determine every byte.
-/
namespace BootDisk.AllocationTable

/-- Bit `j` of the bytes, the low bit of each byte first, and zero behind the end. -/
def bit (t : AllocationTable) (j : Nat) : Bool := (t.byteAt (j / 8)).toNat.testBit (j % 8)

theorem testBit_unpack (n k : Nat) (low high : UInt8) (inside : k < 12) :
    (unpack n low high).testBit k =
      if n % 2 = 0 then
        if k < 8 then low.toNat.testBit k else high.toNat.testBit (k - 8)
      else if k < 4 then low.toNat.testBit (k + 4) else high.toNat.testBit (k - 4) := by
  unfold unpack
  split
  · have sum : low.toNat + high.toNat % 16 * 256 = 2 ^ 8 * (high.toNat % 2 ^ 4) + low.toNat := by
      omega
    rw [sum, Nat.testBit_two_pow_mul_add _ low.toNat_lt]
    split
    · rfl
    · rw [Nat.testBit_mod_two_pow, decide_eq_true (by omega), Bool.true_and]
  · have sum : low.toNat / 16 + high.toNat * 16 = 2 ^ 4 * high.toNat + low.toNat / 2 ^ 4 := by
      omega
    rw [sum, Nat.testBit_two_pow_mul_add _ (by have := low.toNat_lt; omega)]
    split
    · rw [Nat.testBit_div_two_pow]
    · rfl

/-- The twelve bits of entry `n` stand in a row from bit `12 * n` on. -/
theorem testBit_bits (t : AllocationTable) (n k : Nat) (inside : k < 12) :
    (t.bits n).testBit k = t.bit (12 * n + k) := by
  rw [bits, testBit_unpack n k _ _ inside, bit]
  unfold position
  split
  · split
    · congr 3 <;> omega
    · congr 3 <;> omega
  · split
    · congr 3 <;> omega
    · congr 3 <;> omega

theorem bit_eq (t : AllocationTable) (j : Nat) : t.bit j = (t.bits (j / 12)).testBit (j % 12) := by
  rw [testBit_bits t _ _ (Nat.mod_lt _ (by decide)), Nat.div_add_mod]

theorem eq_of_bits {t u : AllocationTable} (size : u.bytes.size = t.bytes.size)
    (same : u.bits = t.bits) : u = t := by
  have bytes : Bytes.toList u.bytes = Bytes.toList t.bytes := by
    apply Bytes.ext_getD
    · rw [Bytes.toList_length, Bytes.toList_length, size]
    · intro i
      change u.byteAt i = t.byteAt i
      rw [byteAt_eq_packedByte, byteAt_eq_packedByte, same]
  cases u
  cases t
  exact congrArg mk (Bytes.toList_inj.1 bytes)

def setAll (writes : List (Nat × Nat)) : Step AllocationTable Unit :=
  writes.forM fun w => set w.1 w.2

def writesTo (writes : List (Nat × Nat)) (m : Nat) : List (Nat × Nat) :=
  writes.filter fun w => w.1 = m

def written? (writes : List (Nat × Nat)) (m : Nat) : Option Nat :=
  (writesTo writes m).getLast?.map Prod.snd

theorem written?_cons (w : Nat × Nat) (rest : List (Nat × Nat)) (m : Nat) :
    written? (w :: rest) m = (written? rest m).or (if m = w.1 then some w.2 else none) := by
  unfold written? writesTo
  by_cases here : w.1 = m
  · rw [List.filter_cons_of_pos (by simpa using here), List.getLast?_cons, if_pos here.symm]
    cases (rest.filter fun w => w.1 = m).getLast? <;> rfl
  · rw [List.filter_cons_of_neg (by simpa using here), if_neg (Ne.symm here), Option.or_none]

theorem written?_eq_none {writes : List (Nat × Nat)} {m : Nat} (h : ∀ w ∈ writes, w.1 ≠ m) :
    written? writes m = none := by
  have none : writesTo writes m = [] := List.filter_eq_nil_iff.2 (by simpa using h)
  rw [written?, none]
  rfl

theorem setAll_bits (writes : List (Nat × Nat)) (t : AllocationTable)
    (inside : ∀ w ∈ writes, w.1 < t.capacity) :
    ∃ u, setAll writes t = (.ok (), u) ∧ u.bytes.size = t.bytes.size ∧
      ∀ m, u.bits m = (written? writes m).elim (t.bits m) (· % 4096) := by
  induction writes generalizing t with
  | nil => exact ⟨t, rfl, rfl, fun _ => rfl⟩
  | cons w rest ih =>
    have here := inside w List.mem_cons_self
    obtain ⟨u, run, size, bits⟩ := ih (t.write w.1 w.2 here) fun v hv => by
      rw [capacity_write]
      exact inside v (List.mem_cons_of_mem _ hv)
    refine ⟨u, ?_, by rw [size, size_write], ?_⟩
    · change (set w.1 w.2 >>= fun _ => setAll rest) t = _
      rw [Step.bind_ok (set_eq_ok t w.1 w.2 here), run]
    · intro m
      rw [bits, bits_write, written?_cons]
      cases written? rest m with
      | some value => rfl
      | none =>
        rw [Option.none_or]
        split <;> rfl

structure Updated (writes : List (Nat × Nat)) (t u : AllocationTable) : Prop where
  size : u.bytes.size = t.bytes.size
  entries : ∀ m, u.entry m = (written? writes m).elim (t.entry m) (· % 4096)
  kept : ∀ j, (∀ w ∈ writes, w.1 ≠ j / 12) → u.bit j = t.bit j

theorem updated_of_bits {writes : List (Nat × Nat)} {t u : AllocationTable}
    (inside : ∀ w ∈ writes, w.1 < t.capacity) (size : u.bytes.size = t.bytes.size)
    (bits : ∀ m, u.bits m = (written? writes m).elim (t.bits m) (· % 4096)) :
    Updated writes t u where
  size := size
  entries := by
    intro m
    by_cases touched : ∃ w ∈ writes, w.1 = m
    · obtain ⟨w, hw, rfl⟩ := touched
      have room : w.1 < u.capacity := by
        rw [capacity, size]
        exact inside w hw
      rw [entry_eq_bits room, entry_eq_bits (inside w hw), bits]
    · have none : written? writes m = none :=
        written?_eq_none fun w hw same => touched ⟨w, hw, same⟩
      have same := bits m
      rw [none] at same ⊢
      exact entry_congr size same
  kept := by
    intro j untouched
    rw [bit_eq, bit_eq, bits, written?_eq_none untouched]
    rfl

/-- Runs with the same writes to each index, in the same order, have the same result. -/
theorem setAll_congr {writes others : List (Nat × Nat)} {t u : AllocationTable}
    (inside : ∀ w ∈ writes, w.1 < t.capacity)
    (same : ∀ m, writesTo others m = writesTo writes m) (run : setAll writes t = (.ok (), u)) :
    setAll others t = (.ok (), u) := by
  have known : ∀ w ∈ others, w.1 < t.capacity := by
    intro w hw
    have mine : w ∈ writesTo others w.1 := List.mem_filter.2 ⟨hw, by simp⟩
    rw [same] at mine
    exact inside w (List.mem_filter.1 mine).1
  obtain ⟨v, again, sizes, vbits⟩ := setAll_bits others t known
  obtain ⟨u', first, size, ubits⟩ := setAll_bits writes t inside
  cases run.symm.trans first
  have equal : v = u := eq_of_bits (sizes.trans size.symm) <| by
    funext m
    rw [vbits, ubits, written?, written?, same]
  rw [again, equal]

theorem writesTo_perm {writes others : List (Nat × Nat)} (perm : others.Perm writes)
    (distinct : (writes.map Prod.fst).Nodup) (m : Nat) : writesTo others m = writesTo writes m := by
  have here : (writesTo others m).Perm (writesTo writes m) := perm.filter _
  have keys : ((writesTo writes m).map Prod.fst).Nodup :=
    distinct.sublist (List.filter_sublist.map _)
  have alike : ∀ w ∈ writesTo writes m, w.1 = m := fun w hw => by
    simpa using (List.mem_filter.1 hw).2
  match h : writesTo writes m with
  | [] => exact List.perm_nil.1 (h ▸ here)
  | [w] => exact List.perm_singleton.1 (h ▸ here)
  | v :: w :: rest =>
    rw [h] at keys alike
    have clash : v.1 = w.1 := (alike v (by simp)).trans (alike w (by simp)).symm
    simp [clash] at keys

/-- Writes below the capacity always succeed. They are an exact update of the array of entries, and
those to different indices can be made in any order. -/
theorem setAll_updates (t : AllocationTable) (writes : List (Nat × Nat))
    (inside : ∀ w ∈ writes, w.1 < t.capacity) :
    ∃ u, setAll writes t = (.ok (), u) ∧ Updated writes t u ∧
      (∀ others, (∀ m, writesTo others m = writesTo writes m) → setAll others t = (.ok (), u)) ∧
      ((writes.map Prod.fst).Nodup → ∀ others, others.Perm writes →
        setAll others t = (.ok (), u)) := by
  obtain ⟨u, run, size, bits⟩ := setAll_bits writes t inside
  refine ⟨u, run, updated_of_bits inside size bits, ?_, ?_⟩
  · intro others same
    exact setAll_congr inside same run
  · intro distinct others perm
    exact setAll_congr inside (writesTo_perm perm distinct) run

/-- Four entries, and eight bits behind them that belong to none. -/
def sevenBytes : AllocationTable :=
  ⟨Bytes.ofList [0xf8, 0xff, 0xff, 0x21, 0x43, 0x65, 0x87]⟩

theorem sevenBytes_updates :
    (∀ w ∈ [(2, 0xabc), (3, 0x1123), (2, 0x456)], w.1 < sevenBytes.capacity) ∧
    ∃ u, setAll [(2, 0xabc), (3, 0x1123), (2, 0x456)] sevenBytes = (.ok (), u) ∧
      u.entry 1 = 0xfff ∧ u.entry 2 = 0x456 ∧ u.entry 3 = 0x123 ∧
      (∀ j, 48 ≤ j → u.bit j = sevenBytes.bit j) ∧
      setAll [(3, 0x1123), (2, 0xabc), (2, 0x456)] sevenBytes = (.ok (), u) := by
  have inside : ∀ w ∈ [(2, 0xabc), (3, 0x1123), (2, 0x456)], w.1 < sevenBytes.capacity := by decide
  obtain ⟨u, run, updated, reordered, _⟩ := setAll_updates sevenBytes _ inside
  refine ⟨inside, u, run, ?_, ?_, ?_, ?_, reordered _ ?_⟩
  · rw [updated.entries]
    rfl
  · rw [updated.entries]
    rfl
  · rw [updated.entries]
    rfl
  · intro j behind
    apply updated.kept
    simp
    omega
  · intro m
    by_cases two : 2 = m <;> by_cases three : 3 = m <;> simp [writesTo, two, three]
    omega

end BootDisk.AllocationTable
