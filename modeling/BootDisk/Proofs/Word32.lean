import BootDisk.Proofs.Step

set_option autoImplicit false

namespace BootDisk.Word32

def limit : Nat := 0x100000000

def fit (n : Nat) : Outcome Nat := if n < limit then pure n else fault .overflow

def add (a b : Nat) : Outcome Nat := fit (a + b)

def mul (a b : Nat) : Outcome Nat := fit (a * b)

def div (a b : Nat) : Outcome Nat := if b = 0 then fault .zeroDivisor else pure (a / b)

theorem fit_eq_ok {n : Nat} (h : n < limit) : fit n = .ok n := if_pos h

theorem fit_eq_overflow {n : Nat} (h : limit ≤ n) : fit n = .error (.fault .overflow) :=
  if_neg (Nat.not_lt.2 h)

theorem div_eq_ok {a b : Nat} (h : 0 < b) : div a b = .ok (a / b) := if_neg (Nat.ne_of_gt h)

end BootDisk.Word32
