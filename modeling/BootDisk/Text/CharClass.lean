set_option autoImplicit false

namespace BootDisk.Text

structure CharClass where
  ranges : List (Nat × Nat)

namespace CharClass

def contains (k : CharClass) (c : Char) : Bool :=
  k.ranges.any fun r => r.1 ≤ c.toNat && c.toNat ≤ r.2

def blank : CharClass where
  ranges := [(0x9, 0xd), (0x20, 0x20), (0x85, 0x85), (0xa0, 0xa0), (0x1680, 0x1680),
    (0x2000, 0x200a), (0x2028, 0x2029), (0x202f, 0x202f), (0x205f, 0x205f), (0x3000, 0x3000)]

end CharClass

def trimEnd (s : List Char) : List Char :=
  (s.reverse.dropWhile CharClass.blank.contains).reverse

end BootDisk.Text
