set_option autoImplicit false

namespace BootDisk.Text

namespace Utf8

def replacement : Char := '\ufffd'

/-- A sequence under way: the bits read so far, how many bytes are missing, and the range of the
next one. Only the second byte of a sequence has a range of its own. -/
structure Pending where
  code : Nat
  missing : Nat
  low : Nat
  high : Nat
deriving DecidableEq, Repr

inductive Start where
  | char (c : Char)
  | pending (p : Pending)
  | invalid

/-- What a byte at the start of a sequence says. Overlong forms, surrogates and code points
above 0x10ffff are ruled out by the range of the second byte. -/
def start (b : Nat) : Start :=
  if b < 0x80 then .char (Char.ofNat b)
  else if b < 0xc2 then .invalid
  else if b < 0xe0 then .pending ⟨b - 0xc0, 1, 0x80, 0xbf⟩
  else if b = 0xe0 then .pending ⟨b - 0xe0, 2, 0xa0, 0xbf⟩
  else if b = 0xed then .pending ⟨b - 0xe0, 2, 0x80, 0x9f⟩
  else if b < 0xf0 then .pending ⟨b - 0xe0, 2, 0x80, 0xbf⟩
  else if b = 0xf0 then .pending ⟨b - 0xf0, 3, 0x90, 0xbf⟩
  else if b < 0xf4 then .pending ⟨b - 0xf0, 3, 0x80, 0xbf⟩
  else if b = 0xf4 then .pending ⟨b - 0xf0, 3, 0x80, 0x8f⟩
  else .invalid

def Pending.accepts (p : Pending) (b : Nat) : Bool := p.low ≤ b && b ≤ p.high

def Pending.add (p : Pending) (b : Nat) : Pending :=
  ⟨64 * p.code + (b - 0x80), p.missing - 1, 0x80, 0xbf⟩

def decodeFrom : Option Pending → List UInt8 → List Char
  | none, [] => []
  | some _, [] => [replacement]
  | none, b :: bs =>
    match start b.toNat with
    | .char c => c :: decodeFrom none bs
    | .pending p => decodeFrom (some p) bs
    | .invalid => replacement :: decodeFrom none bs
  | some p, b :: bs =>
    if p.accepts b.toNat then
      let p := p.add b.toNat
      if p.missing = 0 then Char.ofNat p.code :: decodeFrom none bs
      else decodeFrom (some p) bs
    else
      match start b.toNat with
      | .char c => replacement :: c :: decodeFrom none bs
      | .pending p => replacement :: decodeFrom (some p) bs
      | .invalid => replacement :: replacement :: decodeFrom none bs

def decode (bytes : List UInt8) : List Char := decodeFrom none bytes

theorem decode_ascii (bytes : List UInt8) (h : ∀ b ∈ bytes, b.toNat < 0x80) :
    decode bytes = bytes.map fun b => Char.ofNat b.toNat := by
  induction bytes with
  | nil => rfl
  | cons b bs ih =>
    have hb := h b (by simp)
    have rest := ih fun c hc => h c (by simp [hc])
    change decodeFrom none bs = _ at rest
    simp [decode, decodeFrom, start, hb, rest]

end Utf8

end BootDisk.Text
