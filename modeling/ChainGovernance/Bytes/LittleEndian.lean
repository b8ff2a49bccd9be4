import ChainGovernance.Bytes.Basic

/-!
Numbers as byte strings of a fixed width, the lowest byte first.
-/

namespace ChainGovernance.LittleEndian

/-- The lowest `width` bytes of a number, the lowest first. -/
def encode : (width : Nat) → Nat → Bytes
  | 0, _ => []
  | width + 1, v => UInt8.ofNat v :: encode width (v / 256)

/-- The number that bytes denote, the lowest first. -/
def decode : Bytes → Nat
  | [] => 0
  | b :: r => b.toNat + 256 * decode r

@[simp] theorem length_encode (width v : Nat) : (encode width v).length = width := by
  induction width generalizing v with
  | zero => rfl
  | succ width ih => simp [encode, ih]

end ChainGovernance.LittleEndian
