import Mathlib
import ChainGovernance.Bytes.LittleEndian

/-!
Numbers as bytes: `decode_encode` and `encode_decode` say that the numbers below `256 ^ width` and
the byte strings of that width are the same thing.
-/

namespace ChainGovernance.LittleEndian

theorem decode_lt (b : Bytes) : decode b < 256 ^ b.length := by
  induction b with
  | nil => simp [decode]
  | cons x r ih =>
    have := x.toNat_lt
    simp only [decode, List.length_cons, Nat.pow_succ]
    omega

theorem decode_encode {width v : Nat} (h : v < 256 ^ width) : decode (encode width v) = v := by
  induction width generalizing v with
  | zero => simp [encode, decode] at *; omega
  | succ width ih =>
    rw [Nat.pow_succ] at h
    simp only [encode, decode, ih (v := v / 256) (by omega), UInt8.toNat_ofNat']
    omega

theorem encode_decode (b : Bytes) : encode b.length (decode b) = b := by
  induction b with
  | nil => rfl
  | cons x r ih =>
    have hx := x.toNat_lt
    have h : (x.toNat + 256 * decode r) / 256 = decode r := by omega
    simp only [List.length_cons, decode, encode, h, ih, List.cons.injEq, and_true]
    apply UInt8.toNat_inj.mp
    rw [UInt8.toNat_ofNat']
    omega

end ChainGovernance.LittleEndian
