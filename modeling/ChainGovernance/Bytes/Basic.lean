/-!
Byte strings, byte strings of one length, and the cut of a byte string into chunks.

Everything that is written, hashed or signed is a `Bytes`. Keys, digests, signatures and
addresses are `FixedBytes`, so that their length is part of their type.
-/

namespace ChainGovernance

abbrev Bytes := List UInt8

/-- The first `count` chunks of `width` bytes. -/
def Bytes.chunks (width : Nat) : (count : Nat) → Bytes → List Bytes
  | 0, _ => []
  | count + 1, b => b.take width :: chunks width count (b.drop width)

/-- A byte string of `n` bytes. -/
structure FixedBytes (n : Nat) where
  toBytes : Bytes
  length_eq : toBytes.length = n
deriving DecidableEq

namespace FixedBytes

variable {n : Nat}

/-- The bytes as a string of `n` bytes, if there are `n` of them. -/
def ofBytes? (n : Nat) (b : Bytes) : Option (FixedBytes n) :=
  if h : b.length = n then some ⟨b, h⟩ else none

/-- The string of `n` zero bytes. -/
def zero (n : Nat) : FixedBytes n := ⟨List.replicate n 0, List.length_replicate⟩

/-- The first `m` bytes. -/
def leading (m : Nat) (b : FixedBytes n) (h : m ≤ n) : FixedBytes m :=
  ⟨b.toBytes.take m, by simp [b.length_eq, h]⟩

/-- Strings of one length are ordered byte by byte, from the left. -/
instance : Ord (FixedBytes n) := ⟨fun a b => compare a.toBytes b.toBytes⟩

theorem ofBytes?_toBytes (b : FixedBytes n) : ofBytes? n b.toBytes = some b := by
  simp [ofBytes?, b.length_eq]

theorem toBytes_of_ofBytes? {b : Bytes} {f : FixedBytes n} (h : ofBytes? n b = some f) :
    f.toBytes = b := by
  unfold ofBytes? at h
  split at h
  · cases h; rfl
  · cases h

end FixedBytes

end ChainGovernance
