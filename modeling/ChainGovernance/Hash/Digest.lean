import ChainGovernance.CryptoError
import ChainGovernance.Hash.Sha256

/-!
Digests, and what is hashed to get them.

Transactions, blocks and requests are named by a `doubleHash`, the digest of a digest. A `Hasher`
collects a message piece by piece.
-/

namespace ChainGovernance

/-- A digest of 32 bytes. -/
structure Digest extends FixedBytes 32
deriving DecidableEq

namespace Digest

def zero : Digest := ⟨.zero 32⟩

/-- The digest that the bytes are, if there are 32 of them. -/
def ofBytes? (b : Bytes) : Except CryptoError Digest :=
  match FixedBytes.ofBytes? 32 b with
  | some d => .ok ⟨d⟩
  | none => .error .digestLength

instance : Ord Digest := ⟨fun a b => compare a.toFixedBytes b.toFixedBytes⟩

theorem eq_of_toBytes_eq : {d e : Digest} → d.toBytes = e.toBytes → d = e
  | ⟨⟨_, _⟩⟩, ⟨⟨_, _⟩⟩, rfl => rfl

end Digest

/-- The SHA-256 digest of a message. -/
def hash (message : Bytes) : Digest := ⟨⟨Hash.Sha256.hash message, Hash.Sha256.length_hash message⟩⟩

/-- The digest of the digest of a message. -/
def doubleHash (message : Bytes) : Digest := hash (hash message).toBytes

/-- A message that is collected piece by piece. -/
structure Hasher where
  recorded : Bytes := []
deriving DecidableEq

namespace Hasher

/-- Records one more piece. -/
def update (h : Hasher) (message : Bytes) : Hasher := ⟨h.recorded ++ message⟩

/-- The digest of what was recorded, and a hasher with nothing recorded. -/
def finalize (h : Hasher) : Digest × Hasher := (hash h.recorded, {})

/-- Forgets what was recorded. -/
def reset (_ : Hasher) : Hasher := {}

/-- A second hasher. It starts with nothing recorded, whatever the first one holds. -/
def clone (_ : Hasher) : Hasher := {}

end Hasher

end ChainGovernance
