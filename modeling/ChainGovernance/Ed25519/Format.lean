import ChainGovernance.Ed25519.Key
import ChainGovernance.Hash.Digest
import ChainGovernance.Wire.Compact

/-!
How keys, signatures and digests are written and read.

Inside other values, keys and signatures have their length in front, which is always the same.
-/

namespace ChainGovernance

open Wire (Format)

def Digest.format : Format Digest := (Format.fixed 32).iso Digest.mk Digest.toFixedBytes

def Signature.format : Format Signature :=
  (Format.fixed 64).iso Signature.mk Signature.toFixedBytes

namespace PublicKey

/-- How public keys are written and read. Bytes that denote no point are refused. -/
def format : Format PublicKey :=
  (Format.fixed 32).refine
    (fun b =>
      match ofFixedBytes? b with
      | .ok key => .ok key
      | .error e => .error (.wrapped "ed25519::PublicKey" e.message))
    PublicKey.toFixedBytes

/-- Public keys with their length in front. -/
def sizedFormat : Format PublicKey := format.sized 32

end PublicKey

/-- Signatures with their length in front. -/
def Signature.sizedFormat : Format Signature := format.sized 64

end ChainGovernance
