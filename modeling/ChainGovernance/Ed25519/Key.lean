import ChainGovernance.Bytes.Hex
import ChainGovernance.CryptoError
import ChainGovernance.Ed25519.Curve
import ChainGovernance.Hash.Sha512

/-!
Keys, signatures, signing and checking.

A public key is any 32 bytes that denote a point, kept as they came: keys are equal and ordered as
byte strings. A signature is checked by `8 S B = 8 R + 8 k A`, for `S` below the order and an `R`
that denotes a point; `k` is hashed from the bytes as they are.
-/

namespace ChainGovernance

/-- A signature: the bytes of the point `R`, and those of the number `S`. -/
structure Signature extends FixedBytes 64
deriving DecidableEq

/-- A public key: the bytes of a point. -/
structure PublicKey extends FixedBytes 32 where
  isPoint : (Ed25519.Point.ofBytes? toBytes).isSome
deriving DecidableEq

/-- A private key: 32 secret bytes. -/
structure PrivateKey extends FixedBytes 32
deriving DecidableEq

namespace Ed25519

/-- The number below the order that a hash of 64 bytes selects. -/
def scalarOfHash (message : Bytes) : Nat :=
  LittleEndian.decode (Hash.Sha512.hash message) % order

/-- The weight of the one bit that every secret number has, `2 ^ 254`. -/
def secretWeight : Nat := 0x4000000000000000000000000000000000000000000000000000000000000000

/-- The secret number of a private key: 251 bits of the first half of its hash, above three zero
bits and below a one. -/
def secretScalar (seed : Bytes) : Nat :=
  let n := LittleEndian.decode ((Hash.Sha512.hash seed).take 32)
  secretWeight + n % secretWeight / 8 * 8

/-- The bytes that hide the secret number in signatures: the second half of the hash. -/
def secretNonce (seed : Bytes) : Bytes := (Hash.Sha512.hash seed).drop 32

end Ed25519

namespace Signature

/-- The signature that the bytes are, if there are 64 of them. -/
def ofBytes? (b : Bytes) : Except CryptoError Signature :=
  match FixedBytes.ofBytes? 64 b with
  | some s => .ok ⟨s⟩
  | none => .error .signatureLength

instance : Ord Signature := ⟨fun a b => compare a.toFixedBytes b.toFixedBytes⟩

end Signature

namespace PublicKey

open Ed25519

instance : Ord PublicKey := ⟨fun a b => compare a.toFixedBytes b.toFixedBytes⟩

/-- The key that 32 bytes are, if they denote a point. -/
def ofFixedBytes? (b : FixedBytes 32) : Except CryptoError PublicKey :=
  if h : (Point.ofBytes? b.toBytes).isSome then .ok ⟨b, h⟩ else .error .publicKey

/-- The key that the bytes are. -/
def ofBytes? (b : Bytes) : Except CryptoError PublicKey :=
  match FixedBytes.ofBytes? 32 b with
  | some f => ofFixedBytes? f
  | none => .error .publicKeyLength

/-- The key whose point is `y = 1`, the neutral one. -/
def neutral : PublicKey where
  toBytes := LittleEndian.encode 32 1
  length_eq := LittleEndian.length_encode 32 1
  isPoint := by decide +kernel

/-- The key of a point. The bytes of a point of the curve always denote it; those of any other
point count as the neutral key. -/
def ofPoint (p : Point) : PublicKey :=
  match ofFixedBytes? ⟨p.toBytes, p.length_toBytes⟩ with
  | .ok key => key
  | .error _ => neutral

/-- Whether a signature of a message was made by the owner of the key. -/
def verify (key : PublicKey) (message : Bytes) (signature : Signature) : Bool :=
  let rBytes := signature.toBytes.take 32
  let s := LittleEndian.decode (signature.toBytes.drop 32)
  match Point.ofBytes? key.toBytes, Point.ofBytes? rBytes with
  | some a, some r =>
    let k := scalarOfHash (rBytes ++ key.toBytes ++ message)
    let difference := (Point.base.smul s).add ((a.smul k).add r).neg
    s < order && (difference.smul 8).isNeutral
  | _, _ => false

end PublicKey

namespace PrivateKey

open Ed25519

/-- The key that the bytes are, if there are 32 of them. -/
def ofBytes? (b : Bytes) : Except CryptoError PrivateKey :=
  match FixedBytes.ofBytes? 32 b with
  | some s => .ok ⟨s⟩
  | none => .error .privateKeyLength

/-- The public key that belongs to a private key. -/
def publicKey (key : PrivateKey) : PublicKey :=
  .ofPoint (Point.base.smul (secretScalar key.toBytes))

/-- A private key as it is shown: by its public key. -/
def shown (key : PrivateKey) : String := "PrivateKey(" ++ Hex.encode key.publicKey.toBytes ++ ")"

/-- The signature of a message under a private key whose public key is `publicKey`. -/
def signAs (key : PrivateKey) (publicKey : PublicKey) (message : Bytes) : Signature :=
  let r := scalarOfHash (secretNonce key.toBytes ++ message)
  let rBytes := (Point.base.smul r).toBytes
  let k := scalarOfHash (rBytes ++ publicKey.toBytes ++ message)
  let s := (r + k * secretScalar key.toBytes) % order
  ⟨⟨rBytes ++ LittleEndian.encode 32 s, by simp [rBytes]⟩⟩

def sign (key : PrivateKey) (message : Bytes) : Signature := key.signAs key.publicKey message

end PrivateKey

end ChainGovernance
