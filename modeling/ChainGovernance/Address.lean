import ChainGovernance.Bytes.Hex
import ChainGovernance.Ed25519.Key
import ChainGovernance.Hash.Digest
import ChainGovernance.Text.Quoted
import ChainGovernance.Wire.Compact

/-!
Addresses of accounts and contracts.

The address of a key, or of several keys that sign together, is the front of the hash of a
preimage: a byte that tells the two apart, and then the key, or the threshold, the number of keys
and the keys in their order. Native contracts have small numbers for addresses.
-/

namespace ChainGovernance

/-- An address of 20 bytes. -/
structure Address extends FixedBytes 20
deriving DecidableEq

namespace Address

instance : Ord Address := ⟨fun a b => compare a.toFixedBytes b.toFixedBytes⟩

def zero : Address := ⟨.zero 20⟩

/-- The address of a native contract: zeros, and its number in the last byte. -/
def native (id : UInt8) : Address := ⟨List.replicate 19 0 ++ [id], rfl⟩

/-- The native contract that keeps the validators and the parameters of the network. -/
def governance : Address := native 7

def format : Wire.Format Address := (Wire.Format.fixed 20).iso Address.mk Address.toFixedBytes

/-! ### Addresses from keys -/

/-- The front of the hash of a preimage. -/
def ofPreimage (preimage : Bytes) : Address :=
  ⟨(hash preimage).toFixedBytes.leading 20 (by decide)⟩

/-- What is hashed for the address of one key. -/
def keyPreimage (key : PublicKey) : Bytes := 0x01 :: key.toBytes

/-- The address that one key controls. -/
def ofPublicKey (key : PublicKey) : Address := ofPreimage (keyPreimage key)

/-- What is hashed for the address of several keys. -/
def multisigPreimage (threshold : UInt16) (keys : List PublicKey) : Bytes :=
  0x02 :: (Wire.Format.uint16.write threshold ++ Wire.Compact.write (UInt64.ofNat keys.length) ++
    keys.flatMap fun key => key.toBytes)

/-- The address that any `threshold` of the keys control. The order of the keys matters. -/
def ofMultisig (threshold : UInt16) (keys : List PublicKey) : Address :=
  ofPreimage (multisigPreimage threshold keys)

/-! ### Addresses as text -/

/-- Why a text is no address. -/
inductive Fault
  | notHex (text : String)
  | length (found : Nat)
deriving DecidableEq

def Fault.message : Fault → String
  | notHex text => Text.quoted text ++ " is not hex"
  | length found => "expected 20 bytes, found " ++ toString found

/-- The address that a text denotes: 40 digits, as they come when pasted. -/
def ofText? (text : String) : Except Fault Address :=
  match Hex.decodeFormatted? text with
  | none => .error (.notHex text)
  | some b =>
    match FixedBytes.ofBytes? 20 b with
    | some a => .ok ⟨a⟩
    | none => .error (.length b.length)

/-- The digits of an address. -/
def text (a : Address) : String := Hex.encode a.toBytes

end Address

end ChainGovernance
