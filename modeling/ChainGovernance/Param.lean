import ChainGovernance.Address
import ChainGovernance.Ed25519.Format
import ChainGovernance.Text.Utf8

/-!
Typed parameters of an invocation.

A parameter is written as a byte that names its type, and its value. Addresses and keys are given
as text and written as bytes, so writing may fail; the fault then says at which element of which
array it lies.
-/

namespace ChainGovernance

inductive Param
  | bytes (value : Bytes)
  | string (value : String)
  | int (value : UInt64)
  | flag (value : Bool)
  /-- An address, as text. -/
  | address (text : String)
  /-- A public key, as text. -/
  | publicKey (text : String)
  | array (items : List Param)

namespace Param

open Wire (Format)

/-- Why a parameter could not be written. -/
inductive Fault
  | address (fault : Address.Fault)
  | keyNotHex (text : String)
  | key (error : CryptoError)
  /-- The element at `index` of an array could not be written. -/
  | element (index : Nat) (fault : Fault)
deriving DecidableEq

def Fault.message : Fault → String
  | address fault => "invalid address: " ++ fault.message
  | keyNotHex text => "public key " ++ Text.quoted text ++ " is not hex"
  | key error => "invalid public key: " ++ error.message
  | element index fault => "element " ++ toString index ++ ": " ++ fault.message

/-- The key that a text denotes. -/
def keyOfText? (text : String) : Except Fault PublicKey :=
  match Hex.decodeFormatted? text with
  | none => .error (.keyNotHex text)
  | some b => (PublicKey.ofBytes? b).mapError .key

/-- Byte strings with their length in front. -/
def lengthAndBytes (b : Bytes) : Bytes := (Format.bytes {}).write b

mutual

def encode : Param → Except Fault Bytes
  | bytes value => .ok (0x00 :: lengthAndBytes value)
  | string value => .ok (0x01 :: lengthAndBytes (Text.utf8 value))
  | int value => .ok (0x02 :: Format.uint64.write value)
  | flag value => .ok (0x03 :: Format.flag.write value)
  | address text => do
    let a ← (Address.ofText? text).mapError .address
    pure (0x04 :: a.toBytes)
  | publicKey text => do
    let key ← keyOfText? text
    pure (0x05 :: key.toBytes)
  | array items => do
    let body ← encodeItems 0 items
    pure (0x06 :: (Wire.Compact.write (UInt64.ofNat items.length) ++ body))

/-- The bytes of the elements of an array, from the one at `index` on. -/
def encodeItems (index : Nat) : List Param → Except Fault Bytes
  | [] => .ok []
  | item :: items => do
    let b ← (encode item).mapError (.element index)
    let rest ← encodeItems (index + 1) items
    pure (b ++ rest)

end

end Param

end ChainGovernance
