import ChainGovernance.Wire.Compact

/-!
Formats as data: the types that plain values are made of, each with the range of every length in
it. A schema gives the type of its values and their format.
-/

namespace ChainGovernance.Wire

/-- The types of plain values. -/
inductive Schema
  | uint8
  | uint16
  | uint32
  | uint64
  | flag
  | array (n : Nat)
  | compact
  | bytes (range : LengthRange)
  | list (range : LengthRange) (item : Schema)
deriving DecidableEq

namespace Schema

/-- The values of a schema. -/
def Value : Schema → Type
  | uint8 => UInt8
  | uint16 => UInt16
  | uint32 => UInt32
  | uint64 => UInt64
  | flag => Bool
  | array n => FixedBytes n
  | compact => UInt64
  | bytes _ => Bytes
  | list _ item => List item.Value

/-- How the values of a schema are written and read. -/
def format : (s : Schema) → Format s.Value
  | uint8 => Format.uint8
  | uint16 => Format.uint16
  | uint32 => Format.uint32
  | uint64 => Format.uint64
  | flag => Format.flag
  | array n => Format.fixed n
  | compact => Format.compact
  | bytes range => Format.bytes range
  | list range item => Format.list range item.format

end Schema

end ChainGovernance.Wire
