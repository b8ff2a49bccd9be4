/-!
What can be wrong with bytes that are read as a value.
-/

namespace ChainGovernance.Wire

/-- Why a value could not be read. -/
inductive Error
  /-- The bytes end before the value does. -/
  | endOfBuffer
  /-- The value ends and `count` bytes are left. -/
  | extraData (count : Nat)
  /-- A variable-length number is not in its shortest form. -/
  | invalidVarint
  /-- A length is not one of those allowed at its place. -/
  | invalidLength (length : Nat)
  /-- A byte that selects one of a few cases of `context` selects none. -/
  | invalidTag (context : String) (tag : UInt8)
  /-- The parts of a `context` do not fit together. -/
  | invalid (context reason : String)
  /-- The bytes of a `context` are refused by its own rules. -/
  | wrapped (context reason : String)
deriving DecidableEq

def Error.message : Error → String
  | endOfBuffer => "unexpected end of buffer"
  | extraData count => "extra data found: " ++ toString count ++ " bytes"
  | invalidVarint => "invalid varint"
  | invalidLength length => "invalid length: " ++ toString length
  | invalidTag context tag =>
    "invalid enum value in " ++ context ++ ": " ++ toString tag.toNat
  | invalid context reason => "invalid data in " ++ context ++ ": " ++ reason
  | wrapped context reason => "wrapped error in " ++ context ++ ": " ++ reason

end ChainGovernance.Wire
