import ChainGovernance.Bytes.Basic

/-!
Bytes as hexadecimal text.

`encode` writes two lower-case digits a byte. `decode?` reads two characters a byte: digits of
either case, or a plus sign and one digit, which denotes that digit's value. `decodeFormatted?`
first drops the blanks that come with pasted text, and then one leading `0x`.
-/

namespace ChainGovernance.Hex

/-- The lower-case digit of a number below sixteen. -/
def digit (n : Nat) : Char := Char.ofNat (if n < 10 then 48 + n else 87 + n)

/-- The two digits of a byte, the higher first. -/
def digits (b : UInt8) : List Char := [digit (b.toNat / 16), digit (b.toNat % 16)]

/-- The text of a byte string. -/
def encode (b : Bytes) : String := String.ofList (b.flatMap digits)

/-- The value of a hexadecimal digit of either case. -/
def value? (c : Char) : Option Nat :=
  let n := c.toNat
  if 48 ≤ n ∧ n ≤ 57 then some (n - 48)
  else if 97 ≤ n ∧ n ≤ 102 then some (n - 87)
  else if 65 ≤ n ∧ n ≤ 70 then some (n - 55)
  else none

/-- The byte that two characters denote. A plus sign may stand before a single digit. -/
def byte? (hi lo : Char) : Option UInt8 :=
  match (if hi = '+' then some 0 else value? hi), value? lo with
  | some h, some l => some (UInt8.ofNat (16 * h + l))
  | _, _ => none

/-- The bytes that characters denote, two by two, behind the reverse of `done`. -/
def bytesAfter? (done : Bytes) : List Char → Option Bytes
  | [] => some done.reverse
  | [_] => none
  | hi :: lo :: rest =>
    match byte? hi lo with
    | some b => bytesAfter? (b :: done) rest
    | none => none

/-- The bytes that a text denotes, if it is hexadecimal. -/
def decode? (text : String) : Option Bytes := bytesAfter? [] text.toList

/-- The blanks of pasted text: tab, line feed, carriage return and space. -/
def isLayout (c : Char) : Bool := c = '\t' || c = '\n' || c = '\r' || c = ' '

/-- The characters without one leading `0x`. -/
def dropMarker : List Char → List Char
  | '0' :: 'x' :: rest => rest
  | cs => cs

/-- The bytes that a pasted text denotes: blanks are dropped, then one leading `0x`. -/
def decodeFormatted? (text : String) : Option Bytes :=
  bytesAfter? [] (dropMarker (text.toList.filter fun c => !isLayout c))

end ChainGovernance.Hex
