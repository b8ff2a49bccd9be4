import ChainGovernance.Wire.Format

/-!
Numbers in as few bytes as their size needs, and what they count.

A number below `0xFD` is one byte. Larger numbers are a marker byte and two, four or eight bytes.
Only the shortest of these forms is read, so every number has one written form. Lengths and counts
are written so, and refused where they lie outside the range that their place allows.
-/

namespace ChainGovernance.Wire

namespace Compact

/-- The bytes of a number. -/
def write (v : UInt64) : Bytes :=
  if v < 0xFD then [v.toUInt8]
  else if v ≤ 0xFFFF then 0xFD :: LittleEndian.encode 2 v.toNat
  else if v ≤ 0xFFFFFFFF then 0xFE :: LittleEndian.encode 4 v.toNat
  else 0xFF :: LittleEndian.encode 8 v.toNat

/-- The number of bytes of a number. -/
def size (v : UInt64) : Nat :=
  if v < 0xFD then 1 else if v ≤ 0xFFFF then 3 else if v ≤ 0xFFFFFFFF then 5 else 9

/-- Reads the `width` bytes behind a marker. Numbers below `least` have a shorter form. -/
def readWide (width least : Nat) : Reader UInt64 := fun b => do
  let (n, rest) ← (Format.word width).read b
  if n < least then throw .invalidVarint else pure (UInt64.ofNat n, rest)

/-- Reads a number in its shortest form. -/
def read : Reader UInt64
  | [] => .error .endOfBuffer
  | marker :: rest =>
    if marker = 0xFD then readWide 2 0xFD rest
    else if marker = 0xFE then readWide 4 0x10000 rest
    else if marker = 0xFF then readWide 8 0x100000000 rest
    else .ok (marker.toUInt64, rest)

end Compact

namespace Format

variable {α β : Type}

/-- Numbers in their shortest form. -/
def compact : Format UInt64 := ⟨Compact.write, Compact.size, Compact.read⟩

/-- Refuses the lengths outside a range. -/
def within (count : Format Nat) (range : LengthRange) : Format Nat :=
  count.refine (fun n => if range.contains n then .ok n else .error (.invalidLength n)) id

/-- Lengths in a range, in their shortest form. -/
def length (range : LengthRange) : Format Nat :=
  (compact.iso UInt64.toNat UInt64.ofNat).within range

/-- Lengths in a range, in four bytes. -/
def length32 (range : LengthRange) : Format Nat :=
  (uint32.iso UInt32.toNat UInt32.ofNat).within range

/-- Byte strings with their length in front. -/
def bytes (range : LengthRange) : Format Bytes := (length range).counted List.length raw

/-- Lists with their length in front. -/
def list (range : LengthRange) (item : Format α) : Format (List α) :=
  (length range).counted List.length item.times

/-- Lists with their length in front, in four bytes. -/
def list32 (range : LengthRange) (item : Format α) : Format (List α) :=
  (length32 range).counted List.length item.times

/-- Values of `n` bytes each, with that number in front all the same. -/
def sized (n : Nat) (f : Format α) : Format α :=
  (length (.exactly n)).counted (fun _ => n) fun _ => f

/-- Lists of pairs: their length, the left halves, their length again, and the right halves. The
second length has to be the first, or the list fails with `mismatch`. -/
def columns (range : LengthRange) (mismatch : Error) (left : Format α) (right : Format β) :
    Format (List (α × β)) :=
  (length range).counted List.length fun n =>
    let again := (length range).refine (fun m => if m = n then .ok m else .error mismatch) id
    ((left.times n).seq (again.counted List.length right.times)).iso
      (fun v => v.1.zip v.2) List.unzip

end Format

end ChainGovernance.Wire
