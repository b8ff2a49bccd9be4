import ChainGovernance.Bytes.LittleEndian
import ChainGovernance.Wire.Error
import ChainGovernance.Wire.LengthRange

/-!
Formats: how values of a type are written as bytes, and read back from the front of some bytes.

A `Format` has a writer, the size of what it writes, and a reader that says why it refuses. The
formats of records are put together from those of their parts: `seq` writes one part after
another, `counted` puts in front of a value the number that tells the reader how to go on, and
`refine` reads a value of one type as a value of another. Reading stops at the first fault, and
the rest of the bytes is never looked at.
-/

namespace ChainGovernance.Wire

/-- Reads a value off the front of some bytes, and leaves the others. -/
abbrev Reader (α : Type) := Bytes → Except Error (α × Bytes)

/-- How values of a type are written and read. -/
structure Format (α : Type) where
  /-- The bytes of a value. -/
  write : α → Bytes
  /-- The number of bytes of a value. -/
  size : α → Nat
  /-- The value at the front of some bytes. -/
  read : Reader α

namespace Format

variable {α β : Type}

/-- The value that the bytes are, all of them. -/
def decode (f : Format α) (b : Bytes) : Except Error α := do
  let (v, rest) ← f.read b
  if rest.isEmpty then pure v else throw (.extraData rest.length)

/-! ### Bytes and numbers -/

/-- Byte strings of `n` bytes, as they are. -/
def raw (n : Nat) : Format Bytes where
  write b := b
  size b := b.length
  read b :=
    let front := b.take n
    if front.length = n then .ok (front, b.drop n) else .error .endOfBuffer

def uint8 : Format UInt8 where
  write v := [v]
  size _ := 1
  read
    | [] => .error .endOfBuffer
    | v :: rest => .ok (v, rest)

/-- Numbers of `width` bytes, the lowest byte first. -/
def word (width : Nat) : Format Nat where
  write := LittleEndian.encode width
  size _ := width
  read b := do
    let (front, rest) ← (raw width).read b
    pure (LittleEndian.decode front, rest)

/-! ### Formats from formats -/

/-- Values of `β`, written as values of `α`. A value of `α` may stand for none of `β`. -/
def refine (f : Format α) (parse : α → Except Error β) (print : β → α) : Format β where
  write v := f.write (print v)
  size v := f.size (print v)
  read b := do
    let (a, rest) ← f.read b
    let v ← parse a
    pure (v, rest)

/-- Values of `β`, each written as a value of `α` that stands for it. -/
def iso (f : Format α) (parse : α → β) (print : β → α) : Format β where
  write v := f.write (print v)
  size v := f.size (print v)
  read b := do
    let (a, rest) ← f.read b
    pure (parse a, rest)

/-- One value after another. -/
def seq (f : Format α) (g : Format β) : Format (α × β) where
  write v := f.write v.1 ++ g.write v.2
  size v := f.size v.1 + g.size v.2
  read b := do
    let (x, rest) ← f.read b
    let (y, rest) ← g.read rest
    pure ((x, y), rest)

/-- A number in front, and then the value in the format that the number selects. -/
def counted (count : Format Nat) (measure : α → Nat) (body : Nat → Format α) : Format α where
  write v := count.write (measure v) ++ (body (measure v)).write v
  size v := count.size (measure v) + (body (measure v)).size v
  read b := do
    let (n, rest) ← count.read b
    (body n).read rest

/-- Reads `n` values behind the reverse of `done`. -/
def readTimes (read : Reader α) : (n : Nat) → (done : List α) → Reader (List α)
  | 0, done, b => .ok (done.reverse, b)
  | n + 1, done, b =>
    match read b with
    | .error e => .error e
    | .ok (v, rest) => readTimes read n (v :: done) rest

/-- `n` values, one after another. -/
def times (f : Format α) (n : Nat) : Format (List α) where
  write vs := vs.flatMap f.write
  size vs := vs.foldr (fun v n => f.size v + n) 0
  read := readTimes f.read n []

/-! ### Numbers of fixed width, and flags -/

def uint16 : Format UInt16 := (word 2).iso UInt16.ofNat UInt16.toNat

def uint32 : Format UInt32 := (word 4).iso UInt32.ofNat UInt32.toNat

def uint64 : Format UInt64 := (word 8).iso UInt64.ofNat UInt64.toNat

/-- A flag is a byte that is zero or one. -/
def flag : Format Bool :=
  uint8.refine
    (fun v =>
      if v = 0 then .ok false else if v = 1 then .ok true else .error (.invalidTag "bool" v))
    (fun v => if v then 1 else 0)

/-- Byte strings whose length is part of their type. -/
def fixed (n : Nat) : Format (FixedBytes n) where
  write v := v.toBytes
  size _ := n
  read b :=
    match FixedBytes.ofBytes? n (b.take n) with
    | some v => .ok (v, b.drop n)
    | none => .error .endOfBuffer

/-- A byte that is always `tag`; any other is refused as a tag of `context`. -/
def constant (context : String) (tag : UInt8) : Format Unit :=
  uint8.refine (fun v => if v = tag then .ok () else .error (.invalidTag context v)) (fun _ => tag)

end Format

end ChainGovernance.Wire
