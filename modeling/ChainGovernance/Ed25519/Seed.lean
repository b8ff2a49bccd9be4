import ChainGovernance.Ed25519.Key

/-!
Private keys that anybody can make again from a number of 64 bits. They keep no secret.

The number is stretched to a stream-cipher key of 32 bytes by a congruential generator whose
output is rotated by its highest bits. The private key is the start of the key stream of ChaCha
with twelve rounds.
-/

namespace ChainGovernance.Ed25519.Seed

def rotateLeft (x n : UInt32) : UInt32 := (x <<< n) ||| (x >>> (32 - n))

/-! ### Rows of words -/

/-- A row of four words. -/
structure Row where
  w0 : UInt32
  w1 : UInt32
  w2 : UInt32
  w3 : UInt32

namespace Row

/-- The words of two rows, each combined with the one in its place. -/
def combine (f : UInt32 → UInt32 → UInt32) (x y : Row) : Row :=
  ⟨f x.w0 y.w0, f x.w1 y.w1, f x.w2 y.w2, f x.w3 y.w3⟩

/-- The row that starts at the next word. -/
def turn (x : Row) : Row := ⟨x.w1, x.w2, x.w3, x.w0⟩

/-- The bytes of a row, the lowest of each word first. -/
def bytes (x : Row) : Bytes :=
  [x.w0, x.w1, x.w2, x.w3].flatMap fun w => LittleEndian.encode 4 w.toNat

@[simp] theorem length_bytes (x : Row) : x.bytes.length = 16 := by simp [bytes]

end Row

/-! ### The cipher key -/

/-- The next state of the generator. -/
def next (s : UInt64) : UInt64 := s * 6364136223846793005 + 11634580027462260723

/-- What the generator puts out in a state. -/
def output (s : UInt64) : UInt32 :=
  let x := (((s >>> 18) ^^^ s) >>> 27).toUInt32
  let n := (s >>> 59).toUInt32
  (x >>> n) ||| (x <<< ((32 - n) % 32))

/-- The state after `n` more steps. -/
def after (s : UInt64) : (n : Nat) → UInt64
  | 0 => s
  | n + 1 => after (next s) n

/-- The cipher key: what is put out in the eight states that follow the number. -/
def key (seed : UInt64) : Row × Row :=
  let word n := output (after seed n)
  (⟨word 1, word 2, word 3, word 4⟩, ⟨word 5, word 6, word 7, word 8⟩)

/-! ### The key stream -/

/-- The state of the cipher: four rows, one above the other. -/
structure Rows where
  a : Row
  b : Row
  c : Row
  d : Row

/-- Adds `y` to `x`, and mixes the sums into `z`, rotated by `n`. -/
def mix (n : UInt32) (x y z : Row) : Row × Row :=
  let sums := Row.combine (· + ·) x y
  (sums, Row.combine (fun s w => rotateLeft (w ^^^ s) n) sums z)

/-- A quarter round in each of the four columns. -/
def columns (r : Rows) : Rows :=
  let (a, d) := mix 16 r.a r.b r.d
  let (c, b) := mix 12 r.c d r.b
  let (a, d) := mix 8 a b d
  let (c, b) := mix 7 c d b
  ⟨a, b, c, d⟩

/-- A round on the columns, and one on the diagonals. -/
def doubleRound (r : Rows) : Rows :=
  let r := columns r
  let r := columns ⟨r.a, r.b.turn, r.c.turn.turn, r.d.turn.turn.turn⟩
  ⟨r.a, r.b.turn.turn.turn, r.c.turn.turn, r.d.turn⟩

/-- The first two rows of the key stream, for counter and nonce zero. -/
def keyStream (key : Row × Row) : Row × Row :=
  let start : Rows :=
    ⟨⟨0x61707865, 0x3320646e, 0x79622d32, 0x6b206574⟩, key.1, key.2, ⟨0, 0, 0, 0⟩⟩
  let r := (List.range 6).foldl (fun r _ => doubleRound r) start
  (Row.combine (· + ·) start.a r.a, Row.combine (· + ·) start.b r.b)

end Seed

end ChainGovernance.Ed25519

namespace ChainGovernance.PrivateKey

open Ed25519.Seed in
/-- The key of a number. -/
def ofSeed (seed : UInt64) : PrivateKey :=
  let stream := keyStream (key seed)
  ⟨⟨stream.1.bytes ++ stream.2.bytes, by simp⟩⟩

end ChainGovernance.PrivateKey
