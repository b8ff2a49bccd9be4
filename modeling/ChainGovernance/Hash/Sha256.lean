import ChainGovernance.Bytes.Basic

/-!
The hash function SHA-256.

A message is padded to whole blocks of 64 bytes. Each block is stretched to 64 words, and as
many rounds stir them into eight words of state, which are the hash when the last block is done.
-/

namespace ChainGovernance.Hash.Sha256

/-- The eight words of state. -/
structure State where
  a : UInt32
  b : UInt32
  c : UInt32
  d : UInt32
  e : UInt32
  f : UInt32
  g : UInt32
  h : UInt32

/-- The state before the first block: the square roots of the first eight primes, behind the
point. -/
def State.initial : State :=
  ⟨0x6a09e667, 0xbb67ae85, 0x3c6ef372, 0xa54ff53a,
   0x510e527f, 0x9b05688c, 0x1f83d9ab, 0x5be0cd19⟩

/-- One word for each round: the cube roots of the first 64 primes, behind the point. -/
def roundWords : List UInt32 :=
  [0x428a2f98, 0x71374491, 0xb5c0fbcf, 0xe9b5dba5, 0x3956c25b, 0x59f111f1, 0x923f82a4, 0xab1c5ed5,
   0xd807aa98, 0x12835b01, 0x243185be, 0x550c7dc3, 0x72be5d74, 0x80deb1fe, 0x9bdc06a7, 0xc19bf174,
   0xe49b69c1, 0xefbe4786, 0x0fc19dc6, 0x240ca1cc, 0x2de92c6f, 0x4a7484aa, 0x5cb0a9dc, 0x76f988da,
   0x983e5152, 0xa831c66d, 0xb00327c8, 0xbf597fc7, 0xc6e00bf3, 0xd5a79147, 0x06ca6351, 0x14292967,
   0x27b70a85, 0x2e1b2138, 0x4d2c6dfc, 0x53380d13, 0x650a7354, 0x766a0abb, 0x81c2c92e, 0x92722c85,
   0xa2bfe8a1, 0xa81a664b, 0xc24b8b70, 0xc76c51a3, 0xd192e819, 0xd6990624, 0xf40e3585, 0x106aa070,
   0x19a4c116, 0x1e376c08, 0x2748774c, 0x34b0bcb5, 0x391c0cb3, 0x4ed8aa4a, 0x5b9cca4f, 0x682e6ff3,
   0x748f82ee, 0x78a5636f, 0x84c87814, 0x8cc70208, 0x90befffa, 0xa4506ceb, 0xbef9a3f7, 0xc67178f2]

def rotate (x : UInt32) (n : UInt32) : UInt32 := (x >>> n) ||| (x <<< (32 - n))

/-- How the second word of state is mixed into the first. -/
def mixA (x : UInt32) : UInt32 := rotate x 2 ^^^ rotate x 13 ^^^ rotate x 22

/-- How the fifth word of state is mixed in. -/
def mixE (x : UInt32) : UInt32 := rotate x 6 ^^^ rotate x 11 ^^^ rotate x 25

/-- How a word enters the schedule fifteen words later. -/
def stretchFar (x : UInt32) : UInt32 := rotate x 7 ^^^ rotate x 18 ^^^ (x >>> 3)

/-- How a word enters the schedule two words later. -/
def stretchNear (x : UInt32) : UInt32 := rotate x 17 ^^^ rotate x 19 ^^^ (x >>> 10)

/-- Appends `n` words to a schedule that stands in reverse, the newest word first. -/
def stretch : (n : Nat) → List UInt32 → List UInt32
  | 0, ws => ws
  | n + 1, ws =>
    stretch n ((stretchNear (ws.getD 1 0) + ws.getD 6 0 + stretchFar (ws.getD 14 0) +
      ws.getD 15 0) :: ws)

/-- The words of the rounds over a block of sixteen words. -/
def schedule (block : List UInt32) : List UInt32 := (stretch 48 block.reverse).reverse

def round (s : State) (k w : UInt32) : State :=
  let choice := (s.e &&& s.f) ^^^ (~~~s.e &&& s.g)
  let majority := (s.a &&& s.b) ^^^ (s.a &&& s.c) ^^^ (s.b &&& s.c)
  let t := s.h + mixE s.e + choice + k + w
  ⟨t + mixA s.a + majority, s.a, s.b, s.c, s.d + t, s.e, s.f, s.g⟩

/-- Stirs a block into the state. -/
def compress (s : State) (block : List UInt32) : State :=
  let t := (roundWords.zip (schedule block)).foldl (fun t kw => round t kw.1 kw.2) s
  ⟨s.a + t.a, s.b + t.b, s.c + t.c, s.d + t.d, s.e + t.e, s.f + t.f, s.g + t.g, s.h + t.h⟩

/-- The word that bytes denote, the highest first. -/
def word (b : Bytes) : UInt32 := b.foldl (fun w x => (w <<< 8) ||| x.toUInt32) 0

/-- The bytes of a word, the highest first. -/
def wordBytes (w : UInt32) : Bytes :=
  [(w >>> 24).toUInt8, (w >>> 16).toUInt8, (w >>> 8).toUInt8, w.toUInt8]

def blockWords (block : Bytes) : List UInt32 := (block.chunks 4 16).map word

/-- The message, a one bit, zeros, and the number of bits of the message, in whole blocks. -/
def pad (message : Bytes) : Bytes :=
  let n := message.length
  let zeros := (119 - n % 64) % 64
  message ++ 0x80 :: (List.replicate zeros 0 ++ lengthBytes (8 * n))
where
  /-- The lowest eight bytes of a number, the highest first. -/
  lengthBytes (n : Nat) : Bytes :=
    [56, 48, 40, 32, 24, 16, 8, 0].map fun k => UInt8.ofNat (n >>> k)

def State.bytes (s : State) : Bytes :=
  wordBytes s.a ++ wordBytes s.b ++ wordBytes s.c ++ wordBytes s.d ++
  wordBytes s.e ++ wordBytes s.f ++ wordBytes s.g ++ wordBytes s.h

def hash (message : Bytes) : Bytes :=
  let padded := pad message
  ((padded.chunks 64 (padded.length / 64)).foldl
    (fun s b => compress s (blockWords b)) State.initial).bytes

@[simp] theorem length_hash (message : Bytes) : (hash message).length = 32 := rfl

end ChainGovernance.Hash.Sha256
