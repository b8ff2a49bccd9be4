import ChainGovernance.Bytes.LittleEndian
import ChainGovernance.Ed25519.Coordinate

/-!
The twisted Edwards curve `y² - x² = 1 + d x² y²` and its points as 32 bytes.

A point is kept as `(X, Y, Z, T)` with `x = X / Z`, `y = Y / Z` and `x y = T / Z`; one addition law
serves for all pairs of points. The bytes of a point are `y`, the lowest byte first, and the parity
of `x` as the highest bit. Reading takes `y` modulo the prime, and takes the parity bit of a point
with `x = 0` as it comes.
-/

namespace ChainGovernance.Ed25519

structure Point where
  x : Nat
  y : Nat
  z : Nat
  t : Nat

/-- The order of the subgroup that the base point generates, a little above `2 ^ 252`. -/
def order : Nat := 0x1000000000000000000000000000000014def9dea2f79cd65812631a5cf5d3ed

/-- The weight of the highest bit of 32 bytes, `2 ^ 255`. -/
def parityWeight : Nat := 0x8000000000000000000000000000000000000000000000000000000000000000

namespace Point

open Coordinate

/-- The coefficient `d`, which is `-121665 / 121666`. -/
def d : Nat := mul (sub 0 121665) (inv 121666)

def neutral : Point := ⟨0, 1, 1, 0⟩

/-- The point with coordinates `x` and `y`. -/
def ofAffine (x y : Nat) : Point := ⟨x, y, 1, mul x y⟩

def add (p q : Point) : Point :=
  let a := mul (sub p.y p.x) (sub q.y q.x)
  let b := mul (Coordinate.add p.y p.x) (Coordinate.add q.y q.x)
  let c := mul (mul p.t q.t) (mul 2 d)
  let s := mul (mul 2 p.z) q.z
  let e := sub b a
  let f := sub s c
  let g := Coordinate.add s c
  let h := Coordinate.add b a
  ⟨mul e f, mul g h, mul f g, mul e h⟩

def neg (p : Point) : Point := ⟨sub 0 p.x, p.y, p.z, sub 0 p.t⟩

/-- The multiple of a point by a number below `2 ^ 256`. -/
def smul (n : Nat) (p : Point) : Point :=
  (bits 256 n).foldl (fun r bit => let s := add r r; if bit then add s p else s) neutral

/-- Whether a point is the neutral one. -/
def isNeutral (p : Point) : Bool := p.x % prime = 0 && p.y % prime = p.z % prime

/-- The point that 32 bytes denote, if there is one. -/
def ofBytes? (b : Bytes) : Option Point :=
  let n := LittleEndian.decode b
  let y := n % parityWeight % prime
  let parity := n / parityWeight % 2
  let y2 := mul y y
  match rootOfQuotient? (sub y2 1) (Coordinate.add (mul d y2) 1) with
  | none => none
  | some r => some (ofAffine (if r % 2 = parity then r else sub 0 r) y)

def toBytes (p : Point) : Bytes :=
  let w := inv p.z
  let x := mul p.x w
  let y := mul p.y w
  LittleEndian.encode 32 (y + parityWeight * (x % 2))

@[simp] theorem length_toBytes (p : Point) : p.toBytes.length = 32 := by
  simp [toBytes]

/-- The base point: `y = 4 / 5`, and the even one of the two `x`. -/
def base : Point :=
  ofAffine 15112221349535400772501151409588531511454012693041857206046113283949847762202
    46316835694926478169428394003475163141307993866256225615783033603165251855960

end Point

end ChainGovernance.Ed25519
