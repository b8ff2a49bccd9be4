/-!
Arithmetic on the coordinates of points: modulo `2 ^ 255 - 19`, on numbers below it.

A power is taken bit by bit from the highest, so an exponent of `k` bits costs at most `2 * k`
products. A quotient of squares is found as `u * v ^ 3 * (u * v ^ 7) ^ ((prime - 5) / 8)`, up to the
root of minus one.
-/

namespace ChainGovernance.Ed25519

/-- The lowest `width` bits of a number, the highest first. -/
def bits (width n : Nat) : List Bool := (List.range width).reverse.map n.testBit

namespace Coordinate

/-- The modulus, `2 ^ 255 - 19`. -/
def prime : Nat := 0x7fffffffffffffffffffffffffffffffffffffffffffffffffffffffffffffed

def add (a b : Nat) : Nat := (a + b) % prime

def sub (a b : Nat) : Nat := (a + (prime - b % prime)) % prime

def mul (a b : Nat) : Nat := a * b % prime

/-- The power with an exponent below `2 ^ 255`. -/
def pow (a e : Nat) : Nat :=
  (bits 255 e).foldl (fun r bit => let s := mul r r; if bit then mul s a else s) 1

/-- The inverse, and zero for zero. -/
def inv (a : Nat) : Nat := pow a (prime - 2)

/-- A root of minus one. -/
def rootOfMinusOne : Nat := pow 2 ((prime - 1) / 4)

/-- A root of `u / v`, if it has one. -/
def rootOfQuotient? (u v : Nat) : Option Nat :=
  let v3 := mul (mul v v) v
  let v7 := mul (mul v3 v3) v
  let r := mul (mul u v3) (pow (mul u v7) ((prime - 5) / 8))
  let square := mul v (mul r r)
  if square = u % prime then some r
  else if square = sub 0 u then some (mul r rootOfMinusOne)
  else none

end Coordinate

end ChainGovernance.Ed25519
