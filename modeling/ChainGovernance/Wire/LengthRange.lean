/-!
The lengths that a reader accepts at one place: a range whose ends may be included, excluded or
missing.
-/

namespace ChainGovernance.Wire

/-- One end of a range. -/
inductive Bound
  | included (n : Nat)
  | excluded (n : Nat)
  | unbounded
deriving DecidableEq

/-- A range of lengths. Without ends it holds every length. -/
structure LengthRange where
  start : Bound := .unbounded
  stop : Bound := .unbounded
deriving DecidableEq

namespace LengthRange

/-- Whether a length lies in the range. -/
def contains (range : LengthRange) (n : Nat) : Bool :=
  (match range.start with
    | .included a => a ≤ n
    | .excluded a => a < n
    | .unbounded => true) &&
  (match range.stop with
    | .included b => n ≤ b
    | .excluded b => n < b
    | .unbounded => true)

def upTo (n : Nat) : LengthRange := { stop := .included n }

/-- The lengths from `a` up to `b`. -/
def between (a b : Nat) : LengthRange := { start := .included a, stop := .included b }

def exactly (n : Nat) : LengthRange := between n n

end LengthRange

end ChainGovernance.Wire
