import ChainGovernance.Hash.Digest

/-!
The root of a list of digests.

Level by level, neighbours are joined from the left into the double hash of the two; the last one
of an odd number goes up as it is. The root of no digests is zero, and that of a single one is
itself.
-/

namespace ChainGovernance.Merkle

/-- What is hashed for the node above two others. -/
def nodeInput (left right : Digest) : Bytes := left.toBytes ++ right.toBytes

def node (left right : Digest) : Digest := doubleHash (nodeInput left right)

/-- The level above a level. -/
def above : List Digest → List Digest
  | left :: right :: rest => node left right :: above rest
  | rest => rest

theorem length_above : (level : List Digest) → (above level).length = (level.length + 1) / 2
  | [] => rfl
  | [_] => by simp [above]
  | _ :: _ :: rest => by simp [above, length_above rest]; omega

/-- The root over a list of digests. -/
def root : List Digest → Digest
  | [] => .zero
  | [d] => d
  | left :: right :: rest => root (above (left :: right :: rest))
termination_by level => level.length
decreasing_by simp [length_above]; omega

/-! ### Collecting digests -/

/-- Hashes two digests into the node above them. The hasher is left with nothing recorded. -/
def join (h : Hasher) (left right : Digest) : Digest × Hasher :=
  let (inner, h) := ((h.update left.toBytes).update right.toBytes).finalize
  (hash inner.toBytes, h)

/-- The level above a level, with one hasher for all its nodes. -/
def joinLevel (h : Hasher) : List Digest → List Digest × Hasher
  | left :: right :: rest =>
    let (d, h) := join h left right
    let (ds, h) := joinLevel h rest
    (d :: ds, h)
  | rest => (rest, h)

theorem length_joinLevel : (h : Hasher) → (level : List Digest) →
    (joinLevel h level).1.length = (level.length + 1) / 2
  | _, [] => rfl
  | _, [_] => by simp [joinLevel]
  | h, left :: right :: rest => by
    simp only [joinLevel, List.length_cons, length_joinLevel (join h left right).2 rest]
    omega

/-- Joins level after level, until one digest is left. -/
def joinAll (h : Hasher) : List Digest → Digest
  | [] => .zero
  | [d] => d
  | left :: right :: rest =>
    let above := joinLevel h (left :: right :: rest)
    joinAll above.2 above.1
termination_by level => level.length
decreasing_by simp [length_joinLevel]; omega

/-- Digests that are collected one by one, with the hasher that will join them. -/
structure Accumulator where
  hasher : Hasher := {}
  leaves : List Digest := []

namespace Accumulator

/-- Adds a digest, and tells its position. -/
def add (a : Accumulator) (leaf : Digest) : Nat × Accumulator :=
  (a.leaves.length, { a with leaves := a.leaves ++ [leaf] })

/-- The root over the digests that were added. -/
def root (a : Accumulator) : Digest := joinAll a.hasher a.leaves

end Accumulator

end ChainGovernance.Merkle
