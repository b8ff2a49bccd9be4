import Mathlib.Tactic
import ChainGovernance.Merkle

/-!
Roots from the top.

A root is made level by level, from the bottom up. Seen from the top, the digests are split behind the
largest power of two that is less than their number, and the root is the node above the roots of the two
parts. The step from one view to the other is that a level above two parts is made of the levels above
them, if the first part has an even length; a power of two stays even until it is one.

An accumulator makes the same roots with a single hasher, because every node leaves the hasher with
nothing recorded.
-/

namespace ChainGovernance.Merkle

/-! ### Levels of two parts -/

theorem above_append : (xs ys : List Digest) → Even xs.length →
    above (xs ++ ys) = above xs ++ above ys
  | [], _, _ => rfl
  | [_], _, h => absurd h Nat.not_even_one
  | left :: right :: rest, ys, h => by
    have hrest : Even rest.length := by
      simpa only [List.length_cons, add_assoc, Nat.even_add, Nat.reduceAdd, even_two,
        iff_true] using h
    simp only [List.cons_append, above, above_append rest ys hrest]

theorem root_above : (ds : List Digest) → root (above ds) = root ds
  | [] => rfl
  | [_] => rfl
  | left :: right :: rest => by
    conv => rhs; rw [root]

/-- The root over more digests than a power of two, and at most twice as many. -/
theorem root_eq_node {j : Nat} {ds : List Digest} (h : 2 ^ j < ds.length)
    (h' : ds.length ≤ 2 ^ (j + 1)) :
    root ds = node (root (ds.take (2 ^ j))) (root (ds.drop (2 ^ j))) := by
  induction j generalizing ds with
  | zero =>
    match ds, h, h' with
    | [left, right], _, _ =>
      change root [left, right] = node (root [left]) (root [right])
      simp only [root, above]
  | succ j ih =>
    have hpow : 2 ^ (j + 1) = 2 * 2 ^ j := pow_succ' 2 j
    have hpow' : 2 ^ (j + 1 + 1) = 2 * 2 ^ (j + 1) := pow_succ' 2 (j + 1)
    have hfront : (ds.take (2 ^ (j + 1))).length = 2 ^ (j + 1) :=
      List.length_take_of_le (Nat.le_of_lt h)
    have hlevel : above ds = above (ds.take (2 ^ (j + 1))) ++ above (ds.drop (2 ^ (j + 1))) := by
      rw [← above_append, List.take_append_drop]
      rw [hfront, hpow]
      exact even_two_mul _
    have hleft : (above (ds.take (2 ^ (j + 1)))).length = 2 ^ j := by
      rw [length_above, hfront]
      omega
    have hlength : 2 ^ j < (above ds).length ∧ (above ds).length ≤ 2 ^ (j + 1) := by
      rw [length_above]
      omega
    -- one level up, the same split is behind half the power
    calc root ds = root (above ds) := (root_above ds).symm
      _ = node (root ((above ds).take (2 ^ j))) (root ((above ds).drop (2 ^ j))) :=
          ih hlength.1 hlength.2
      _ = node (root (above (ds.take (2 ^ (j + 1))))) (root (above (ds.drop (2 ^ (j + 1))))) := by
          rw [hlevel, List.take_left' hleft, List.drop_left' hleft]
      _ = node (root (ds.take (2 ^ (j + 1)))) (root (ds.drop (2 ^ (j + 1)))) := by
          rw [root_above, root_above]

/-! ### Where a list is split -/

/-- `k` is the largest power of two below `n`. -/
def SplitsAt (n k : Nat) : Prop := IsGreatest {m | (∃ j, m = 2 ^ j) ∧ m < n} k

theorem splitsAt_iff {n k : Nat} : SplitsAt n k ↔ ∃ j, k = 2 ^ j ∧ 2 ^ j < n ∧ n ≤ 2 ^ (j + 1) := by
  constructor
  · rintro ⟨⟨⟨j, rfl⟩, hlt⟩, hmax⟩
    refine ⟨j, rfl, hlt, Nat.le_of_not_lt fun hnext => ?_⟩
    have hle : 2 ^ (j + 1) ≤ 2 ^ j := hmax ⟨⟨j + 1, rfl⟩, hnext⟩
    exact absurd hle (Nat.not_le.2 (Nat.pow_lt_pow_succ Nat.one_lt_two))
  · rintro ⟨j, rfl, hlt, hle⟩
    refine ⟨⟨⟨j, rfl⟩, hlt⟩, ?_⟩
    rintro _ ⟨⟨i, rfl⟩, hi⟩
    have hij : i < j + 1 := (Nat.pow_lt_pow_iff_right Nat.one_lt_two).1 (Nat.lt_of_lt_of_le hi hle)
    exact Nat.pow_le_pow_right Nat.two_pos (Nat.le_of_lt_succ hij)

theorem exists_splitsAt {n : Nat} (h : 2 ≤ n) : ∃ k, SplitsAt n k := by
  obtain ⟨j, hle, hlt⟩ := exists_nat_pow_near (x := n - 1) (y := 2) (by omega) Nat.one_lt_two
  exact ⟨2 ^ j, splitsAt_iff.2 ⟨j, rfl, by omega, by omega⟩⟩

/-! ### One hasher for all nodes -/

theorem join_fresh (left right : Digest) : join {} left right = (node left right, {}) := rfl

theorem joinLevel_fresh : (level : List Digest) → joinLevel {} level = (above level, {})
  | [] => rfl
  | [_] => rfl
  | left :: right :: rest => by
    simp only [joinLevel, join_fresh, joinLevel_fresh rest, above]

theorem joinAll_fresh (level : List Digest) : joinAll {} level = root level := by
  fun_induction root level with
  | case1 => rw [joinAll]
  | case2 d => rw [joinAll]
  | case3 left right rest ih =>
    rw [joinAll, joinLevel_fresh]
    exact ih

namespace Accumulator

/-- Adds digests one after another, and tells their positions. -/
def addAll (a : Accumulator) : List Digest → List Nat × Accumulator
  | [] => ([], a)
  | d :: ds =>
    let (i, a) := a.add d
    let (is, a) := a.addAll ds
    (i :: is, a)

theorem addAll_eq (a : Accumulator) (ds : List Digest) :
    a.addAll ds =
      (List.range' a.leaves.length ds.length, { a with leaves := a.leaves ++ ds }) := by
  induction ds generalizing a with
  | nil => simp [addAll]
  | cons d ds ih =>
    simp only [addAll, add, ih, List.length_append, List.length_cons, List.length_nil,
      Nat.zero_add, List.append_assoc, List.singleton_append, List.range'_succ]

end Accumulator

/-! ### The root of a list -/

/-- **Roots split at powers of two.** The root of no digests is zero, that of one is itself, and that of
more is the double hash of the roots of two parts, the first of which has the largest power of two for
its length that is less than the whole. An accumulator to which the digests are added one by one gives
each of them its position, and has this root. -/
theorem root_recursive :
    root [] = .zero ∧ (∀ d, root [d] = d) ∧
    (∀ ds, 2 ≤ ds.length → ∃ k, SplitsAt ds.length k ∧
      root ds = hash (hash ((root (ds.take k)).toBytes ++ (root (ds.drop k)).toBytes)).toBytes) ∧
    ∀ ds, (({} : Accumulator).addAll ds).1 = List.range ds.length ∧
      (({} : Accumulator).addAll ds).2.root = root ds := by
  refine ⟨by rw [root], fun d => by rw [root], fun ds hds => ?_, fun ds => ?_⟩
  · obtain ⟨k, hk⟩ := exists_splitsAt hds
    obtain ⟨j, rfl, hlt, hle⟩ := splitsAt_iff.1 hk
    exact ⟨2 ^ j, hk, root_eq_node hlt hle⟩
  · rw [Accumulator.addAll_eq]
    exact ⟨List.range_eq_range'.symm, joinAll_fresh ds⟩

/-- Five digests that are told apart by their last byte. -/
def fiveLeaves : List Digest :=
  [1, 2, 3, 4, 5].map fun n => ⟨⟨List.replicate 31 0 ++ [n], rfl⟩⟩

/-- Five digests are split behind the fourth. -/
theorem root_recursive_five : 2 ≤ fiveLeaves.length ∧ SplitsAt fiveLeaves.length 4 ∧
    root fiveLeaves = hash (hash ((root (fiveLeaves.take 4)).toBytes ++
      (root (fiveLeaves.drop 4)).toBytes)).toBytes := by
  have hlength : 2 ≤ fiveLeaves.length := by decide
  have hfour : SplitsAt fiveLeaves.length 4 := splitsAt_iff.2 ⟨2, by decide⟩
  obtain ⟨k, hk, hroot⟩ := root_recursive.2.2.1 fiveLeaves hlength
  obtain rfl : k = 4 := hk.unique hfour
  exact ⟨hlength, hfour, hroot⟩

end ChainGovernance.Merkle
