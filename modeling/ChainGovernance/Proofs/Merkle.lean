import Mathlib.Tactic
import ChainGovernance.Merkle

/-!
What the root over a list of digests commits to.

`inputs` are the messages that are hashed for a root. Every root is that of a `Tree`, whose leaves are
the digests and whose shape follows from their number. Two trees with one root are the same tree, as
far as the double hash does not collide on their inputs and no leaf of one is a node of the other; so
they have the same leaves, whether or not their numbers were known to agree.
-/

namespace ChainGovernance

/-- The double hash neither takes two of some messages to one digest, nor one of them to zeros. -/
structure CollisionFree (messages : List Bytes) : Prop where
  injective : ∀ m ∈ messages, ∀ m' ∈ messages, doubleHash m = doubleHash m' → m = m'
  ne_zero : ∀ m ∈ messages, doubleHash m ≠ .zero

theorem collisionFree_iff {messages : List Bytes} : CollisionFree messages ↔
    (∀ m ∈ messages, ∀ m' ∈ messages, doubleHash m = doubleHash m' → m = m') ∧
      ∀ m ∈ messages, doubleHash m ≠ .zero :=
  ⟨fun h => ⟨h.injective, h.ne_zero⟩, fun h => ⟨h.1, h.2⟩⟩

instance (messages : List Bytes) : Decidable (CollisionFree messages) :=
  decidable_of_iff _ collisionFree_iff.symm

theorem CollisionFree.mono {messages messages' : List Bytes} (h : CollisionFree messages')
    (hsub : messages ⊆ messages') : CollisionFree messages :=
  ⟨fun m hm m' hm' => h.injective m (hsub hm) m' (hsub hm'), fun m hm => h.ne_zero m (hsub hm)⟩

namespace Merkle

/-! ### What is hashed -/

/-- What is hashed for the level above a level. -/
def inputsAbove : List Digest → List Bytes
  | left :: right :: rest => nodeInput left right :: inputsAbove rest
  | _ => []

/-- What is hashed for the root over a list of digests. -/
def inputs : List Digest → List Bytes
  | left :: right :: rest =>
    inputsAbove (left :: right :: rest) ++ inputs (above (left :: right :: rest))
  | _ => []
termination_by level => level.length
decreasing_by simp [length_above]; omega

theorem length_nodeInput (left right : Digest) : (nodeInput left right).length = 64 := by
  rw [nodeInput, List.length_append, left.length_eq, right.length_eq]

theorem nodeInput_injective {l r l' r' : Digest} (h : nodeInput l r = nodeInput l' r') :
    l = l' ∧ r = r' := by
  obtain ⟨hl, hr⟩ := List.append_inj h (l.length_eq.trans l'.length_eq.symm)
  exact ⟨Digest.eq_of_toBytes_eq hl, Digest.eq_of_toBytes_eq hr⟩

/-! ### Trees -/

/-- A tree over digests. -/
inductive Tree
  | leaf (d : Digest)
  | node (left right : Tree)

namespace Tree

/-- The digest at the root. -/
def digest : Tree → Digest
  | leaf d => d
  | node left right => Merkle.node left.digest right.digest

def leaves : Tree → List Digest
  | leaf d => [d]
  | node left right => left.leaves ++ right.leaves

def inputs : Tree → List Bytes
  | leaf _ => []
  | node left right => nodeInput left.digest right.digest :: (left.inputs ++ right.inputs)

/-- The level above a level of trees. -/
def above : List Tree → List Tree
  | left :: right :: rest => node left right :: above rest
  | rest => rest

theorem map_digest_above : (level : List Tree) →
    (above level).map digest = Merkle.above (level.map digest)
  | [] => rfl
  | [_] => rfl
  | left :: right :: rest => by
    simp only [above, Merkle.above, List.map_cons, map_digest_above rest, digest]

theorem flatMap_leaves_above : (level : List Tree) →
    (above level).flatMap leaves = level.flatMap leaves
  | [] => rfl
  | [_] => rfl
  | left :: right :: rest => by
    simp only [above, List.flatMap_cons, flatMap_leaves_above rest, leaves, List.append_assoc]

theorem flatMap_inputs_above : (level : List Tree) →
    (above level).flatMap inputs ⊆ inputsAbove (level.map digest) ++ level.flatMap inputs
  | [] => List.Subset.refl _
  | [_] => List.Subset.refl _
  | left :: right :: rest => by
    have ih := flatMap_inputs_above rest
    intro m hm
    simp only [above, List.flatMap_cons, inputs, List.cons_append, List.append_assoc,
      List.mem_cons, List.mem_append] at hm
    have hrest (h : m ∈ (above rest).flatMap inputs) := List.mem_append.1 (ih h)
    simp only [inputsAbove, List.map_cons, List.flatMap_cons, List.cons_append, List.mem_cons,
      List.mem_append]
    tauto

theorem length_above (level : List Tree) : (above level).length = (level.length + 1) / 2 := by
  rw [← List.length_map digest, map_digest_above, Merkle.length_above, List.length_map]

/-- Joining trees level by level ends in one tree. -/
theorem exists_join : (level : List Tree) → level ≠ [] →
    ∃ t : Tree, t.digest = root (level.map digest) ∧ t.leaves = level.flatMap leaves ∧
      t.inputs ⊆ Merkle.inputs (level.map digest) ++ level.flatMap inputs
  | [], h => absurd rfl h
  | [t], _ => by
    refine ⟨t, ?_, ?_, ?_⟩
    · simp [root]
    · simp
    · simp
  | left :: right :: rest, _ => by
    -- one level up there are fewer trees, over the same leaves
    obtain ⟨t, hdigest, hleaves, hinputs⟩ :=
      exists_join (above (left :: right :: rest)) (List.cons_ne_nil _ _)
    rw [map_digest_above] at hdigest hinputs
    refine ⟨t, ?_, ?_, ?_⟩
    · rw [hdigest]
      simp only [List.map_cons, root]
    · rw [hleaves, flatMap_leaves_above]
    · have habove := flatMap_inputs_above (left :: right :: rest)
      intro m hm
      have hm := hinputs hm
      simp only [List.map_cons, Merkle.inputs, List.mem_append] at hm habove ⊢
      rcases hm with hm | hm
      · exact .inl (.inr hm)
      · rcases List.mem_append.1 (habove hm) with hm | hm
        · exact .inl (.inl hm)
        · exact .inr hm
termination_by level => level.length
decreasing_by simp [length_above]; omega

/-- Every root is the root of a tree over the digests. -/
theorem exists_of_root {ds : List Digest} (h : ds ≠ []) :
    ∃ t : Tree, t.digest = root ds ∧ t.leaves = ds ∧ t.inputs ⊆ Merkle.inputs ds := by
  have hdigest : (ds.map leaf).map digest = ds := by
    rw [List.map_map]
    exact List.map_id ds
  have hleaves : (ds.map leaf).flatMap leaves = ds := by
    rw [List.flatMap_map]
    exact List.flatMap_singleton' ds
  have hinputs : (ds.map leaf).flatMap inputs = [] := by
    rw [List.flatMap_map]
    exact List.flatMap_eq_nil_iff.2 fun _ _ => rfl
  have hjoin := exists_join (ds.map leaf) (mt List.map_eq_nil_iff.1 h)
  rwa [hdigest, hleaves, hinputs, List.append_nil] at hjoin

end Tree

/-! ### Roots are binding -/

section Binding

variable {messages : List Bytes} (hfree : CollisionFree messages)

/-- A digest is not that of a node whose input is among some messages. -/
def NoNode (messages : List Bytes) (d : Digest) : Prop :=
  ∀ left right, nodeInput left right ∈ messages → node left right ≠ d

include hfree

/-- Sixty-four bytes are hashed for a node, so what has another length is hashed to no node. -/
theorem noNode_doubleHash {m : Bytes} (hm : m ∈ messages) (hlength : m.length ≠ 64) :
    NoNode messages (doubleHash m) := by
  intro left right hinput h
  have heq : nodeInput left right = m := hfree.injective _ hinput _ hm h
  exact hlength (heq ▸ length_nodeInput left right)

theorem Tree.eq_of_digest_eq {t t' : Tree} (ht : t.inputs ⊆ messages) (ht' : t'.inputs ⊆ messages)
    (hd : ∀ d ∈ t.leaves, NoNode messages d) (hd' : ∀ d ∈ t'.leaves, NoNode messages d)
    (h : t.digest = t'.digest) : t = t' := by
  induction t generalizing t' with
  | leaf d =>
    cases t' with
    | leaf d' => exact congrArg leaf h
    | node l' r' =>
      -- trees of different shapes: a leaf of one would be a node of the other
      have hinput := ht' List.mem_cons_self
      exact absurd h.symm (hd d List.mem_cons_self _ _ hinput)
  | node l r ihl ihr =>
    cases t' with
    | leaf d' =>
      have hinput := ht List.mem_cons_self
      exact absurd h (hd' d' List.mem_cons_self _ _ hinput)
    | node l' r' =>
      have hinput := hfree.injective _ (ht List.mem_cons_self) _ (ht' List.mem_cons_self) h
      obtain ⟨hl, hr⟩ := nodeInput_injective hinput
      obtain ⟨htl, htr⟩ := List.append_subset.1 (List.subset_of_cons_subset ht)
      obtain ⟨htl', htr'⟩ := List.append_subset.1 (List.subset_of_cons_subset ht')
      obtain ⟨hdl, hdr⟩ := List.forall_mem_append.1 hd
      obtain ⟨hdl', hdr'⟩ := List.forall_mem_append.1 hd'
      rw [ihl htl htl' hdl hdl' hl, ihr htr htr' hdr hdr' hr]

theorem root_ne_zero {ds : List Digest} (hne : ds ≠ []) (hs : inputs ds ⊆ messages)
    (hd : ∀ d ∈ ds, d ≠ .zero) : root ds ≠ .zero := by
  obtain ⟨t, hdigest, hleaves, hinputs⟩ := Tree.exists_of_root hne
  rw [← hdigest]
  cases t with
  | leaf d =>
    apply hd
    rw [← hleaves]
    exact List.mem_cons_self
  | node l r => exact hfree.ne_zero _ (hs (hinputs List.mem_cons_self))

/-- Lists of digests are determined by their roots, also those of different lengths. -/
theorem eq_of_root_eq {ds ds' : List Digest} (hs : inputs ds ⊆ messages)
    (hs' : inputs ds' ⊆ messages) (hd : ∀ d ∈ ds, d ≠ .zero ∧ NoNode messages d)
    (hd' : ∀ d ∈ ds', d ≠ .zero ∧ NoNode messages d) (h : root ds = root ds') : ds = ds' := by
  have hempty : root [] = .zero := by simp [root]
  by_cases hne : ds = [] <;> by_cases hne' : ds' = []
  · rw [hne, hne']
  · rw [hne, hempty] at h
    exact absurd h.symm (root_ne_zero hfree hne' hs' fun d hm => (hd' d hm).1)
  · rw [hne', hempty] at h
    exact absurd h (root_ne_zero hfree hne hs fun d hm => (hd d hm).1)
  · obtain ⟨t, hdigest, hleaves, hinputs⟩ := Tree.exists_of_root hne
    obtain ⟨t', hdigest', hleaves', hinputs'⟩ := Tree.exists_of_root hne'
    have heq : t = t' := by
      apply Tree.eq_of_digest_eq hfree (List.Subset.trans hinputs hs)
        (List.Subset.trans hinputs' hs')
      · rw [hleaves]
        exact fun d hm => (hd d hm).2
      · rw [hleaves']
        exact fun d hm => (hd' d hm).2
      · rw [hdigest, hdigest', h]
    rw [← hleaves, ← hleaves', heq]

end Binding

end Merkle

end ChainGovernance
