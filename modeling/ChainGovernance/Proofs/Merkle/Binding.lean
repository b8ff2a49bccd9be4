import ChainGovernance.Proofs.Merkle
import ChainGovernance.Proofs.Merkle.Splitting

/-!
Roots bind lists of one length.

Where the number of digests is known, nothing has to be known of the digests themselves. Two levels of
one length are paired in the same way, and if one of them ends with a digest that goes up as it is, so
does the other; so they are equal if the levels above them are, as far as the double hash does not
collide on the pairs. By induction on the levels, two lists of one length with one root are equal.
-/

namespace ChainGovernance.Merkle

/-! ### Level by level -/

section Levels

variable {messages : List Bytes} (hinj : Set.InjOn doubleHash {m | m ∈ messages})

include hinj

theorem eq_of_above_eq : (ds ds' : List Digest) → ds.length = ds'.length →
    inputsAbove ds ⊆ messages → inputsAbove ds' ⊆ messages → above ds = above ds' → ds = ds'
  | [], [], _, _, _, _ => rfl
  | [_], [_], _, _, _, h => h
  | left :: right :: rest, left' :: right' :: rest', hlength, hs, hs', h => by
    obtain ⟨hnode, hrest⟩ := List.cons.inj h
    obtain ⟨hm, hs⟩ := List.cons_subset.1 hs
    obtain ⟨hm', hs'⟩ := List.cons_subset.1 hs'
    obtain ⟨hleft, hright⟩ := nodeInput_injective (hinj hm hm' hnode)
    have hlength : rest.length = rest'.length := Nat.succ.inj (Nat.succ.inj hlength)
    rw [hleft, hright, eq_of_above_eq rest rest' hlength hs hs' hrest]

theorem eq_of_root_eq_of_length : (ds ds' : List Digest) → ds.length = ds'.length →
    inputs ds ⊆ messages → inputs ds' ⊆ messages → root ds = root ds' → ds = ds'
  | [], [], _, _, _, _ => rfl
  | [d], [d'], _, _, _, h => by
    rw [root, root] at h
    rw [h]
  | left :: right :: rest, left' :: right' :: rest', hlength, hs, hs', h => by
    rw [inputs] at hs hs'
    rw [root, root] at h
    obtain ⟨hlevel, hs⟩ := List.append_subset.1 hs
    obtain ⟨hlevel', hs'⟩ := List.append_subset.1 hs'
    -- the levels above have one length, too, and one root
    have hlength' : (above (left :: right :: rest)).length =
        (above (left' :: right' :: rest')).length := by
      rw [length_above, length_above, hlength]
    have habove := eq_of_root_eq_of_length _ _ hlength' hs hs' h
    exact eq_of_above_eq hinj _ _ hlength hlevel hlevel' habove
termination_by ds => ds.length
decreasing_by simp [length_above]; omega

end Levels

/-! ### Equal roots -/

/-- The double hash does not collide on what is hashed for two roots. -/
def Apart (ds ds' : List Digest) : Prop := Set.InjOn doubleHash {m | m ∈ inputs ds ++ inputs ds'}

theorem apart_iff {ds ds' : List Digest} : Apart ds ds' ↔
    ∀ m ∈ inputs ds ++ inputs ds', ∀ m' ∈ inputs ds ++ inputs ds',
      doubleHash m = doubleHash m' → m = m' :=
  ⟨fun h _ hm _ hm' => h hm hm', fun h m hm m' hm' => h m hm m' hm'⟩

instance (ds ds' : List Digest) : Decidable (Apart ds ds') := decidable_of_iff _ apart_iff.symm

theorem Apart.eq_of_root_eq {ds ds' : List Digest} (h : Apart ds ds')
    (hlength : ds.length = ds'.length) (hroot : root ds = root ds') : ds = ds' :=
  eq_of_root_eq_of_length h ds ds' hlength (List.subset_append_left _ _)
    (List.subset_append_right _ _) hroot

/-- **The root binds the digests, if their number is known.** Two lists of one length that have one root
are equal, as far as the double hash does not collide on what is hashed for the two roots. So the root
is another one if the digests are put in another order, and if one of them is changed. -/
theorem root_binding :
    (∀ ds ds' : List Digest, ds.length = ds'.length → Apart ds ds' →
      (root ds = root ds' ↔ ds = ds')) ∧
    (∀ ds ds' : List Digest, ds.Perm ds' → ds ≠ ds' → Apart ds ds' → root ds ≠ root ds') ∧
    ∀ (ds : List Digest) (i : Nat) (d : Digest) (hi : i < ds.length), ds[i] ≠ d →
      Apart ds (ds.set i d) → root ds ≠ root (ds.set i d) := by
  refine ⟨fun ds ds' hlength h => ?_, fun ds ds' hperm hne h hroot => ?_,
    fun ds i d hi hne h hroot => ?_⟩
  · exact ⟨h.eq_of_root_eq hlength, congrArg root⟩
  · exact hne (h.eq_of_root_eq hperm.length_eq hroot)
  · have heq : ds = ds.set i d := h.eq_of_root_eq List.length_set.symm hroot
    have hget : ds[i]? = some d :=
      (congrArg (fun l => l[i]?) heq).trans (List.getElem?_set_self hi)
    exact hne (Option.some.inj ((List.getElem?_eq_getElem hi).symm.trans hget))

/-- Three digests, the same with another one at the end, and in the reverse order. In either case four
messages are hashed, and they do not collide. -/
theorem root_binding_three :
    let three := fiveLeaves.take 3
    let changed := three.set 2 .zero
    three.length = changed.length ∧ Apart three changed ∧
      (root three = root changed ↔ three = changed) ∧ root three ≠ root changed ∧
      three.Perm three.reverse ∧ Apart three three.reverse ∧ root three ≠ root three.reverse := by
  intro three changed
  obtain ⟨hequal, horder, hset⟩ := root_binding
  have hlength : three.length = changed.length := rfl
  have hchanged : Apart three changed := by decide +kernel
  have hperm : three.Perm three.reverse := three.reverse_perm.symm
  have hreverse : Apart three three.reverse := by decide +kernel
  exact ⟨hlength, hchanged, hequal _ _ hlength hchanged,
    hset three 2 .zero (by decide) (by decide) hchanged, hperm, hreverse,
    horder _ _ hperm (by decide) hreverse⟩

end ChainGovernance.Merkle
