import ChainGovernance.Address
import ChainGovernance.Proofs.Collecting
import ChainGovernance.Proofs.Wire.Extent

/-!
What addresses commit to.

An address is the front of the hash of a preimage, and preimages can be taken apart again: the first byte
tells one key from several, the threshold and the number of keys end by themselves, and the keys have one
length. So as far as the fronts of the hashes do not collide on two preimages, one address means one
threshold and the same keys in the same order, or one and the same key.
-/

namespace ChainGovernance

theorem PublicKey.eq_of_toBytes_eq {k k' : PublicKey} (h : k.toBytes = k'.toBytes) : k = k' := by
  obtain ⟨⟨b, hb⟩, hpoint⟩ := k
  obtain ⟨⟨b', hb'⟩, hpoint'⟩ := k'
  change b = b' at h
  subst h
  rfl

namespace Address

open Wire (Format)

variable {t t' : UInt16} {key key' : PublicKey} {keys keys' : List PublicKey}

/-! ### Preimages -/

/-- Nothing follows the keys, so that their bytes alone tell how many there are. -/
theorem eq_of_flatMap_toBytes_eq (keys keys' : List PublicKey)
    (h : (keys.flatMap fun k => k.toBytes) = keys'.flatMap fun k => k.toBytes) : keys = keys' := by
  induction keys generalizing keys' with
  | nil =>
    cases keys' with
    | nil => rfl
    | cons k' keys' =>
      have hlength := congrArg List.length h
      rw [List.flatMap_cons, List.length_append, k'.length_eq, List.flatMap_nil, List.length_nil]
        at hlength
      omega
  | cons k keys ih =>
    cases keys' with
    | nil =>
      have hlength := congrArg List.length h
      rw [List.flatMap_cons, List.length_append, k.length_eq, List.flatMap_nil, List.length_nil]
        at hlength
      omega
    | cons k' keys' =>
      rw [List.flatMap_cons, List.flatMap_cons] at h
      obtain ⟨hfirst, hrest⟩ := List.append_inj h (k.length_eq.trans k'.length_eq.symm)
      rw [PublicKey.eq_of_toBytes_eq hfirst, ih keys' hrest]

theorem multisigPreimage_injective (h : multisigPreimage t keys = multisigPreimage t' keys') :
    t = t' ∧ keys = keys' := by
  obtain ⟨-, h⟩ := List.cons.inj h
  rw [List.append_assoc, List.append_assoc] at h
  obtain ⟨ht, h⟩ := (Format.restores_uint16 t).unique_nil (Format.restores_uint16 t') h
  obtain ⟨-, hkeys⟩ := (Format.restores_compact _).unique_nil (Format.restores_compact _) h
  exact ⟨ht, eq_of_flatMap_toBytes_eq keys keys' hkeys⟩

theorem multisigPreimage_ne_keyPreimage : multisigPreimage t keys ≠ keyPreimage key := by
  intro h
  have hfirst : (0x02 : UInt8) = 0x01 := (List.cons.inj h).1
  cases hfirst

theorem keyPreimage_injective (h : keyPreimage key = keyPreimage key') : key = key' :=
  PublicKey.eq_of_toBytes_eq (List.cons.inj h).2

/-! ### Addresses -/

/-- The fronts of the hashes of two preimages are different, unless the preimages are the same. -/
def Apart (p q : Bytes) : Prop := ofPreimage p = ofPreimage q → p = q

instance (p q : Bytes) : Decidable (Apart p q) := inferInstanceAs (Decidable (_ → _))

/-- **Addresses commit to keys.** As far as the fronts of hashes do not collide on the preimages: the
address of several keys determines the threshold, the keys and their order, however many they are; it is
never the address of one key, be it the only one of them; and that determines the key. -/
theorem address_commits :
    (∀ t t' keys keys', Apart (multisigPreimage t keys) (multisigPreimage t' keys') →
      (ofMultisig t keys = ofMultisig t' keys' ↔ t = t' ∧ keys = keys')) ∧
    (∀ t keys key, Apart (multisigPreimage t keys) (keyPreimage key) →
      ofMultisig t keys ≠ ofPublicKey key) ∧
    ∀ key key', Apart (keyPreimage key) (keyPreimage key') →
      (ofPublicKey key = ofPublicKey key' ↔ key = key') := by
  refine ⟨fun t t' keys keys' hapart => ?_, fun t keys key hapart h => ?_,
    fun key key' hapart => ?_⟩
  · constructor
    · exact fun h => multisigPreimage_injective (hapart h)
    · rintro ⟨rfl, rfl⟩
      rfl
  · exact multisigPreimage_ne_keyPreimage (hapart h)
  · constructor
    · exact fun h => keyPreimage_injective (hapart h)
    · exact congrArg ofPublicKey

/-- Three of four keys, two of them, the four in the reverse order, and the first key by itself. -/
theorem address_commits_four :
    let keys := Aggregate.smallKeys
    let first := keys[0]
    Apart (multisigPreimage 3 keys) (multisigPreimage 2 keys) ∧
      ofMultisig 3 keys ≠ ofMultisig 2 keys ∧
      Apart (multisigPreimage 3 keys) (multisigPreimage 3 keys.reverse) ∧
      ofMultisig 3 keys ≠ ofMultisig 3 keys.reverse ∧
      Apart (multisigPreimage 1 [first]) (keyPreimage first) ∧
      ofMultisig 1 [first] ≠ ofPublicKey first ∧
      Apart (keyPreimage first) (keyPreimage keys[1]) ∧ ofPublicKey first ≠ ofPublicKey keys[1] := by
  intro keys first
  obtain ⟨hmultisig, hsingle, hkey⟩ := address_commits
  have hthreshold : Apart (multisigPreimage 3 keys) (multisigPreimage 2 keys) := by decide +kernel
  have horder : Apart (multisigPreimage 3 keys) (multisigPreimage 3 keys.reverse) := by
    decide +kernel
  have hone : Apart (multisigPreimage 1 [first]) (keyPreimage first) := by decide +kernel
  have hother : Apart (keyPreimage first) (keyPreimage keys[1]) := by decide +kernel
  refine ⟨hthreshold, fun h => ?_, horder, fun h => ?_, hone, hsingle 1 [first] first hone, hother,
    fun h => ?_⟩
  · have ht := ((hmultisig 3 2 keys keys hthreshold).1 h).1
    cases ht
  · have hkeys := ((hmultisig 3 3 keys keys.reverse horder).1 h).2
    exact absurd hkeys (by decide)
  · have hkeys := (hkey first keys[1] hother).1 h
    exact absurd hkeys (by decide)

end Address

end ChainGovernance
