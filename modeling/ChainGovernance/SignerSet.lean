import ChainGovernance.Error
import ChainGovernance.Quorum

/-!
Sets of signers.

A set has between one and `maxSigners` keys, no key twice, and a threshold that its keys can
reach. `ofKeys` takes the default quorum for the threshold. The keys keep their order, on which the
address of the set depends.
-/

namespace ChainGovernance

/-- Keys that sign together, and how many of them it takes. -/
structure SignerSet where
  keys : List PublicKey
  threshold : UInt16
  length_le : keys.length ≤ maxSigners
  nodup : keys.Nodup
  threshold_pos : 1 ≤ threshold.toNat
  threshold_le : threshold.toNat ≤ keys.length
deriving DecidableEq

/-- The first item that is equal to an earlier one, or to one of `seen`. -/
def firstRepeat? {α : Type} [DecidableEq α] (seen : List α) : List α → Option α
  | [] => none
  | x :: xs => if x ∈ seen then some x else firstRepeat? (x :: seen) xs

theorem nodup_of_firstRepeat? {α : Type} [DecidableEq α] {seen xs : List α}
    (h : firstRepeat? seen xs = none) : xs.Nodup ∧ ∀ x ∈ xs, x ∉ seen := by
  induction xs generalizing seen with
  | nil => simp
  | cons x xs ih =>
    unfold firstRepeat? at h
    split at h
    · cases h
    · obtain ⟨hn, hs⟩ := ih h
      refine ⟨List.nodup_cons.2 ⟨fun hx => ?_, hn⟩, fun y hy => ?_⟩
      · exact hs x hx (List.mem_cons_self ..)
      · rcases List.mem_cons.1 hy with rfl | hy
        · assumption
        · exact fun hm => hs y hy (List.mem_cons_of_mem _ hm)

namespace SignerSet

/-- Why keys make no set, whatever the threshold. -/
def keysFault? (keys : List PublicKey) : Option Error :=
  if keys.isEmpty then some .emptySignerSet
  else if maxSigners < keys.length then some (.tooManySigners keys.length)
  else (firstRepeat? [] keys).map .duplicateSigner

theorem of_keysFault? {keys : List PublicKey} (h : keysFault? keys = none) :
    keys ≠ [] ∧ keys.length ≤ maxSigners ∧ keys.Nodup := by
  unfold keysFault? at h
  split at h
  · cases h
  · split at h
    · cases h
    · refine ⟨by simpa using ‹¬keys.isEmpty = true›, by omega, ?_⟩
      exact (nodup_of_firstRepeat? (Option.map_eq_none_iff.1 h)).1

/-- The set of some keys with a threshold of its own. -/
def withThreshold (keys : List PublicKey) (threshold : UInt16) : Except Error SignerSet :=
  match h : keysFault? keys with
  | some e => .error e
  | none =>
    if ht : 1 ≤ threshold.toNat ∧ threshold.toNat ≤ keys.length then
      .ok ⟨keys, threshold, (of_keysFault? h).2.1, (of_keysFault? h).2.2, ht.1, ht.2⟩
    else .error (.invalidThreshold threshold keys.length)

/-- The default quorum of a number of keys that a set may have, in 16 bits. -/
theorem toNat_quorum {n : Nat} (h : n ≤ maxSigners) :
    (UInt16.ofNat ((5 * n + 6) / 7)).toNat = (5 * n + 6) / 7 := by
  unfold maxSigners at h
  rw [UInt16.toNat_ofNat']
  omega

/-- The set of some keys that needs the default quorum of them. -/
def ofKeys (keys : List PublicKey) : Except Error SignerSet :=
  match h : keysFault? keys with
  | some e => .error e
  | none =>
    match hq : quorum? keys.length with
    | none => .error .emptySignerSet
    | some q =>
      have hk := of_keysFault? h
      have hlen : 0 < keys.length := List.length_pos_iff.2 hk.1
      have hq : q = (5 * keys.length + 6) / 7 := by
        rw [quorum?, if_neg (by omega)] at hq
        exact (Option.some.inj hq).symm
      have ht : (UInt16.ofNat q).toNat = (5 * keys.length + 6) / 7 := hq ▸ toNat_quorum hk.2.1
      .ok ⟨keys, UInt16.ofNat q, hk.2.1, hk.2.2, by omega, by omega⟩

def size (s : SignerSet) : Nat := s.keys.length

/-- The address that the set controls. It is reckoned from the keys and the threshold, not held. -/
def address (s : SignerSet) : Address := .ofMultisig s.threshold s.keys

/-- The place of a key in the set. -/
def position? (s : SignerSet) (key : PublicKey) : Option Nat := s.keys.idxOf? key

def contains (s : SignerSet) (key : PublicKey) : Bool := (s.position? key).isSome

end SignerSet

end ChainGovernance
