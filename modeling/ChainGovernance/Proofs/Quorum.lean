import Mathlib.Tactic
import ChainGovernance.Proofs.Collecting

/-!
Any two quorums have signers in common.

The default threshold leaves out two sevenths of a set, rounded down. What stands for the set is
signed by as many different members as the threshold says (`Stands.card_signers`), so two such
aggregates share more than a third of the members, whatever they were made for
(`Stands.two_threshold_le`). The threshold is just what collecting asks for.
-/

namespace ChainGovernance

/-! ### The default threshold -/

theorem quorum?_eq_some_iff {n q : Nat} : quorum? n = some q ↔ 0 < n ∧ q = n - 2 * n / 7 := by
  unfold quorum?
  by_cases hn : n = 0
  · simp [hn]
  · rw [if_neg hn, Option.some_inj]
    omega

theorem SignerSet.of_ofKeys {keys : List PublicKey} {set : SignerSet}
    (h : SignerSet.ofKeys keys = .ok set) :
    set.keys = keys ∧ quorum? keys.length = some set.threshold.toNat := by
  unfold ofKeys at h
  split at h
  · cases h
  · rename_i hkeys
    split at h
    · cases h
    · rename_i q hq
      obtain rfl := Except.ok.inj h
      have hlen := (of_keysFault? hkeys).2.1
      have hthreshold := quorum?_eq_some_iff.1 hq
      -- five sevenths, rounded up; no set is so large that 16 bits do not hold them
      have hq' : q = (5 * keys.length + 6) / 7 := by omega
      refine ⟨rfl, ?_⟩
      change _ = some (UInt16.ofNat q).toNat
      rw [hq, hq', toNat_quorum hlen]

namespace Aggregate

variable {valid : PublicKey → Bytes → Signature → Bool} {stage : Stage} {set : SignerSet}
  {message message' : Bytes} {a b : Aggregate}

/-! ### Counting signers -/

/-- The keys that signed. -/
def signers (a : Aggregate) : Finset PublicKey := (a.pairs.map Prod.fst).toFinset

theorem Stands.card_signers (h : a.Stands valid set message) :
    a.signers.card = a.pairs.length := by
  rw [signers, List.toFinset_card_of_nodup h.nodup, List.length_map]

theorem Stands.signers_subset (h : a.Stands valid set message) :
    a.signers ⊆ set.keys.toFinset := by
  intro key hkey
  obtain ⟨p, hp, rfl⟩ := List.mem_map.1 (List.mem_toFinset.1 hkey)
  exact List.mem_toFinset.2 (h.member p hp)

theorem Stands.two_threshold_le (ha : a.Stands valid set message)
    (hb : b.Stands valid set message') :
    2 * set.threshold.toNat ≤ (a.signers ∩ b.signers).card + set.keys.length := by
  -- all of them are members, and those that signed both are counted twice
  have hunion : (a.signers ∪ b.signers).card ≤ set.keys.length := by
    have hsubset := Finset.union_subset ha.signers_subset hb.signers_subset
    exact (Finset.card_le_card hsubset).trans (List.toFinset_card_le _)
  have hinter := Finset.card_union_add_card_inter a.signers b.signers
  have hca := ha.card_signers
  have hcb := hb.card_signers
  have hea := ha.enough
  have heb := hb.enough
  omega

/-! ### Enough wallets -/

theorem exists_collect {wallets : List Wallet}
    (hmember : ∀ w ∈ wallets, w.publicKey ∈ set.keys) (hwilling : ∀ w ∈ wallets, w.Willing message)
    (hnodup : (wallets.map (·.publicKey)).Nodup)
    (henough : set.threshold.toNat ≤ wallets.length) :
    ∃ a, collect stage set wallets message = .ok a := by
  obtain ⟨signed, rfl, hsigned⟩ := exists_signed hwilling
  rw [List.map_map] at hnodup
  have hlen : set.threshold.toNat ≤ (signed.map fun p => p.1.publicKey).length := by
    rwa [List.length_map] at henough ⊢
  have hkeys : ∀ key ∈ signed.map (fun p => p.1.publicKey), key ∈ set.keys :=
    List.forall_mem_map.2 fun p hp => hmember p.1 (List.mem_map_of_mem hp)
  have hpreflight : preflight stage set (signed.map fun p => p.1.publicKey) = .ok () :=
    preflight_eq_ok_iff.2 ⟨hkeys, hnodup, hlen⟩
  refine ⟨gathered set signed, ?_⟩
  rw [collect_of_signed hsigned, hpreflight]
  rfl

/-- **Quorums intersect.** Of a set with the default threshold, any two aggregates that pass the check
have more than a third of its keys in common, whatever stages and messages they were made for, so
that no minority of less than a third contains all of these. As many willing members as the threshold
says suffice to collect an aggregate, and fewer wallets never do. -/
theorem quorum_intersection (keys : List PublicKey) (set : SignerSet)
    (hset : SignerSet.ofKeys keys = .ok set) :
    let n := keys.length
    let m := set.threshold.toNat
    (∀ valid stage stage' message message' (a b : Aggregate),
      a.verifyWith valid stage set message = .ok () →
      b.verifyWith valid stage' set message' = .ok () →
      2 * m - n ≤ (a.signers ∩ b.signers).card ∧
        ∀ minority : Finset PublicKey, minority.card ≤ (n - 1) / 3 →
          ¬ a.signers ∩ b.signers ⊆ minority) ∧
    n < 3 * (2 * m - n) ∧ 2 * n < 3 * m ∧ m = n - 2 * n / 7 ∧
    ∀ stage message wallets,
      ((∀ w ∈ wallets, w.publicKey ∈ keys ∧ w.Willing message) →
        (wallets.map (·.publicKey)).Nodup → n - 2 * n / 7 ≤ wallets.length →
        ∃ a, collect stage set wallets message = .ok a) ∧
      (wallets.length < n - 2 * n / 7 → ∀ a, collect stage set wallets message ≠ .ok a) := by
  intro n m
  obtain ⟨hkeys, hquorum⟩ := SignerSet.of_ofKeys hset
  obtain ⟨hn, hm⟩ : 0 < n ∧ m = n - 2 * n / 7 := quorum?_eq_some_iff.1 hquorum
  have hthird : n < 3 * (2 * m - n) := by omega
  refine ⟨?_, hthird, by omega, hm, ?_⟩
  · intro valid stage stage' message message' a b ha hb
    have hstands := (verifyWith_eq_ok_iff stage).1 ha
    have hcount := hstands.two_threshold_le ((verifyWith_eq_ok_iff stage').1 hb)
    have hshared : 2 * m - n ≤ (a.signers ∩ b.signers).card := by
      rw [hkeys] at hcount
      omega
    refine ⟨hshared, fun minority hcard hsub => ?_⟩
    have hle := Finset.card_le_card hsub
    omega
  · intro stage message wallets
    constructor
    · intro hwallets hnodup hlen
      refine exists_collect (fun w hw => ?_) (fun w hw => (hwallets w hw).2) hnodup (hm.trans_le hlen)
      rw [hkeys]
      exact (hwallets w hw).1
    · intro hlen a ha
      have henough := (preflight_eq_ok_iff.1 (collect_eq_ok_iff.1 ha).1).2.2
      rw [List.length_map] at henough
      omega

theorem quorum_intersection_four :
    let a := gathered smallSet (smallSigned (smallKeys.take 3))
    let b := gathered smallSet (smallSigned (smallKeys.drop 1))
    2 ≤ (a.signers ∩ b.signers).card ∧
      ∃ c, collect .quorum smallSet ((smallSigned (smallKeys.take 3)).map Prod.fst) [7] =
        .ok c := by
  intro a b
  have hset : SignerSet.ofKeys smallKeys = .ok smallSet := by decide +kernel
  have h := quorum_intersection smallKeys smallSet hset
  have hsubset := List.take_subset 3 smallKeys
  have ha := verify_smallSigned .quorum hsubset (by decide) (by decide)
  have hb := verify_smallSigned .transaction (List.drop_subset 1 smallKeys) (by decide) (by decide)
  refine ⟨(h.1 _ _ _ _ _ a b ha hb).1, (h.2.2.2.2 .quorum [7] _).1 ?_ (by decide) (by decide)⟩
  refine List.forall_mem_map.2 fun p hp => ⟨?_, p.2, (smallSigned_valid hsubset p hp).1⟩
  obtain ⟨key, hkey, rfl⟩ := List.mem_map.1 hp
  exact hsubset hkey

end Aggregate

end ChainGovernance
