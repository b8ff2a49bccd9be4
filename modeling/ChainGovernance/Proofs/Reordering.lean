import Mathlib.Tactic
import ChainGovernance.Proofs.SignerSet
import ChainGovernance.Proofs.Signing

/-!
The order of signers does not matter.

Checking and collecting both go through a list, remember what they have seen, and stop at the first
fault, so which error they give depends on the order. Whether they give one does not: that an aggregate
stands for a set is said without an order (`Stands.perm`), and so is what is found of the keys of
wallets before anybody signs (`preflight_perm`). Wallets are numbered, so that a permutation of their
numbers can be applied to what they give as well (`collect_comp_perm`). It may also be the order in which
they answer when they are asked at the same time, which makes no difference to what is collected
(`collectAtOnce_eq_ok_iff`).
-/

namespace ChainGovernance

variable {n : Nat}

theorem mapM_ofFn_eq_ok_iff {α β ε : Type} {f : α → Except ε β} {x : Fin n → α} {ys : List β} :
    (List.ofFn x).mapM f = .ok ys ↔ ∃ y : Fin n → β, ys = List.ofFn y ∧ ∀ i, f (x i) = .ok (y i) := by
  rw [mapM_eq_ok_iff, List.forall₂_iff_get]
  constructor
  · rintro ⟨hlength, h⟩
    obtain rfl : n = ys.length := List.length_ofFn.symm.trans hlength
    refine ⟨ys.get, (List.ofFn_get ys).symm, fun i => ?_⟩
    have hlt : (i : Nat) < (List.ofFn x).length := i.isLt.trans_eq hlength.symm
    have hi := h i hlt i.isLt
    rwa [List.get_ofFn] at hi
  · rintro ⟨y, rfl, h⟩
    refine ⟨by rw [List.length_ofFn, List.length_ofFn], fun i hi hi' => ?_⟩
    rw [List.get_ofFn, List.get_ofFn]
    exact h _

namespace Aggregate

variable {valid : PublicKey → Bytes → Signature → Bool} {stage : Stage} {set : SignerSet}
  {message : Bytes} {a : Aggregate}

/-! ### Pairs in another order -/

theorem Stands.perm {pairs : List (PublicKey × Signature)} (h : a.Stands valid set message)
    (hp : pairs.Perm a.pairs) : Stands valid set message ⟨a.threshold, pairs⟩ where
  threshold := h.threshold
  member p hmem := h.member p (hp.mem_iff.1 hmem)
  nodup := (hp.map Prod.fst).nodup_iff.2 h.nodup
  valid p hmem := h.valid p (hp.mem_iff.1 hmem)
  enough := h.enough.trans_eq hp.length_eq.symm

theorem Stands.push {key : PublicKey} {signature : Signature} (h : a.Stands valid set message)
    (hmember : key ∈ set.keys) (hnew : key ∉ a.pairs.map Prod.fst)
    (hvalid : valid key message signature = true) :
    (a.push key signature).Stands valid set message := by
  have hpairs : (a.push key signature).pairs = a.pairs ++ [(key, signature)] := rfl
  constructor
  case threshold => exact h.threshold
  case member =>
    rw [hpairs]
    exact List.forall_mem_append.2 ⟨h.member, List.forall_mem_singleton.2 hmember⟩
  case nodup =>
    rw [hpairs, List.map_append]
    exact h.nodup.append (List.nodup_singleton key)
      (List.disjoint_singleton.2 hnew)
  case valid =>
    rw [hpairs]
    exact List.forall_mem_append.2 ⟨h.valid, List.forall_mem_singleton.2 hvalid⟩
  case enough =>
    rw [hpairs, List.length_append]
    exact h.enough.trans (Nat.le_add_right ..)

/-- Two aggregates that pass the same checks, whatever they are checked for. -/
def Alike (a b : Aggregate) : Prop :=
  ∀ valid stage set message, a.verifyWith valid stage set message = .ok () ↔
    b.verifyWith valid stage set message = .ok ()

theorem alike_of_perm {pairs : List (PublicKey × Signature)} (hp : pairs.Perm a.pairs) :
    Alike a ⟨a.threshold, pairs⟩ := by
  intro valid stage set message
  rw [verifyWith_eq_ok_iff, verifyWith_eq_ok_iff]
  exact ⟨fun h => h.perm hp, fun h => h.perm hp.symm⟩

/-! ### Wallets in another order -/

theorem preflight_perm {keys keys' : List PublicKey} (h : keys'.Perm keys) :
    preflight stage set keys' = .ok () ↔ preflight stage set keys = .ok () := by
  simp only [preflight_eq_ok_iff, h.mem_iff, h.nodup_iff, h.length_eq]

theorem collect_ofFn_eq_ok_iff {wallets : Fin n → Wallet} :
    collect stage set (List.ofFn wallets) message = .ok a ↔
      preflight stage set (List.ofFn fun i => (wallets i).publicKey) = .ok () ∧
        ∃ pairs : Fin n → PublicKey × Signature, a = ⟨set.threshold, List.ofFn pairs⟩ ∧
          ∀ i, ask stage message (wallets i) = .ok (pairs i) := by
  simp only [collect_eq_preflight, bind_eq_ok_iff, mapM_ofFn_eq_ok_iff, pure_eq_ok_iff,
    List.map_ofFn]
  constructor
  · rintro ⟨⟨⟩, hpreflight, -, ⟨pairs, rfl, hpairs⟩, rfl⟩
    exact ⟨hpreflight, pairs, rfl, hpairs⟩
  · rintro ⟨hpreflight, pairs, rfl, hpairs⟩
    exact ⟨(), hpreflight, _, ⟨pairs, rfl, hpairs⟩, rfl⟩

/-! ### Wallets that sign at the same time -/

/-- Has wallets sign at the same time, when they answer in the order `arrivals`. As in `collect`, nobody
is asked unless the keys are in order. The first refusal to arrive is reported; without one, what a
wallet gave goes to the place of the wallet. -/
def collectAtOnce (stage : Stage) (set : SignerSet) (wallets : Fin n → Wallet) (message : Bytes)
    (arrivals : Equiv.Perm (Fin n)) : Except Error Aggregate := do
  preflight stage set (List.ofFn fun i => (wallets i).publicKey)
  let arrived ← (List.ofFn arrivals).mapM fun i => (ask stage message (wallets i)).map (i, ·)
  pure ⟨set.threshold, (List.finRange n).filterMap fun i => arrived.lookup i⟩

/-- Whatever order it arrives in, all that was given is found at its own place. -/
theorem filterMap_lookup_ofFn {α : Type} (arrivals : Equiv.Perm (Fin n)) (f : Fin n → α) :
    ((List.finRange n).filterMap fun i =>
      (List.ofFn fun j => (arrivals j, f (arrivals j))).lookup i) = List.ofFn f := by
  have hkeyed : (List.ofFn fun j => (arrivals j, f (arrivals j))) =
      (List.ofFn arrivals).map fun i => (i, f i) := by
    rw [List.map_ofFn]
    rfl
  have hfound : ∀ i ∈ List.finRange n,
      (List.ofFn fun j => (arrivals j, f (arrivals j))).lookup i = some (f i) := by
    intro i _
    rw [hkeyed]
    exact List.lookup_graph f (List.mem_ofFn.2 ⟨arrivals.symm i, arrivals.apply_symm_apply i⟩)
  rw [List.filterMap_congr hfound, List.ofFn_eq_map]
  exact congrFun List.filterMap_eq_map (List.finRange n)

/-- **It does not matter whether wallets sign one after the other or at the same time.** An aggregate
comes of the one exactly if it comes of the other, in whatever order they answer. -/
theorem collectAtOnce_eq_ok_iff {wallets : Fin n → Wallet} (arrivals : Equiv.Perm (Fin n)) :
    collectAtOnce stage set wallets message arrivals = .ok a ↔
      collect stage set (List.ofFn wallets) message = .ok a := by
  rw [collect_ofFn_eq_ok_iff]
  simp only [collectAtOnce, bind_eq_ok_iff, mapM_ofFn_eq_ok_iff, map_eq_ok_iff, pure_eq_ok_iff]
  constructor
  · rintro ⟨⟨⟩, hpreflight, -, ⟨arrived, rfl, harrived⟩, rfl⟩
    choose given hgiven hplace using harrived
    -- what arrived from a wallet, by the place of the wallet
    let pairs : Fin n → PublicKey × Signature := fun i => given (arrivals.symm i)
    have hpairs : arrived = fun j => (arrivals j, pairs (arrivals j)) := by
      funext j
      rw [← hplace j]
      exact congrArg (fun k => (arrivals j, given k)) (arrivals.symm_apply_apply j).symm
    refine ⟨hpreflight, pairs, by rw [hpairs, filterMap_lookup_ofFn], fun i => ?_⟩
    have hi := hgiven (arrivals.symm i)
    rwa [arrivals.apply_symm_apply] at hi
  · rintro ⟨hpreflight, pairs, rfl, hpairs⟩
    refine ⟨(), hpreflight, List.ofFn fun j => (arrivals j, pairs (arrivals j)), ?_, ?_⟩
    · exact ⟨_, rfl, fun j => ⟨pairs (arrivals j), hpairs (arrivals j), rfl⟩⟩
    · rw [filterMap_lookup_ofFn]

/-- What may be reported is a fault of the keys, or else the refusal of any wallet: one answers first. -/
theorem exists_collectAtOnce_eq_error_iff {wallets : Fin n → Wallet} {e : Error} :
    (∃ arrivals, collectAtOnce stage set wallets message arrivals = .error e) ↔
      preflight stage set (List.ofFn fun i => (wallets i).publicKey) = .error e ∨
        preflight stage set (List.ofFn fun i => (wallets i).publicKey) = .ok () ∧
          ∃ i, ask stage message (wallets i) = .error e := by
  simp only [collectAtOnce, bind_eq_error_iff, mapM_eq_error_iff, map_eq_error_iff]
  constructor
  · rintro ⟨arrivals, h | ⟨⟨⟩, hpreflight, ⟨-, i, -, hi, -⟩ | ⟨_, -, h⟩⟩⟩
    · exact .inl h
    · exact .inr ⟨hpreflight, i, hi⟩
    · cases h
  · rintro (h | ⟨hpreflight, i, hi⟩)
    · exact ⟨1, .inl h⟩
    · have hpos : 0 < n := i.pos
      refine ⟨Equiv.swap ⟨0, hpos⟩ i, .inr ⟨(), hpreflight, .inl ⟨0, i, ?_, hi, ?_⟩⟩⟩
      · rw [List.getElem?_ofFn, dif_pos hpos, Equiv.swap_apply_left]
      · exact fun j hj => absurd hj (Nat.not_lt_zero j)

/-! ### Pairs that are permuted -/

/-- The pairs of an aggregate after their places are permuted. -/
structure Reordered (σ : Equiv.Perm (Fin n)) (a b : Aggregate) : Prop where
  threshold : b.threshold = a.threshold
  pairs : ∃ pairs : Fin n → PublicKey × Signature,
    a.pairs = List.ofFn pairs ∧ b.pairs = List.ofFn (pairs ∘ σ)

theorem Reordered.alike {σ : Equiv.Perm (Fin n)} {b : Aggregate} (h : Reordered σ a b) :
    Alike a b := by
  obtain ⟨pairs, ha, hb⟩ := h.pairs
  have hb' : b = ⟨a.threshold, List.ofFn (pairs ∘ σ)⟩ := by rw [← h.threshold, ← hb]
  rw [hb']
  exact alike_of_perm (ha ▸ σ.ofFn_comp_perm pairs)

/-- What wallets give moves with them. -/
theorem collect_comp_perm {wallets : Fin n → Wallet} (σ : Equiv.Perm (Fin n))
    (h : collect stage set (List.ofFn wallets) message = .ok a) :
    ∃ b, collect stage set (List.ofFn (wallets ∘ σ)) message = .ok b ∧ Reordered σ a b := by
  obtain ⟨hpreflight, pairs, rfl, hpairs⟩ := collect_ofFn_eq_ok_iff.1 h
  refine ⟨⟨set.threshold, List.ofFn (pairs ∘ σ)⟩, ?_, ⟨rfl, pairs, rfl, rfl⟩⟩
  refine collect_ofFn_eq_ok_iff.2 ⟨?_, pairs ∘ σ, rfl, fun i => hpairs (σ i)⟩
  exact (preflight_perm (σ.ofFn_comp_perm fun i => (wallets i).publicKey)).2 hpreflight

theorem reordered_of_collect {wallets : Fin n → Wallet} {σ : Equiv.Perm (Fin n)} {b : Aggregate}
    (ha : collect stage set (List.ofFn wallets) message = .ok a)
    (hb : collect stage set (List.ofFn (wallets ∘ σ)) message = .ok b) : Reordered σ a b := by
  obtain ⟨b', hb', hab⟩ := collect_comp_perm σ ha
  obtain rfl := Except.ok.inj (hb.symm.trans hb')
  exact hab

theorem exists_collect_comp_perm_iff (wallets : Fin n → Wallet) (σ : Equiv.Perm (Fin n)) :
    (∃ b, collect stage set (List.ofFn (wallets ∘ σ)) message = .ok b) ↔
      ∃ a, collect stage set (List.ofFn wallets) message = .ok a := by
  constructor
  · rintro ⟨b, hb⟩
    obtain ⟨a, ha, -⟩ := collect_comp_perm σ⁻¹ hb
    have hback : (wallets ∘ σ) ∘ ⇑σ⁻¹ = wallets := by
      funext i
      exact congrArg wallets (σ.apply_symm_apply i)
    rw [hback] at ha
    exact ⟨a, ha⟩
  · rintro ⟨a, ha⟩
    obtain ⟨b, hb, -⟩ := collect_comp_perm σ ha
    exact ⟨b, hb⟩

end Aggregate

/-! ### Transactions -/

namespace UnsignedTransaction

variable {u : UnsignedTransaction} {set : SignerSet}

theorem exists_sign_iff {wallets : List Wallet} : (∃ t, u.sign set wallets = .ok t) ↔
    ∃ a, Aggregate.collect .transaction set wallets u.hash.toBytes = .ok a := by
  constructor
  · rintro ⟨t, ht⟩
    obtain ⟨a, ha, -⟩ := sign_eq_ok_iff.1 ht
    exact ⟨a, ha⟩
  · rintro ⟨a, ha⟩
    exact ⟨_, sign_eq_ok_iff.2 ⟨a, ha, rfl⟩⟩

/-- Wallets in two orders sign one and the same transaction, and each gives it the signatures that are
collected from them for its name. -/
structure SignedInOrders (u : UnsignedTransaction) (set : SignerSet) (wallets : Fin n → Wallet)
    (σ : Equiv.Perm (Fin n)) (t t' : Transaction) (a b : Aggregate) : Prop where
  first : t = ⟨u, [a]⟩
  second : t' = ⟨u, [b]⟩
  collected : Aggregate.collect .transaction set (List.ofFn wallets) u.hash.toBytes = .ok a
  recollected :
    Aggregate.collect .transaction set (List.ofFn (wallets ∘ σ)) u.hash.toBytes = .ok b
  reordered : Aggregate.Reordered σ a b

theorem exists_signedInOrders {wallets : Fin n → Wallet} {σ : Equiv.Perm (Fin n)}
    {t t' : Transaction} (h : u.sign set (List.ofFn wallets) = .ok t)
    (h' : u.sign set (List.ofFn (wallets ∘ σ)) = .ok t') :
    ∃ a b, SignedInOrders u set wallets σ t t' a b := by
  obtain ⟨a, ha, ht⟩ := sign_eq_ok_iff.1 h
  obtain ⟨b, hb, ht'⟩ := sign_eq_ok_iff.1 h'
  exact ⟨a, b, ht, ht', ha, hb, Aggregate.reordered_of_collect ha hb⟩

end UnsignedTransaction

namespace Aggregate

/-- **The order of signers does not matter.** Pairs pass the check in one order exactly if they pass it
in every other, and they still pass it with the valid pair of another member. Wallets sign in one order
exactly if they sign in every other, though some of them may refuse, and then give the same pairs in
that order; and they give them in their own order if they sign at the same time. So transactions that
they sign in two orders have one name, and carry those pairs, which pass the same checks. Whoever signs,
a set has its keys in the order in which it was made of them, and the address of that order. -/
theorem order_irrelevant (valid : PublicKey → Bytes → Signature → Bool) (stage : Stage)
    (set : SignerSet) (message : Bytes) :
    (∀ (a : Aggregate) (pairs : List (PublicKey × Signature)), pairs.Perm a.pairs →
      (a.verifyWith valid stage set message = .ok () ↔
        verifyWith valid ⟨a.threshold, pairs⟩ stage set message = .ok ())) ∧
    (∀ (a : Aggregate) key signature, a.verifyWith valid stage set message = .ok () →
      key ∈ set.keys → key ∉ a.pairs.map Prod.fst → valid key message signature = true →
      (a.push key signature).verifyWith valid stage set message = .ok ()) ∧
    (∀ (n : Nat) (wallets : Fin n → Wallet) (σ : Equiv.Perm (Fin n)),
      ((∃ b, collect stage set (List.ofFn (wallets ∘ σ)) message = .ok b) ↔
        ∃ a, collect stage set (List.ofFn wallets) message = .ok a) ∧
      (∀ a b, collect stage set (List.ofFn wallets) message = .ok a →
        collect stage set (List.ofFn (wallets ∘ σ)) message = .ok b → Reordered σ a b) ∧
      (∀ a, collectAtOnce stage set wallets message σ = .ok a ↔
        collect stage set (List.ofFn wallets) message = .ok a) ∧
      ∀ u : UnsignedTransaction,
        ((∃ t', u.sign set (List.ofFn (wallets ∘ σ)) = .ok t') ↔
          ∃ t, u.sign set (List.ofFn wallets) = .ok t) ∧
        ∀ t t', u.sign set (List.ofFn wallets) = .ok t →
          u.sign set (List.ofFn (wallets ∘ σ)) = .ok t' →
          t'.hash = t.hash ∧ List.Forall₂ Alike t.signatures t'.signatures ∧
            ∃ a b, UnsignedTransaction.SignedInOrders u set wallets σ t t' a b) ∧
    ∀ keys, SignerSet.ofKeys keys = .ok set ∨ SignerSet.withThreshold keys set.threshold = .ok set →
      set.keys = keys ∧ set.address = .ofMultisig set.threshold keys := by
  refine ⟨?_, ?_, ?_, ?_⟩
  · intro a pairs hp
    exact alike_of_perm hp valid stage set message
  · intro a key signature ha hmember hnew hvalid
    have hstands := (verifyWith_eq_ok_iff stage).1 ha
    exact (verifyWith_eq_ok_iff stage).2 (hstands.push hmember hnew hvalid)
  · intro n wallets σ
    refine ⟨exists_collect_comp_perm_iff wallets σ, fun a b ha hb => reordered_of_collect ha hb,
      fun a => collectAtOnce_eq_ok_iff σ, fun u => ⟨?_, ?_⟩⟩
    · rw [UnsignedTransaction.exists_sign_iff, UnsignedTransaction.exists_sign_iff]
      exact exists_collect_comp_perm_iff wallets σ
    · intro t t' ht ht'
      obtain ⟨a, b, hsigned⟩ := UnsignedTransaction.exists_signedInOrders ht ht'
      refine ⟨?_, ?_, a, b, hsigned⟩
      · rw [hsigned.first, hsigned.second]
        rfl
      · rw [hsigned.first, hsigned.second]
        exact .cons hsigned.reordered.alike .nil
  · intro keys hmade
    have hkeys : set.keys = keys := by
      rcases hmade with hmade | hmade
      · exact (SignerSet.of_ofKeys hmade).1
      · exact (SignerSet.withThreshold_eq_ok_iff.1 hmade).2.2.1
    exact ⟨hkeys, hkeys ▸ rfl⟩

/-- Three of four wallets sign in reverse, and the fourth may join them; they answer in reverse when
they sign at the same time; and they sign a transaction in both orders. -/
theorem order_irrelevant_reversed :
    let wallets : Fin 3 → Wallet := fun i => ⟨smallKeys[i], fun _ => .ok neutralSignature⟩
    let forward := gathered smallSet (smallSigned (smallKeys.take 3))
    let backward := gathered smallSet (smallSigned (smallKeys.take 3).reverse)
    let u : UnsignedTransaction := ⟨0, 1, 2500, 20000, .zero, ⟨.governance, "blackNode", []⟩⟩
    collect .quorum smallSet (List.ofFn wallets) [7] = .ok forward ∧
      collect .quorum smallSet (List.ofFn (wallets ∘ Fin.revPerm)) [7] = .ok backward ∧
      Reordered (@Fin.revPerm 3) forward backward ∧
      collectAtOnce .quorum smallSet wallets [7] Fin.revPerm = .ok forward ∧
      backward.verify .quorum smallSet [7] = .ok () ∧
      (backward.push smallKeys[3] neutralSignature).verify .quorum smallSet [7] = .ok () ∧
      ∃ t t', u.sign smallSet (List.ofFn wallets) = .ok t ∧
        u.sign smallSet (List.ofFn (wallets ∘ Fin.revPerm)) = .ok t' ∧
        t.signatures = [forward] ∧ t'.signatures = [backward] ∧ t'.hash = t.hash ∧
        List.Forall₂ Alike t.signatures t'.signatures := by
  intro wallets forward backward u
  obtain ⟨hperm, hpush, hwallets, -⟩ :=
    order_irrelevant PublicKey.verify .quorum smallSet [7]
  obtain ⟨-, hcollect, hatOnce, hsign⟩ := hwallets 3 wallets Fin.revPerm
  have hforward : collect .quorum smallSet (List.ofFn wallets) [7] = .ok forward := by decide
  have hbackward : collect .quorum smallSet (List.ofFn (wallets ∘ Fin.revPerm)) [7] =
      .ok backward := by decide
  have hverify : forward.verify .quorum smallSet [7] = .ok () :=
    verify_smallSigned .quorum (List.take_subset 3 smallKeys) (by decide) (by decide)
  have hverify' : backward.verify .quorum smallSet [7] = .ok () :=
    (hperm forward backward.pairs (by decide)).1 hverify
  have ht : u.sign smallSet (List.ofFn wallets) = .ok ⟨u, [forward]⟩ := by decide
  have ht' : u.sign smallSet (List.ofFn (wallets ∘ Fin.revPerm)) = .ok ⟨u, [backward]⟩ := by decide
  obtain ⟨hhash, halike, -⟩ := (hsign u).2 _ _ ht ht'
  refine ⟨hforward, hbackward, hcollect forward backward hforward hbackward,
    (hatOnce forward).2 hforward, hverify', ?_, _, _, ht, ht', rfl, rfl, hhash, halike⟩
  refine hpush backward smallKeys[3] neutralSignature hverify' ?_ ?_ ?_
  · exact List.getElem_mem _
  · decide
  · exact verify_smallKeys _ (List.getElem_mem _)

end Aggregate

end ChainGovernance
