import ChainGovernance.Aggregate
import ChainGovernance.Proofs.Checklist
import ChainGovernance.Proofs.Results

/-!
What it takes for an aggregate to stand for a set of signers, and what collecting gives.

`Stands` says when an aggregate stands for a set and a message, without an order; `checks` lists
what is checked, in order. `verifyWith_eq_ok_iff` and `verifyWith_follows` tie `verifyWith` to the
two. Collecting looks at the keys before it asks anybody (`preflight`), and finds what checking finds
of them afterwards (`pairsFault?_eq_signersFault?`), so what honest wallets give stands for the set
(`stands_of_collect`). `collect_error_cases` lists what else collecting may answer.
-/

namespace ChainGovernance

/-! ### Sets and wallets -/

@[simp] theorem SignerSet.contains_eq (s : SignerSet) (key : PublicKey) :
    s.contains key = decide (key ∈ s.keys) := by
  unfold contains position?
  rw [Bool.eq_iff_iff, List.isSome_idxOf?, decide_eq_true_iff]

/-- A wallet whose signatures are valid for its key, as far as it gives any. -/
def Wallet.Honest (valid : PublicKey → Bytes → Signature → Bool) (w : Wallet) : Prop :=
  ∀ message signature, w.sign message = .ok signature → valid w.publicKey message signature = true

/-- The wallet that checks each signature before it hands it out. -/
def Wallet.checked (valid : PublicKey → Bytes → Signature → Bool) (publicKey : PublicKey)
    (sign : Bytes → Signature) : Wallet where
  publicKey := publicKey
  sign message :=
    if valid publicKey message (sign message) then .ok (sign message)
    else .error (.signingFailed "signature does not verify")

theorem Wallet.honest_checked (valid : PublicKey → Bytes → Signature → Bool)
    (publicKey : PublicKey) (sign : Bytes → Signature) :
    (Wallet.checked valid publicKey sign).Honest valid := by
  intro message signature h
  simp only [checked] at h ⊢
  split at h
  · obtain rfl := Except.ok.inj h
    assumption
  · cases h

/-- The set of one key. -/
def SignerSet.single (key : PublicKey) : SignerSet where
  keys := [key]
  threshold := 1
  length_le := Nat.le_of_ble_eq_true rfl
  nodup := List.nodup_singleton key
  threshold_pos := le_rfl
  threshold_le := le_rfl

namespace Aggregate

open Check

/-- What it takes for an aggregate to stand for a set and a message. -/
structure Stands (valid : PublicKey → Bytes → Signature → Bool) (set : SignerSet)
    (message : Bytes) (a : Aggregate) : Prop where
  threshold : a.threshold = set.threshold
  member : ∀ p ∈ a.pairs, p.1 ∈ set.keys
  nodup : (a.pairs.map Prod.fst).Nodup
  valid : ∀ p ∈ a.pairs, valid p.1 message p.2 = true
  enough : set.threshold.toNat ≤ a.pairs.length

/-- What is checked of a pair that comes after the pairs `before`. -/
def pairChecks (valid : PublicKey → Bytes → Signature → Bool) (stage : Stage) (set : SignerSet)
    (message : Bytes) (before : List (PublicKey × Signature)) (p : PublicKey × Signature) :
    List Check :=
  [⟨p.1 ∈ set.keys, .unknownSigner stage p.1⟩,
    ⟨p.1 ∉ before.map Prod.fst, .duplicateSigner p.1⟩,
    ⟨valid p.1 message p.2 = true, .invalidSignature stage p.1⟩]

/-- What is checked of an aggregate: the threshold, the pairs one by one, and their number. -/
def checks (valid : PublicKey → Bytes → Signature → Bool) (stage : Stage) (set : SignerSet)
    (message : Bytes) (a : Aggregate) : List Check :=
  ⟨a.threshold = set.threshold, .thresholdMismatch set.threshold a.threshold⟩ ::
    ((a.pairs.zipIdx.flatMap fun p =>
        pairChecks valid stage set message (a.pairs.take p.2) p.1) ++
      [⟨set.threshold.toNat ≤ a.pairs.length,
        .quorumUnmet stage a.pairs.length set.threshold.toNat⟩])

variable {valid : PublicKey → Bytes → Signature → Bool} {stage : Stage} {set : SignerSet}
  {message : Bytes}

/-! ### Checking -/

theorem pairsFault?_eq_none_iff {seen : List PublicKey} {pairs : List (PublicKey × Signature)} :
    pairsFault? valid stage set message seen pairs = none ↔
      (∀ p ∈ pairs, p.1 ∈ set.keys ∧ p.1 ∉ seen ∧ valid p.1 message p.2 = true) ∧
        (pairs.map Prod.fst).Nodup := by
  induction pairs generalizing seen with
  | nil => simp [pairsFault?]
  | cons p pairs ih =>
    obtain ⟨key, signature⟩ := p
    rw [List.forall_mem_cons, List.map_cons, List.nodup_cons]
    by_cases hk : key ∈ set.keys
    swap
    · simp [pairsFault?, hk]
    by_cases hs : key ∈ seen
    · simp [pairsFault?, hk, hs]
    by_cases hv : valid key message signature = true
    swap
    · simp [pairsFault?, hk, hs, hv]
    have hstep : pairsFault? valid stage set message seen ((key, signature) :: pairs) =
        pairsFault? valid stage set message (key :: seen) pairs := by
      simp [pairsFault?, hk, hs, hv]
    rw [hstep, ih]
    constructor
    · rintro ⟨h, hn⟩
      refine ⟨⟨⟨hk, hs, hv⟩, fun p hp => ?_⟩, fun hm => ?_, hn⟩
      · obtain ⟨h1, h2, h3⟩ := h p hp
        exact ⟨h1, fun hm => h2 (List.mem_cons_of_mem _ hm), h3⟩
      · obtain ⟨p, hp, he⟩ := List.mem_map.1 hm
        exact (h p hp).2.1 (List.mem_cons.2 (.inl he))
    · rintro ⟨⟨-, h⟩, hm, hn⟩
      refine ⟨fun p hp => ?_, hn⟩
      obtain ⟨h1, h2, h3⟩ := h p hp
      have hne : p.1 ≠ key := fun he => hm (List.mem_map.2 ⟨p, hp, he⟩)
      exact ⟨h1, List.not_mem_cons_of_ne_of_not_mem hne h2, h3⟩

/-- The result of an optional fault. -/
def resultOf : Option Error → Except Error Unit
  | none => .ok ()
  | some e => .error e

/-- **The loop over the pairs.** It has `before` behind it, and its `seen` holds the keys of
`before`. -/
theorem pairsFault?_follows {seen : List PublicKey} (before pairs : List (PublicKey × Signature))
    (hseen : ∀ key, key ∈ seen ↔ key ∈ before.map Prod.fst) :
    Follows ((pairs.zipIdx before.length).flatMap fun p =>
        pairChecks valid stage set message ((before ++ pairs).take p.2) p.1)
      (resultOf (pairsFault? valid stage set message seen pairs)) := by
  induction pairs generalizing before seen with
  | nil => exact follows_nil
  | cons p pairs ih =>
    obtain ⟨key, signature⟩ := p
    rw [List.zipIdx_cons, List.flatMap_cons, pairsFault?]
    simp only [pairChecks, List.take_left, List.cons_append, List.nil_append,
      apply_ite resultOf]
    refine .guard (by simp) fun _ => .guard (by rw [hseen, not_not]) fun _ =>
      .guard (by simp) fun _ => ?_
    have hseen' : ∀ k, k ∈ key :: seen ↔ k ∈ (before ++ [(key, signature)]).map Prod.fst := by
      intro k
      rw [List.map_append, List.mem_append, List.mem_cons, hseen k, or_comm]
      simp
    have h := ih (before ++ [(key, signature)]) hseen'
    rwa [List.length_append, List.append_assoc] at h

theorem verifyWith_follows (a : Aggregate) :
    Follows (a.checks valid stage set message) (a.verifyWith valid stage set message) := by
  unfold checks verifyWith
  refine .guard Iff.rfl fun ht => ?_
  have hp : Follows (a.pairs.zipIdx.flatMap fun p =>
      pairChecks valid stage set message (a.pairs.take p.2) p.1)
      (resultOf (pairsFault? valid stage set message [] a.pairs)) :=
    pairsFault?_follows [] a.pairs (by simp)
  have hn : Follows [⟨set.threshold.toNat ≤ a.pairs.length,
      .quorumUnmet stage a.pairs.length set.threshold.toNat⟩]
      (if a.size < a.threshold.toNat then
        .error (.quorumUnmet stage a.size a.threshold.toNat) else .ok ()) := by
    unfold size
    rw [ht]
    exact .guard Nat.not_le.symm fun _ => follows_nil
  have h := hp.bind hn
  cases hf : pairsFault? valid stage set message [] a.pairs with
  | none => rwa [hf] at h
  | some e => rwa [hf] at h

theorem verifyWith_eq_ok_iff (stage : Stage) {a : Aggregate} :
    a.verifyWith valid stage set message = .ok () ↔ a.Stands valid set message := by
  have hpairs : pairsFault? valid stage set message [] a.pairs = none ↔
      (∀ p ∈ a.pairs, p.1 ∈ set.keys ∧ p.1 ∉ [] ∧ valid p.1 message p.2 = true) ∧
        (a.pairs.map Prod.fst).Nodup := pairsFault?_eq_none_iff
  unfold verifyWith size
  by_cases ht : a.threshold = set.threshold
  · rw [if_neg (not_not.2 ht), ht]
    constructor
    · intro h
      split at h
      · cases h
      · rename_i hf
        split at h
        · cases h
        · obtain ⟨hp, hn⟩ := hpairs.1 hf
          exact ⟨ht, fun p hm => (hp p hm).1, hn, fun p hm => (hp p hm).2.2, by omega⟩
    · intro h
      rw [hpairs.2 ⟨fun p hm => ⟨h.member p hm, by simp, h.valid p hm⟩, h.nodup⟩]
      exact if_neg (Nat.not_lt.2 h.enough)
  · rw [if_pos ht]
    exact ⟨nofun, fun h => absurd h.threshold ht⟩

theorem Stands.length_le {a : Aggregate} (h : a.Stands valid set message) :
    a.pairs.length ≤ set.keys.length := by
  have hsub : a.pairs.map Prod.fst ⊆ set.keys := by
    intro key hkey
    obtain ⟨p, hp, rfl⟩ := List.mem_map.1 hkey
    exact h.member p hp
  have hlen := (List.subperm_of_subset h.nodup hsub).length_le
  rwa [List.length_map] at hlen

/-! ### Collecting -/

theorem ask_eq_ok_iff (stage : Stage) {w : Wallet} {p : PublicKey × Signature} :
    ask stage message w = .ok p ↔ w.publicKey = p.1 ∧ w.sign message = .ok p.2 := by
  unfold ask
  cases w.sign message <;> simp [Prod.ext_iff]

theorem ask_eq_error_iff {w : Wallet} {e : Error} :
    ask stage message w = .error e ↔
      ∃ cause, w.sign message = .error cause ∧ e = .signing stage w.publicKey cause := by
  unfold ask
  cases w.sign message <;> simp [eq_comm]

/-- **The two loops agree.** Where every signature is valid, the faults of pairs are those of their
keys. -/
theorem pairsFault?_eq_signersFault? {seen : List PublicKey}
    {pairs : List (PublicKey × Signature)} (hv : ∀ p ∈ pairs, valid p.1 message p.2 = true) :
    pairsFault? valid stage set message seen pairs =
      signersFault? stage set seen (pairs.map Prod.fst) := by
  induction pairs generalizing seen with
  | nil => rfl
  | cons p pairs ih =>
    obtain ⟨key, signature⟩ := p
    obtain ⟨hp, hpairs⟩ := List.forall_mem_cons.1 hv
    simp only [pairsFault?, signersFault?, List.map_cons, ih hpairs, hp, Bool.not_true,
      Bool.false_eq_true, if_false]

theorem signersFault?_eq_none_iff (stage : Stage) {keys : List PublicKey} :
    signersFault? stage set [] keys = none ↔ (∀ key ∈ keys, key ∈ set.keys) ∧ keys.Nodup := by
  -- the signatures do not matter, so that all of them may be valid
  let pairs : List (PublicKey × Signature) := keys.map fun key => (key, ⟨.zero 64⟩)
  have hkeys : pairs.map Prod.fst = keys := by
    rw [List.map_map]
    exact List.map_id keys
  have hnone : pairsFault? (fun _ _ _ => true) stage set [] [] pairs = none ↔
      (∀ p ∈ pairs, p.1 ∈ set.keys ∧ p.1 ∉ [] ∧ true = true) ∧ (pairs.map Prod.fst).Nodup :=
    pairsFault?_eq_none_iff
  rw [pairsFault?_eq_signersFault? fun _ _ => rfl, hkeys] at hnone
  simpa [pairs] using hnone

/-- What is found of the keys of wallets, before anybody is asked. -/
def preflight (stage : Stage) (set : SignerSet) (keys : List PublicKey) : Except Error Unit :=
  match signersFault? stage set [] keys with
  | some e => .error e
  | none =>
    if keys.length < set.threshold.toNat then
      .error (.quorumUnmet stage keys.length set.threshold.toNat)
    else .ok ()

theorem preflight_eq_ok_iff {keys : List PublicKey} :
    preflight stage set keys = .ok () ↔
      (∀ key ∈ keys, key ∈ set.keys) ∧ keys.Nodup ∧ set.threshold.toNat ≤ keys.length := by
  rw [← and_assoc, ← signersFault?_eq_none_iff stage, preflight]
  cases signersFault? stage set [] keys with
  | some e => simp
  | none => simp

theorem collect_eq_preflight (wallets : List Wallet) :
    collect stage set wallets message =
      preflight stage set (wallets.map (·.publicKey)) >>= fun _ =>
        wallets.mapM (ask stage message) >>= fun pairs => pure ⟨set.threshold, pairs⟩ := by
  unfold collect preflight
  rw [List.length_map]
  cases signersFault? stage set [] (wallets.map (·.publicKey)) with
  | some e => rfl
  | none =>
    by_cases hn : wallets.length < set.threshold.toNat
    · simp only [if_pos hn]
      rfl
    · simp only [if_neg hn]
      rfl

theorem collect_eq_ok_iff {wallets : List Wallet} {a : Aggregate} :
    collect stage set wallets message = .ok a ↔
      preflight stage set (wallets.map (·.publicKey)) = .ok () ∧ a.threshold = set.threshold ∧
        List.Forall₂ (fun w p => w.publicKey = p.1 ∧ w.sign message = .ok p.2) wallets a.pairs := by
  simp only [← ask_eq_ok_iff stage, ← mapM_eq_ok_iff]
  simp only [collect_eq_preflight, bind_eq_ok_iff, pure_eq_ok_iff]
  constructor
  · rintro ⟨⟨⟩, hpreflight, pairs, hpairs, rfl⟩
    exact ⟨hpreflight, rfl, hpairs⟩
  · rintro ⟨hpreflight, ht, hpairs⟩
    exact ⟨(), hpreflight, a.pairs, hpairs, by rw [← ht]⟩

/-- **What honest wallets give stands for the set.** -/
theorem stands_of_collect {wallets : List Wallet} {a : Aggregate}
    (h : collect stage set wallets message = .ok a) (hw : ∀ w ∈ wallets, w.Honest valid) :
    a.Stands valid set message := by
  obtain ⟨hpreflight, ht, hp⟩ := collect_eq_ok_iff.1 h
  have hkeys : wallets.map (·.publicKey) = a.pairs.map Prod.fst := by
    rw [← List.forall₂_eq_eq_eq, List.forall₂_map_left_iff, List.forall₂_map_right_iff]
    exact hp.imp fun w p h => h.1
  rw [hkeys, preflight_eq_ok_iff, List.length_map] at hpreflight
  obtain ⟨hmember, hnodup, henough⟩ := hpreflight
  refine ⟨ht, List.forall_mem_map.1 hmember, hnodup, fun p hm => ?_, henough⟩
  obtain ⟨w, hm, hk, hs⟩ := exists_left_of_forall₂ hp hm
  exact hk ▸ hw w hm message p.2 hs

/-- Whoever signs, only members do, and each of them once. -/
theorem length_le_of_collect {wallets : List Wallet} {a : Aggregate}
    (h : collect stage set wallets message = .ok a) : a.pairs.length ≤ set.keys.length := by
  have hstands : a.Stands (fun _ _ _ => true) set message :=
    stands_of_collect h fun _ _ _ _ _ => rfl
  exact hstands.length_le

theorem signersFault?_cases {seen keys : List PublicKey} {e : Error}
    (h : signersFault? stage set seen keys = some e) :
    ∃ key, e = .unknownSigner stage key ∨ e = .duplicateSigner key := by
  induction keys generalizing seen with
  | nil => cases h
  | cons key keys ih =>
    unfold signersFault? at h
    split at h
    · cases h
      exact ⟨key, .inl rfl⟩
    · split at h
      · cases h
        exact ⟨key, .inr rfl⟩
      · exact ih h

theorem collect_error_cases {wallets : List Wallet} {e : Error}
    (h : collect stage set wallets message = .error e) :
    (∃ key, e = .unknownSigner stage key ∨ e = .duplicateSigner key) ∨
      (∃ got need, e = .quorumUnmet stage got need) ∨
      ∃ key cause, e = .signing stage key cause := by
  rw [collect_eq_preflight, bind_eq_error_iff] at h
  rcases h with h | ⟨-, -, h⟩
  · unfold preflight at h
    split at h
    · rename_i hf
      cases h
      exact .inl (signersFault?_cases hf)
    · split at h
      · cases h
        exact .inr (.inl ⟨_, _, rfl⟩)
      · cases h
  · rcases bind_eq_error_iff.1 h with hmapM | ⟨pairs, -, hpure⟩
    · obtain ⟨w, -, hw⟩ := exists_of_mapM_eq_error hmapM
      obtain ⟨cause, -, he⟩ := ask_eq_error_iff.1 hw
      exact .inr (.inr ⟨_, _, he⟩)
    · cases hpure

theorem ask_ne_outOfOrder {w : Wallet} {expected found : Emergency.Phase} :
    ask stage message w ≠ .error (.outOfOrder expected found) := by
  intro h
  obtain ⟨cause, -, he⟩ := ask_eq_error_iff.1 h
  cases he

theorem collect_ne_outOfOrder {wallets : List Wallet} {expected found : Emergency.Phase} :
    collect stage set wallets message ≠ .error (.outOfOrder expected found) := by
  intro h
  rcases collect_error_cases h with ⟨key, he | he⟩ | ⟨got, need, he⟩ | ⟨key, cause, he⟩ <;> cases he

end Aggregate

end ChainGovernance
