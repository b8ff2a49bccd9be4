import Mathlib.Tactic
import ChainGovernance.Proofs.Aggregate

/-!
Collecting finds the faults that checking would find.

Checking looks at the keys, as collecting does before it asks anybody, and at the signatures as well.
If all of these are valid, it finds the same as collecting: the same first key at fault, or the same
numbers (`verifyWith_eq_preflight`). So what collecting answers is what checking says of the signatures
of its wallets, put together one by one (`collect_eq_verifyWith`), as long as nobody refuses
(`collect_of_refusal`).
-/

namespace ChainGovernance

/-- A wallet that signs the message when it is asked. -/
def Wallet.Willing (message : Bytes) (w : Wallet) : Prop :=
  ∃ signature, w.sign message = .ok signature

namespace Aggregate

variable {valid : PublicKey → Bytes → Signature → Bool} {stage : Stage} {set : SignerSet}
  {message : Bytes}

theorem verifyWith_eq_preflight {a : Aggregate} (ht : a.threshold = set.threshold)
    (hv : ∀ p ∈ a.pairs, valid p.1 message p.2 = true) :
    a.verifyWith valid stage set message = preflight stage set (a.pairs.map Prod.fst) := by
  have hpairs : pairsFault? valid stage set message [] a.pairs =
      signersFault? stage set [] (a.pairs.map Prod.fst) := pairsFault?_eq_signersFault? hv
  unfold verifyWith preflight size
  rw [if_neg (not_not.2 ht), ht, List.length_map]
  cases hfault : signersFault? stage set [] (a.pairs.map Prod.fst) with
  | some e => simp only [hpairs.trans hfault]
  | none => simp only [hpairs.trans hfault]

/-! ### Wallets that sign -/

/-- The signatures of wallets, put together one by one. -/
def gathered (set : SignerSet) (signed : List (Wallet × Signature)) : Aggregate :=
  signed.foldl (fun a p => a.push p.1.publicKey p.2) ⟨set.threshold, []⟩

theorem foldl_push (signed : List (Wallet × Signature)) (a : Aggregate) :
    signed.foldl (fun a p => a.push p.1.publicKey p.2) a =
      ⟨a.threshold, a.pairs ++ signed.map fun p => (p.1.publicKey, p.2)⟩ := by
  induction signed generalizing a with
  | nil => simp
  | cons p signed ih =>
    rw [List.foldl_cons, ih, push, List.append_assoc]
    rfl

theorem gathered_eq (signed : List (Wallet × Signature)) :
    gathered set signed = ⟨set.threshold, signed.map fun p => (p.1.publicKey, p.2)⟩ :=
  foldl_push signed _

theorem mapM_ask_eq_ok {signed : List (Wallet × Signature)}
    (h : ∀ p ∈ signed, p.1.sign message = .ok p.2) :
    (signed.map Prod.fst).mapM (ask stage message) =
      .ok (signed.map fun p => (p.1.publicKey, p.2)) := by
  rw [mapM_eq_ok_iff, List.forall₂_map_left_iff, List.forall₂_map_right_iff, List.forall₂_same]
  intro p hp
  exact (ask_eq_ok_iff stage).2 ⟨rfl, h p hp⟩

/-- If every wallet signs, then all that can be at fault are the keys. -/
theorem collect_of_signed {signed : List (Wallet × Signature)}
    (h : ∀ p ∈ signed, p.1.sign message = .ok p.2) :
    collect stage set (signed.map Prod.fst) message =
      (preflight stage set (signed.map fun p => p.1.publicKey)).map fun _ =>
        gathered set signed := by
  rw [collect_eq_preflight, List.map_map, mapM_ask_eq_ok h, gathered_eq]
  rfl

theorem collect_eq_verifyWith {signed : List (Wallet × Signature)}
    (h : ∀ p ∈ signed, p.1.sign message = .ok p.2 ∧ valid p.1.publicKey message p.2 = true) :
    collect stage set (signed.map Prod.fst) message =
      ((gathered set signed).verifyWith valid stage set message).map fun _ =>
        gathered set signed := by
  have hthreshold : (gathered set signed).threshold = set.threshold := by rw [gathered_eq]
  have hvalid : ∀ p ∈ (gathered set signed).pairs, valid p.1 message p.2 = true := by
    rw [gathered_eq, List.forall_mem_map]
    exact fun p hp => (h p hp).2
  have hkeys : (gathered set signed).pairs.map Prod.fst = signed.map fun p => p.1.publicKey := by
    rw [gathered_eq, List.map_map]
    rfl
  rw [collect_of_signed fun p hp => (h p hp).1, verifyWith_eq_preflight hthreshold hvalid, hkeys]

/-! ### Wallets that refuse -/

theorem exists_signed {message : Bytes} {wallets : List Wallet}
    (h : ∀ w ∈ wallets, w.Willing message) :
    ∃ signed : List (Wallet × Signature),
      signed.map Prod.fst = wallets ∧ ∀ p ∈ signed, p.1.sign message = .ok p.2 := by
  induction wallets with
  | nil => exact ⟨[], rfl, List.forall_mem_nil _⟩
  | cons w wallets ih =>
    obtain ⟨⟨s, hs⟩, h⟩ := List.forall_mem_cons.1 h
    obtain ⟨signed, rfl, hsigned⟩ := ih h
    exact ⟨(w, s) :: signed, rfl, List.forall_mem_cons.2 ⟨hs, hsigned⟩⟩

theorem mapM_ask_eq_error {before after : List Wallet} {w : Wallet} {cause : CryptoError}
    (hbefore : ∀ v ∈ before, v.Willing message) (hw : w.sign message = .error cause) :
    (before ++ w :: after).mapM (ask stage message) =
      .error (.signing stage w.publicKey cause) := by
  refine mapM_eq_error_of_first (fun v hv => ?_) (ask_eq_error_iff.2 ⟨cause, hw, rfl⟩)
  obtain ⟨s, hs⟩ := hbefore v hv
  exact ⟨(v.publicKey, s), (ask_eq_ok_iff stage).2 ⟨rfl, hs⟩⟩

/-- Whatever the keys are, there is no aggregate. -/
theorem collect_of_refusal {before after : List Wallet} {w : Wallet} {cause : CryptoError}
    (hbefore : ∀ v ∈ before, v.Willing message) (hw : w.sign message = .error cause) :
    collect stage set (before ++ w :: after) message =
      preflight stage set ((before ++ w :: after).map (·.publicKey)) >>= fun _ =>
        .error (.signing stage w.publicKey cause) := by
  rw [collect_eq_preflight, mapM_ask_eq_error hbefore hw]
  rfl

/-- **Collecting agrees with checking.** If every wallet gives a valid signature, then collecting
succeeds with what they give, put together one by one, if that passes the check, and otherwise fails
with the error of the check. If a wallet refuses, collecting fails as it would if the same keys all
signed, or else with the first wallet that refuses. -/
theorem collect_agrees (valid : PublicKey → Bytes → Signature → Bool) (stage : Stage)
    (set : SignerSet) (message : Bytes) :
    (∀ signed : List (Wallet × Signature),
      (∀ p ∈ signed, p.1.sign message = .ok p.2 ∧ valid p.1.publicKey message p.2 = true) →
      collect stage set (signed.map Prod.fst) message =
        ((gathered set signed).verifyWith valid stage set message).map fun _ =>
          gathered set signed) ∧
    (∀ before w after cause willing, (∀ v ∈ before, v.Willing message) →
      w.sign message = .error cause →
      willing.map (·.publicKey) = (before ++ w :: after).map (·.publicKey) →
      (∀ v ∈ willing, v.Willing message) →
      (∀ e, collect stage set willing message = .error e →
        collect stage set (before ++ w :: after) message = .error e) ∧
      ∀ a, collect stage set willing message = .ok a →
        collect stage set (before ++ w :: after) message =
          .error (.signing stage w.publicKey cause)) := by
  refine ⟨fun signed h => collect_eq_verifyWith h, ?_⟩
  intro before w after cause willing hbefore hw hkeys hwilling
  obtain ⟨signed, rfl, hsigned⟩ := exists_signed hwilling
  have hsame : signed.map (fun p => p.1.publicKey) =
      (before ++ w :: after).map (·.publicKey) := by
    rw [← hkeys, List.map_map]
    rfl
  rw [collect_of_signed hsigned, collect_of_refusal hbefore hw, hsame]
  -- the keys are found at fault in both, or in neither
  cases preflight stage set ((before ++ w :: after).map (·.publicKey)) with
  | error e => exact ⟨fun _ h => h, nofun⟩
  | ok u =>
    refine ⟨fun e h => ?_, fun _ _ => rfl⟩
    cases h

/-! ### Four keys -/

/-- The two spellings of the neutral point, and the two points with `y = 0`, which have order
four. -/
def smallKeys : List PublicKey :=
  [⟨⟨1 :: List.replicate 30 0 ++ [0x00], rfl⟩, by decide +kernel⟩,
    ⟨⟨1 :: List.replicate 30 0 ++ [0x80], rfl⟩, by decide +kernel⟩,
    ⟨⟨0 :: List.replicate 30 0 ++ [0x00], rfl⟩, by decide +kernel⟩,
    ⟨⟨0 :: List.replicate 30 0 ++ [0x80], rfl⟩, by decide +kernel⟩]

/-- The neutral point with the number zero. Checking multiplies by eight, so that this is a signature
of anything under each of the four keys. -/
def neutralSignature : Signature := ⟨⟨1 :: List.replicate 63 0, rfl⟩⟩

theorem verify_smallKeys : ∀ key ∈ smallKeys, key.verify [7] neutralSignature = true := by
  decide +kernel

/-- Three of the four keys have to sign. -/
def smallSet : SignerSet where
  keys := smallKeys
  threshold := 3
  length_le := by decide
  nodup := by decide
  threshold_pos := by decide
  threshold_le := by decide

/-- What the wallets of keys sign, if each of them has that signature. -/
def smallSigned (keys : List PublicKey) : List (Wallet × Signature) :=
  keys.map fun key => (⟨key, fun _ => .ok neutralSignature⟩, neutralSignature)

theorem smallSigned_valid {keys : List PublicKey} (h : keys ⊆ smallKeys) :
    ∀ p ∈ smallSigned keys,
      p.1.sign [7] = .ok p.2 ∧ p.1.publicKey.verify [7] p.2 = true := by
  refine List.forall_mem_map.2 fun key hkey => ⟨rfl, ?_⟩
  exact verify_smallKeys key (h hkey)

theorem verify_smallSigned (stage : Stage) {keys : List PublicKey} (h : keys ⊆ smallKeys)
    (hnodup : keys.Nodup) (hthree : 3 ≤ keys.length) :
    (gathered smallSet (smallSigned keys)).verifyWith PublicKey.verify stage smallSet [7] =
      .ok () := by
  have hkeys : (smallSigned keys).map (fun p => p.1.publicKey) = keys := by
    rw [smallSigned, List.map_map]
    exact List.map_id keys
  have hvalid : ∀ p ∈ (gathered smallSet (smallSigned keys)).pairs, p.1.verify [7] p.2 = true := by
    rw [gathered_eq, List.forall_mem_map]
    exact fun p hp => (smallSigned_valid h p hp).2
  rw [verifyWith_eq_preflight (by rw [gathered_eq]) hvalid, gathered_eq, List.map_map]
  exact preflight_eq_ok_iff.2 (hkeys.symm ▸ ⟨h, hnodup, hthree⟩)

/-- Three of the wallets sign, and then the fourth refuses. -/
theorem collect_agrees_locked :
    let signed := smallSigned (smallKeys.take 3)
    let locked : Wallet := ⟨smallKeys[3], fun _ => .error (.signingFailed "locked")⟩
    collect .quorum smallSet (signed.map Prod.fst) [7] = .ok (gathered smallSet signed) ∧
      collect .quorum smallSet (signed.map Prod.fst ++ [locked]) [7] =
        .error (.signing .quorum smallKeys[3] (.signingFailed "locked")) := by
  intro signed locked
  have hagrees := collect_agrees PublicKey.verify .quorum smallSet [7]
  have hthree := smallSigned_valid (List.take_subset 3 smallKeys)
  have hfour := smallSigned_valid (List.Subset.refl smallKeys)
  have hverify := verify_smallSigned .quorum (List.take_subset 3 smallKeys) (by decide) (by decide)
  constructor
  · rw [hagrees.1 signed hthree, hverify]
    rfl
  · have hbefore : ∀ w ∈ signed.map Prod.fst, w.Willing [7] :=
      List.forall_mem_map.2 fun p hp => ⟨p.2, (hthree p hp).1⟩
    have hwilling : ∀ w ∈ (smallSigned smallKeys).map Prod.fst, w.Willing [7] :=
      List.forall_mem_map.2 fun p hp => ⟨p.2, (hfour p hp).1⟩
    have hcollect : collect .quorum smallSet ((smallSigned smallKeys).map Prod.fst) [7] =
        .ok (gathered smallSet (smallSigned smallKeys)) := by decide
    have hkeys : ((smallSigned smallKeys).map Prod.fst).map (·.publicKey) =
        (signed.map Prod.fst ++ [locked]).map (·.publicKey) := rfl
    exact (hagrees.2 _ locked [] _ _ hbefore rfl hkeys hwilling).2 _ hcollect

end Aggregate

end ChainGovernance
