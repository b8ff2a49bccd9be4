import Mathlib.Tactic
import ChainGovernance.Proofs.Node.Assembling
import ChainGovernance.Proofs.Operator.Invoking

/-!
Invoking an action on a ledger that seals when it is asked.

What is signed can be read under the default limits, so the ledger takes it in. The first query seals
it, with all that was pending before it, and the block of that query is the tip, which is deep enough
for a single confirmation. So the wait is over with its first round, no time passes, and all that can
go wrong is the signing (`invoke_exact`).
-/

namespace ChainGovernance

namespace Ledger

variable {genesis : UInt32} {l l' : Ledger} {t : Transaction} {b : Block}

/-! ### One more transaction -/

/-- A ledger that answers calls, gives transactions their own names, seals them when it is asked for
one, and has room for a block. -/
structure SealsWhenAsked (l : Ledger) : Prop extends Responsive l where
  autoSeal : l.switches.autoSeal = true
  truthful : l.switches.misreportHashes = false
  height : l.tip.height.toNat < 2 ^ 32 - 1
  timestamp : l.tip.header.timestamp.toNat < 2 ^ 32 - 1

/-- The ledger when it has taken in a transaction. -/
def taking (l : Ledger) (t : Transaction) : Ledger :=
  { l with submitted := l.submitted ++ [t.encode], pending := l.pending ++ [t] }

theorem SealsWhenAsked.sendRawTransaction (hl : l.SealsWhenAsked)
    (ht : (Transaction.format {}).decode t.encode = .ok t) :
    respond (.sendRawTransaction t.encode) l = .ok ⟨.value t.hash, l.taking t, 0⟩ := by
  rw [hl.toResponsive.respond_eq]
  simp only [serve, send, ht, hl.truthful]
  rfl

/-- The transaction itself is pending, whatever else is, so that the query for it seals a block. -/
theorem SealsWhenAsked.transactionHeight (hl : l.SealsWhenAsked)
    (hseal : (l.taking t).sealBlock = .ok l') : respond (.transactionHeight t.hash) (l.taking t) =
      .ok ⟨.value (l'.included.lookup t.hash), l', 0⟩ := by
  have hopen : (l.taking t).Responsive := hl.toResponsive.of_switches rfl
  have hcondition : ((l.taking t).switches.autoSeal && !(l.taking t).pending.isEmpty) = true := by
    simp [taking, hl.autoSeal]
  rw [hopen.respond_eq, serve, hcondition, sealIf, if_pos rfl, hseal]
  rfl

/-- There is room for a block if the height and the timestamp of the tip have successors. -/
theorem exists_sealBlock (hheight : l.tip.height.toNat < 2 ^ 32 - 1)
    (htime : l.tip.header.timestamp.toNat < 2 ^ 32 - 1) : ∃ l', l.sealBlock = .ok l' := by
  obtain ⟨b, hb⟩ : ∃ b, l.nextBlock = .ok b := Block.exists_extend_iff.2 ⟨hheight, htime⟩
  unfold sealBlock
  rw [hb]
  exact ⟨_, rfl⟩

/-- A ledger takes in a transaction, and seals it after all that was pending before it. -/
structure Seals (l : Ledger) (t : Transaction) (b : Block) (l' : Ledger) : Prop where
  next : Block.Next l.tip b
  transactions : b.transactions = l.pending ++ [t]
  blocks : l'.blocks = l.blocks ++ [b]
  pending : l'.pending = []
  submitted : l'.submitted = l.submitted ++ [t.encode]
  storage : l'.storage = l.storage
  switches : l'.switches = l.switches
  reported : respond (.transactionHeight t.hash) l' = .ok ⟨.value (some b.height), l', 0⟩
  found : respond (.blockByHeight b.height) l' = .ok ⟨.value (some b), l', 0⟩

theorem Seals.tip_eq (h : l.Seals t b l') : l'.tip = b :=
  List.singleton_inj.1 (List.append_inj' h.blocks rfl).2

theorem Consistent.seals (h : l.Consistent genesis) (hl : l.SealsWhenAsked)
    (hseal : (l.taking t).sealBlock = .ok l') :
    ∃ b, l.Seals t b l' ∧ l'.included.lookup t.hash = some b.height := by
  obtain ⟨b, hnext, hts, hl'⟩ := sealBlock_eq_ok hseal
  have hblocks : l'.blocks = l.blocks ++ [b] := by rw [hl']; rfl
  have hswitches : l'.switches = l.switches := by rw [hl']; rfl
  have hincluded : l'.included.lookup t.hash = some b.height := by
    have hmem : ∃ t' ∈ (l.taking t).pending, t'.hash = t.hash :=
      ⟨t, List.mem_append_right _ (List.mem_singleton_self t), rfl⟩
    rw [hl']
    exact (lookup_foldl_bind ..).trans (if_pos hmem)
  refine ⟨b, ?_, hincluded⟩
  constructor
  case next => exact hnext
  case transactions => exact hts
  case blocks => exact hblocks
  case switches => exact hswitches
  case reported =>
    rw [← hincluded]
    exact transactionHeight_again (hl.transactionHeight hseal) rfl
  case found =>
    have hresponsive : l'.Responsive := hl.toResponsive.of_switches hswitches
    rw [hresponsive.blockByHeight, hblocks, h.toNat_height_next hnext, List.getElem?_concat_length]
  case pending => rw [hl']
  case submitted =>
    rw [hl']
    rfl
  case storage =>
    rw [hl']
    rfl

end Ledger

/-! ### Waiting for it -/

namespace Client

open Ledger

/-- A transaction is confirmed where it is included, if nothing is asked for beyond it. -/
theorem confirmedAt_le {confirmations : UInt32} (h : confirmations ≤ 1) (height : UInt32) :
    confirmedAt confirmations height ≤ height.toNat := by
  have hone : confirmations.toNat ≤ 1 := UInt32.le_iff_toNat_le.1 h
  unfold confirmedAt
  omega

theorem runIn_lookForTransaction {settings : Settings} {name : Digest} {w : World Ledger}
    {l' : Ledger} {h : UInt32}
    (hreported : respond (.transactionHeight name) w.node = .ok ⟨.value (some h), l', 0⟩)
    (hcurrent : respond .currentHeight l' = .ok ⟨.value l'.tip.height, l', 0⟩)
    (hdeep : confirmedAt settings.confirmations h ≤ l'.tip.height.toNat) :
    (lookForTransaction Ledger.node settings name).runIn w = .ok (.ok (some h), ⟨l', w.now⟩) := by
  rw [lookForTransaction, runIn_bind_of_ok (runIn_call_value hreported)]
  simp only
  rw [runIn_bind_of_ok (runIn_call_value hcurrent), if_pos hdeep, runIn_pure]

/-- The first round of the wait seals the block, and finds it deep enough. -/
theorem runIn_waitForTransaction {settings : Settings} {genesis : UInt32} {l : Ledger}
    {now : Instant} (h : l.Consistent genesis) (hl : l.SealsWhenAsked)
    (hconfirmations : settings.confirmations ≤ 1)
    (hdeadline : now.nanos + settings.confirmationTimeout < instantReach) (t : Transaction) :
    ∃ b l', l.Seals t b l' ∧
      (waitForTransaction Ledger.node settings t.hash).runIn ⟨l.taking t, now⟩ =
        .ok (.ok b.height, ⟨l', now⟩) := by
  obtain ⟨l', hseal⟩ := exists_sealBlock (l := l.taking t) hl.height hl.timestamp
  obtain ⟨b, hseals, hincluded⟩ := h.seals hl hseal
  have hreported := hl.transactionHeight hseal
  rw [hincluded] at hreported
  have hcurrent := (hl.toResponsive.of_switches hseals.switches).currentHeight
  have hdeep : confirmedAt settings.confirmations b.height ≤ l'.tip.height.toNat := by
    rw [hseals.tip_eq]
    exact confirmedAt_le hconfirmations b.height
  refine ⟨b, l', hseals, ?_⟩
  rw [waitForTransaction_eq]
  exact runIn_waitFor_of_found _ hdeadline (runIn_lookForTransaction hreported hcurrent hdeep)

end Client

/-! ### Invoking an action -/

namespace Operator

open Ledger Client

variable {o : Operator} {genesis : UInt32} {l : Ledger} {t : Transaction} {now : Instant}
  {name : String} {params : List Param} {set : SignerSet} {wallets : List Wallet}

theorem runIn_submit (hl : l.SealsWhenAsked)
    (ht : (Transaction.format {}).decode t.encode = .ok t) :
    (o.submit Ledger.node t).runIn ⟨l, now⟩ = .ok (.ok t.hash, ⟨l.taking t, now⟩) := by
  rw [submit, runIn_bind_of_ok (runIn_call_value (hl.sendRawTransaction ht)),
    if_neg (not_not.2 rfl), runIn_pure]

/-- What is signed is sent, and sealed. -/
theorem runIn_invoke (h : l.Consistent genesis) (hl : l.SealsWhenAsked)
    (hconfirmations : o.settings.confirmations ≤ 1)
    (hdeadline : now.nanos + o.settings.confirmationTimeout < instantReach)
    (hsign : o.signAt now name params set wallets = .ok t) :
    ∃ b l', l.Seals t b l' ∧ (o.invoke Ledger.node name params set wallets).runIn ⟨l, now⟩ =
      .ok (.ok t.hash, ⟨l', now⟩) := by
  have hsigned : (o.sign name params set wallets).runIn (⟨l, now⟩ : World Ledger) =
      .ok (.ok t, ⟨l, now⟩) := by
    rw [runIn_sign, hsign]
  have hsubmit : (o.submit Ledger.node t).runIn ⟨l, now⟩ = .ok (.ok t.hash, ⟨l.taking t, now⟩) :=
    runIn_submit hl (decode_of_signAt hsign)
  obtain ⟨b, l', hseals, hwait⟩ := runIn_waitForTransaction h hl hconfirmations hdeadline t
  refine ⟨b, l', hseals, ?_⟩
  rw [invoke, runIn_bind_of_ok hsigned, runIn_bind_of_ok hsubmit, runIn_bind_of_ok hwait,
    runIn_pure]

/-- **Nothing but the signing can fail.** On a ledger that seals when it is asked, and does nothing else
out of the ordinary, invoking an action reports a name exactly if signing it gives a transaction of
that name, and fails as signing does. What is signed can be read by the node. It is sealed at once, in
one block on the last one, after all that was pending and before any time has passed. -/
theorem invoke_exact (o : Operator) (genesis : UInt32) (moves : List Move) (l : Ledger)
    (now : Instant) (name : String) (params : List Param) (set : SignerSet) (wallets : List Wallet)
    (hl : (Ledger.new genesis).after moves = .ok l) (hseals : l.SealsWhenAsked)
    (hconfirmations : o.settings.confirmations ≤ 1)
    (hdeadline : now.nanos + o.settings.confirmationTimeout < instantReach) :
    let invoked := (o.invoke Ledger.node name params set wallets).runIn ⟨l, now⟩
    let signed := (o.sign name params set wallets).runIn (⟨l, now⟩ : World Ledger)
    (∀ hash, (∃ w, invoked = .ok (.ok hash, w)) ↔ ∃ t w, signed = .ok (.ok t, w) ∧ t.hash = hash) ∧
    (∀ e w, signed = .ok (.error e, w) → invoked = .ok (.error e, ⟨l, now⟩)) ∧
    ∀ t w, signed = .ok (.ok t, w) → (Transaction.format {}).decode t.encode = .ok t ∧
      ∃ b l', l.Seals t b l' ∧ invoked = .ok (.ok t.hash, ⟨l', now⟩) := by
  intro invoked signed
  have hconsistent : l.Consistent genesis := (consistent_new genesis).after hl
  have hsigned : signed = .ok (o.signAt now name params set wallets, ⟨l, now⟩) := runIn_sign
  cases hsign : o.signAt now name params set wallets with
  | error e =>
    rw [hsign] at hsigned
    have hinvoked : invoked = .ok (.error e, ⟨l, now⟩) := runIn_bind_of_error hsigned
    rw [hsigned, hinvoked]
    refine ⟨fun hash => ⟨?_, ?_⟩, ?_, ?_⟩
    · rintro ⟨w, hw⟩
      cases hw
    · rintro ⟨t, w, hw, -⟩
      cases hw
    · intro e' w hw
      obtain ⟨he, -⟩ := Prod.mk.inj (Except.ok.inj hw)
      rw [Except.error.inj he]
    · intro t w hw
      cases hw
  | ok t =>
    rw [hsign] at hsigned
    obtain ⟨b, l', hsealed, hrun⟩ :=
      runIn_invoke hconsistent hseals hconfirmations hdeadline hsign
    have hinvoked : invoked = .ok (.ok t.hash, ⟨l', now⟩) := hrun
    rw [hsigned, hinvoked]
    refine ⟨fun hash => ⟨?_, ?_⟩, ?_, ?_⟩
    · rintro ⟨w, hw⟩
      exact ⟨t, _, rfl, Except.ok.inj (Prod.mk.inj (Except.ok.inj hw)).1⟩
    · rintro ⟨t', w, hw, rfl⟩
      obtain rfl := Except.ok.inj (Prod.mk.inj (Except.ok.inj hw)).1
      exact ⟨_, rfl⟩
    · intro e w hw
      cases hw
    · intro t' w hw
      obtain rfl := Except.ok.inj (Prod.mk.inj (Except.ok.inj hw)).1
      exact ⟨decode_of_signAt hsign, b, l', hsealed, rfl⟩

/-- One transaction is pending when the black-listing of a node is signed with the neutral key, whose
signature passes the check; both are sealed in the second block. -/
theorem invoke_exact_sample :
    let moves : List Move :=
      [.call (.sendRawTransaction sampleTransaction.encode), .turn .autoSeal true]
    let wallet := Wallet.checked PublicKey.verify .neutral fun _ => Aggregate.neutralSignature
    let o : Operator := ⟨.governance, {}⟩
    ∃ l l' t b, (Ledger.new 5).after moves = .ok l ∧
      (o.sign "black_node" [] (.single .neutral) [wallet]).runIn (⟨l, .epoch⟩ : World Ledger) =
        .ok (.ok t, ⟨l, .epoch⟩) ∧
      t.signatures = [⟨1, [(.neutral, Aggregate.neutralSignature)]⟩] ∧
      (∀ a ∈ t.signatures, a.verify .transaction (.single .neutral) t.hash.toBytes = .ok ()) ∧
      (o.invoke Ledger.node "black_node" [] (.single .neutral) [wallet]).runIn ⟨l, .epoch⟩ =
        .ok (.ok t.hash, ⟨l', .epoch⟩) ∧
      b.transactions = [sampleTransaction, t] ∧ b.height.toNat = 1 ∧
      l'.blocks = [.genesis 5, b] ∧ l'.pending = [] := by
  intro moves wallet o
  let l : Ledger :=
    { Ledger.new 5 with
      pending := [sampleTransaction]
      submitted := [sampleTransaction.encode]
      switches := { autoSeal := true } }
  have hl : (Ledger.new 5).after moves = .ok l := by decide +kernel
  have hgiven : (o.signAt .epoch "black_node" [] (.single .neutral) [wallet]).map (fun t =>
      (t.signatures, t.signatures.map fun a =>
        a.verify .transaction (.single .neutral) t.hash.toBytes)) =
      .ok ([⟨1, [(.neutral, Aggregate.neutralSignature)]⟩], [.ok ()]) := by
    decide +kernel
  obtain ⟨t, hsign, hgiven⟩ := map_eq_ok_iff.1 hgiven
  obtain ⟨hsignatures, hverified⟩ := Prod.mk.inj hgiven
  have hverify : ∀ a ∈ t.signatures,
      a.verify .transaction (.single .neutral) t.hash.toBytes = .ok () := by
    intro a ha
    exact List.mem_singleton.1 (hverified ▸ List.mem_map_of_mem ha)
  have hsigned : (o.sign "black_node" [] (.single .neutral) [wallet]).runIn
      (⟨l, .epoch⟩ : World Ledger) = .ok (.ok t, ⟨l, .epoch⟩) := by
    rw [runIn_sign, hsign]
  have hwhenAsked : l.SealsWhenAsked := ⟨⟨rfl, rfl⟩, rfl, rfl, by decide, by decide⟩
  obtain ⟨-, -, hexact⟩ := invoke_exact o 5 moves l .epoch "black_node" [] (.single .neutral)
    [wallet] hl hwhenAsked (by decide) (by decide)
  obtain ⟨-, b, l', hseals, hinvoked⟩ := hexact t _ hsigned
  exact ⟨l, l', t, b, hl, hsigned, hsignatures, hverify, hinvoked, hseals.transactions,
    hseals.next.height, hseals.blocks, hseals.pending⟩

end Operator

end ChainGovernance
