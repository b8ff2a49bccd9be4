import Mathlib.Tactic
import ChainGovernance.Operator
import ChainGovernance.Proofs.Collecting
import ChainGovernance.Proofs.Hex
import ChainGovernance.Proofs.Signing
import ChainGovernance.Proofs.Node.Answering
import ChainGovernance.Proofs.Node.Leading
import ChainGovernance.Proofs.Node.Waiting

/-!
Invoking an action of the registry.

Nothing is sent before the action is built and signed; then one transaction is sent, once, and all
that follows are queries. When the operator reports its name, the ledger has it in a block that is
deep enough (`invoke_at_most_once`).
-/

namespace ChainGovernance

open Node (Call Halt Reaction)

/-! ### Waiting for a transaction -/

namespace Ledger

/-- What it takes for a transaction of a name to be confirmed: the ledger reports it, and has grown
far enough beyond it. -/
structure Confirms (confirmations : UInt32) (name : Digest) (h : UInt32) (l : Ledger) : Prop where
  reported : respond (.transactionHeight name) l = .ok ⟨.value (some h), l, 0⟩
  deep : min (h.toNat + max confirmations.toNat 1 - 1) (2 ^ 32 - 1) ≤ l.tip.height.toNat

end Ledger

namespace Client

open Ledger

variable {settings : Settings} {sent : List Bytes} {name : Digest}

theorem looks_lookForTransaction : Looks (fun l : Ledger => l.submitted = sent)
    (lookForTransaction Ledger.node settings name)
    (Confirms settings.confirmations name) := by
  intro w hsent
  have hhalt (c : Node.Call) (l : Ledger) (h : Halt) (hh : Ledger.node.respond c l = .error h) :
      h = .chainExhausted ∨ h = .clockOutOfRange := .inl (respond_eq_error hh)
  refine leadsTo_bind (Q := fun r w₁ => w₁.node.submitted = sent ∧ w.now.nanos ≤ w₁.now.nanos ∧
      ∀ v, r = .ok v → respond (.transactionHeight name) w₁.node = .ok ⟨.value v, w₁.node, 0⟩)
    (leadsTo_call (hhalt _ _) fun r t result hr ht hresult => ?_) ?_
    fun e w₁ h => ⟨h.1, h.2.1, nofun⟩
  · exact ⟨(submitted_of_transactionHeight hr).trans hsent, ht,
      fun v hv => transactionHeight_again hr (hresult v hv)⟩
  · rintro included w₁ ⟨hsent₁, hforward, hagain⟩
    cases included with
    | none => exact leadsTo_pure ⟨hsent₁, hforward, nofun⟩
    | some h =>
      refine leadsTo_bind (Q := fun r w₂ => w₂.node = w₁.node ∧ w₁.now.nanos ≤ w₂.now.nanos ∧
          ∀ c, r = .ok c → c = w₁.node.tip.height)
        (leadsTo_call (hhalt _ _) fun r t result hr ht hresult => ?_) ?_
        fun e w₂ h => ⟨h.1 ▸ hsent₁, hforward.trans h.2.1, nofun⟩
      · obtain ⟨hstate, hcurrent⟩ := respond_currentHeight hr
        exact ⟨hstate, ht, fun c hc => hcurrent c (hresult c hc)⟩
      · rintro current w₂ ⟨hstate, hforward₂, hcurrent⟩
        obtain rfl := hcurrent current rfl
        refine leadsTo_pure ⟨hstate ▸ hsent₁, hforward.trans hforward₂, fun v hv => ?_⟩
        split at hv
        · rename_i hdeep
          cases hv
          rw [confirmedAt_eq] at hdeep
          exact ⟨hstate.symm ▸ hagain _ rfl, hstate.symm ▸ hdeep⟩
        · cases hv

end Client

/-! ### Signing and submitting -/

/-- A transaction that executes an action: the set pays for it, and has signed it. -/
structure Transaction.Executes (valid : PublicKey → Bytes → Signature → Bool) (action : Action)
    (set : SignerSet) (t : Transaction) : Prop where
  payer : t.unsigned.payer = set.address
  contract : t.unsigned.invocation.contract = action.contract
  method : t.unsigned.invocation.method = action.method
  gasLimit : t.unsigned.gasLimit = action.gasLimit
  signed : ∃ a, t.signatures = [a] ∧ a.verifyWith valid .transaction set t.hash.toBytes = .ok ()

namespace Operator

open Ledger Client

variable {valid : PublicKey → Bytes → Signature → Bool} {o : Operator} {name : String}
  {params : List Param} {set : SignerSet} {wallets : List Wallet} {t : Transaction} {now : Instant}

theorem signAt_eq_ok_iff : o.signAt now name params set wallets = .ok t ↔
    ∃ action u, o.registry.get? name = some action ∧
      (o.draft action params set).build now = .ok u ∧ u.sign set wallets = .ok t := by
  have hfind : ∀ action, o.registry.find name = .ok action ↔
      o.registry.get? name = some action := by
    intro action
    unfold Registry.find
    cases o.registry.get? name <;> simp
  simp only [signAt, bind_eq_ok_iff, hfind]
  constructor
  · rintro ⟨action, haction, u, hu, ht⟩
    exact ⟨action, u, haction, hu, ht⟩
  · rintro ⟨action, u, haction, hu, ht⟩
    exact ⟨action, haction, u, hu, ht⟩

/-- What is signed can be read under the default limits. -/
theorem decode_of_signAt (h : o.signAt now name params set wallets = .ok t) :
    (Transaction.format {}).decode t.encode = .ok t := by
  obtain ⟨action, u, -, hu, ht⟩ := signAt_eq_ok_iff.1 h
  exact UnsignedTransaction.decode_of_sign rfl hu ht

theorem executes_of_signAt (h : o.signAt now name params set wallets = .ok t)
    (hwallets : ∀ w ∈ wallets, w.Honest valid) :
    (Transaction.format {}).decode t.encode = .ok t ∧
      ∃ action, o.registry.get? name = some action ∧ t.Executes valid action set := by
  obtain ⟨action, u, haction, hu, ht⟩ := signAt_eq_ok_iff.1 h
  refine ⟨decode_of_signAt h, action, haction, ?_⟩
  obtain ⟨a, ha, rfl⟩ := UnsignedTransaction.sign_eq_ok_iff.1 ht
  obtain ⟨contract, encoded, hcontract, -, -, -, rfl⟩ := Draft.build_eq_ok_iff.1 hu
  have hstands := Aggregate.stands_of_collect ha hwallets
  constructor
  case contract =>
    -- the address of the contract goes through its text
    exact Except.ok.inj (hcontract.symm.trans action.contract.ofText?_text)
  case signed => exact ⟨a, rfl, (Aggregate.verifyWith_eq_ok_iff .transaction).2 hstands⟩
  all_goals rfl

theorem runIn_sign {σ : Type} {w : World σ} :
    (o.sign name params set wallets).runIn w =
      .ok (o.signAt w.now name params set wallets, w) := rfl

theorem leadsTo_submit {w : World Ledger} (ht : (Transaction.format {}).decode t.encode = .ok t) :
    (o.submit Ledger.node t).LeadsTo w fun r w' =>
      (w'.node.submitted = w.node.submitted ∧ ∀ reported, r ≠ .ok reported) ∨
        w'.node.submitted = w.node.submitted ++ [t.encode] ∧
          ∀ reported, r = .ok reported → reported = t.hash := by
  refine leadsTo_bind (Q := fun r w₁ =>
      (w₁.node.submitted = w.node.submitted ∧ ∀ reported, r ≠ .ok reported) ∨
        w₁.node.submitted = w.node.submitted ++ [t.encode])
    (leadsTo_call (fun h hh => .inl (respond_eq_error hh)) fun r u result hr hu hresult => ?_) ?_ ?_
  · rcases respond_sendRawTransaction ht hr with ⟨hsubmitted, hnone⟩ | hsubmitted
    · exact .inl ⟨hsubmitted, fun v hv => hnone ⟨v, hresult v hv⟩⟩
    · exact .inr hsubmitted
  · rintro reported w₁ (⟨-, hnone⟩ | hsubmitted)
    · exact absurd rfl (hnone reported)
    · by_cases hname : reported = t.hash
      · rw [if_neg (not_not.2 hname)]
        refine leadsTo_pure (.inr ⟨hsubmitted, fun reported' h => ?_⟩)
        rw [← Except.ok.inj h, hname]
      · rw [if_pos hname]
        exact leadsTo_throw (.inr ⟨hsubmitted, nofun⟩)
  · rintro e w₁ (⟨hsubmitted, -⟩ | hsubmitted)
    · exact .inl ⟨hsubmitted, nofun⟩
    · exact .inr ⟨hsubmitted, nofun⟩

theorem leadsTo_invoke {w : World Ledger} (hp : 0 < o.settings.pollInterval)
    (hsign : o.signAt w.now name params set wallets = .ok t)
    (ht : (Transaction.format {}).decode t.encode = .ok t) :
    (o.invoke Ledger.node name params set wallets).LeadsTo w fun r w' =>
      (w'.node.submitted = w.node.submitted ∧ ∀ reported, r ≠ .ok reported) ∨
        w'.node.submitted = w.node.submitted ++ [t.encode] ∧ ∀ reported, r = .ok reported →
          reported = t.hash ∧ ∃ h, Confirms o.settings.confirmations reported h w'.node := by
  refine leadsTo_bind_of_ok (hsign ▸ runIn_sign) (leadsTo_bind (leadsTo_submit ht) ?_ ?_)
  · rintro reported w₁ (⟨-, hnone⟩ | ⟨hsubmitted, hname⟩)
    · exact absurd rfl (hnone reported)
    · refine leadsTo_bind (looks_lookForTransaction.leadsTo_waitFor hp hsubmitted) ?_ ?_
      · rintro h w₂ ⟨hsubmitted₂, hconfirms⟩
        refine leadsTo_pure (.inr ⟨hsubmitted₂, fun reported' hr => ?_⟩)
        obtain rfl := Except.ok.inj hr
        exact ⟨hname _ rfl, h, hconfirms h rfl⟩
      · rintro e w₂ ⟨hsubmitted₂, -⟩
        exact .inr ⟨hsubmitted₂, nofun⟩
  · rintro e w₁ (⟨hsubmitted, -⟩ | ⟨hsubmitted, -⟩)
    · exact .inl ⟨hsubmitted, nofun⟩
    · exact .inr ⟨hsubmitted, nofun⟩

/-- **Actions are submitted at most once.** Unless the chain or the clock has no room left, invoking
an action comes to an end. If it cannot be built or signed, nothing has changed. In any case there
is at most one more transaction, and if a name is reported, then that of a transaction that executes
the action and is confirmed. -/
theorem invoke_at_most_once (valid : PublicKey → Bytes → Signature → Bool) (o : Operator)
    (l : Ledger) (now : Instant) (name : String) (params : List Param) (set : SignerSet)
    (wallets : List Wallet)
    (hp : 0 < o.settings.pollInterval) (hwallets : ∀ w ∈ wallets, w.Honest valid) :
    let run := (o.invoke Ledger.node name params set wallets).runIn ⟨l, now⟩
    (∀ h, run = .error h → h = .chainExhausted ∨ h = .clockOutOfRange) ∧
    (∀ e, o.signAt now name params set wallets = .error e → run = .ok (.error e, ⟨l, now⟩)) ∧
    ∀ r w, run = .ok (r, w) →
      (w.node.submitted = l.submitted ∨ ∃ raw, w.node.submitted = l.submitted ++ [raw]) ∧
      ∀ hash, r = .ok hash → ∃ action raw t h, o.registry.get? name = some action ∧
        w.node.submitted = l.submitted ++ [raw] ∧ (Transaction.format {}).decode raw = .ok t ∧
        t.hash = hash ∧ t.Executes valid action set ∧
        Confirms o.settings.confirmations hash h w.node := by
  intro run
  cases hsign : o.signAt now name params set wallets with
  | error e =>
    have hrun : run = .ok (.error e, ⟨l, now⟩) := runIn_bind_of_error (hsign ▸ runIn_sign)
    rw [hrun]
    refine ⟨nofun, fun e' he' => by rw [Except.error.inj he'], fun r w hr => ?_⟩
    obtain ⟨rfl, rfl⟩ := Prod.mk.inj (Except.ok.inj hr)
    exact ⟨.inl rfl, nofun⟩
  | ok t =>
    obtain ⟨hdecode, action, haction, hexecutes⟩ := executes_of_signAt hsign hwallets
    have hleads := leadsTo_invoke (w := ⟨l, now⟩) hp hsign hdecode
    refine ⟨fun h hh => hleads.halt hh, (fun _ he => by cases he), fun r w hr => ?_⟩
    rcases hleads.ends hr with ⟨hsubmitted, hnone⟩ | ⟨hsubmitted, hok⟩
    · exact ⟨.inl hsubmitted, fun reported h => absurd h (hnone reported)⟩
    · refine ⟨.inr ⟨_, hsubmitted⟩, fun reported h => ?_⟩
      obtain ⟨rfl, height, hconfirms⟩ := hok reported h
      exact ⟨action, t.encode, t, height, haction, hsubmitted, hdecode, rfl, hexecutes, hconfirms⟩

/-- A signature with the neutral key is sent to a ledger that seals when it is asked. -/
theorem invoke_at_most_once_sample :
    let l : Ledger := { Ledger.new 5 with switches := { autoSeal := true } }
    let wallet := Wallet.checked PublicKey.verify .neutral fun _ => Aggregate.neutralSignature
    ∃ hash w raw t h, (invoke ⟨.governance, {}⟩ Ledger.node "black_node" [] (.single .neutral)
        [wallet]).runIn ⟨l, .epoch⟩ = .ok (.ok hash, w) ∧
      w.node.submitted = [raw] ∧ (Transaction.format {}).decode raw = .ok t ∧ t.hash = hash ∧
      t.Executes PublicKey.verify ⟨.governance, "blackNode", defaultGasLimit⟩ (.single .neutral) ∧
      Confirms 1 hash h w.node := by
  intro l wallet
  have hwallets : ∀ w ∈ [wallet], w.Honest PublicKey.verify := by
    intro w hw
    rw [List.mem_singleton.1 hw]
    exact Wallet.honest_checked _ _ _
  obtain ⟨-, -, hends⟩ := invoke_at_most_once PublicKey.verify ⟨.governance, {}⟩ l .epoch
    "black_node" [] (.single .neutral) [wallet] (by decide) hwallets
  have hok : ((invoke ⟨.governance, {}⟩ Ledger.node "black_node" [] (.single .neutral)
      [wallet]).runIn ⟨l, .epoch⟩).map (fun p => p.1.isOk) = .ok true := by decide +kernel
  obtain ⟨⟨r, w⟩, hrun, hr⟩ := map_eq_ok_iff.1 hok
  cases r with
  | error e => cases hr
  | ok hash =>
    obtain ⟨action, raw, t, h, haction, hsubmitted, hdecode, hname, hexecutes, hconfirms⟩ :=
      (hends _ _ hrun).2 hash rfl
    have hsame : Registry.governance.get? "black_node" =
      some ⟨.governance, "blackNode", defaultGasLimit⟩ := by decide +kernel
    obtain rfl := Option.some.inj (haction.symm.trans hsame)
    exact ⟨hash, w, raw, t, h, hrun, hsubmitted, hdecode, hname, hexecutes, hconfirms⟩

end Operator

end ChainGovernance
