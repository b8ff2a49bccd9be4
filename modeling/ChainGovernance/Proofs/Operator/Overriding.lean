import Mathlib.Tactic
import ChainGovernance.Operator
import ChainGovernance.Proofs.Emergency.Agreement
import ChainGovernance.Proofs.Emergency.Readable
import ChainGovernance.Proofs.Emergency.Run
import ChainGovernance.Proofs.Node.Assembling

/-!
Emergency requests for the tip of a ledger.

An operator only asks the ledger for its tip and signs the block that follows it, so that nothing
changes. There is a request exactly if there is room for a block, the admins may sign, and nobody
refuses to (`requestOverride_exact`); nodes can read it, and follow it.
-/

namespace ChainGovernance

open Wire Emergency

/-- Without bookkeepers, all that may be too long for nodes is the payload, the number of
transactions, and what is in them. -/
theorem Block.decode_of_extend {tip : Tip} {version timestamp : UInt32} {blockRoot : Digest}
    {consensus : Consensus} {ts : List Transaction} {b : Block}
    (hb : extend tip version timestamp blockRoot consensus ts = .ok b)
    (hpayload : consensus.payload.length ≤ 2 ^ 20) (hcount : ts.length ≤ 2 ^ 14)
    (hts : ∀ t ∈ ts, (Transaction.format {}).decode t.encode = .ok t) :
    (Block.format {}).decode ((Block.format {}).write b) = .ok b := by
  obtain ⟨height, time, -, -, rfl⟩ := extend_eq_ok_iff.1 hb
  refine (Record.decode_encode_eq_ok_iff (k := .block)).2 ?_
  have hnone : Extent.Writable ⟨0, .upTo 1024, 2 ^ 64⟩ ∧ Extent.Fits ⟨0, .upTo 1024, 2 ^ 64⟩ := by
    decide
  refine List.forall_mem_append.2 ⟨?_, List.forall_mem_cons.2 ⟨⟨?_, Extent.fits_upTo.2 hcount⟩, ?_⟩⟩
  · refine List.forall_mem_cons.2 ⟨⟨?_, Extent.fits_upTo.2 hpayload⟩,
      List.forall_mem_cons.2 ⟨hnone, List.forall_mem_singleton.2 hnone⟩⟩
    exact hpayload.trans_lt (by norm_num)
  · exact hcount.trans_lt (by norm_num)
  · intro e he
    obtain ⟨t, ht, he⟩ := List.mem_flatMap.1 he
    exact (Record.decode_encode_eq_ok_iff (k := .transaction)).1 (hts t ht) e he

/-! ### Requests for the tip -/

namespace Operator

open Ledger Client

variable {o : Operator} {l : Ledger} {genesis : UInt32} {now : Instant} {reason : Reason}
  {evidence : Evidence} {ts : List Transaction} {consensus : Consensus}
  {proposer requester : Wallet} {admins : SignerSet} {wallets : List Wallet}

/-- The block that an operator would have follow the tip of a ledger. -/
def candidate (l : Ledger) (now : Instant) (consensus : Consensus) (ts : List Transaction) :
    Except Error Block :=
  Block.extend l.tip.tip 0 (timestampAt now)
    (foldRoot l.tip.header.blockRoot (transactionsRoot ts)) consensus ts

theorem runIn_requestOverride (hl : l.Consistent genesis) (hresponsive : l.Responsive)
    (hfold : l.switches.advanceOnFold = false) :
    (o.requestOverride Ledger.node reason evidence ts consensus proposer admins wallets
      requester).runIn ⟨l, now⟩ =
        .ok (candidate l now consensus ts >>= fun block =>
          (Ceremony.new reason evidence block).run proposer admins wallets requester,
          ⟨l, now⟩) := by
  have hblock := hresponsive.blockByHeight l.tip.height
  rw [hl.blocks_at_tip] at hblock
  have hassemble : (assemble Ledger.node o.settings.rpcTimeout 0 ts (timestampAt now)
      consensus).runIn ⟨l, now⟩ = .ok (candidate l now consensus ts, ⟨l, now⟩) := by
    rw [Client.runIn_assemble (w := ⟨l, now⟩) _ _ _ _ hresponsive.currentHeight hblock
      (hresponsive.foldRoot_keeps hfold _) hresponsive.currentHeight]
    exact congrArg (fun b => Except.ok (b, _)) (if_pos rfl)
  refine (runIn_bind_of_ok runIn_now).trans ?_
  cases hcandidate : candidate l now consensus ts with
  | error e => exact runIn_bind_of_error (hcandidate ▸ hassemble)
  | ok block =>
    exact (runIn_bind_of_ok (hcandidate ▸ hassemble)).trans (runIn_ofExcept _)

theorem exists_candidate_iff : (∃ block, candidate l now consensus ts = .ok block) ↔
    l.tip.height.toNat < 2 ^ 32 - 1 ∧ l.tip.header.timestamp.toNat < 2 ^ 32 - 1 :=
  Block.exists_extend_iff

theorem exists_request_iff :
    (∃ r, (candidate l now consensus ts >>= fun block =>
        (Ceremony.new reason evidence block).run proposer admins wallets requester) = .ok r) ↔
      (∃ block, candidate l now consensus ts = .ok block) ∧
        Aggregate.preflight .quorum admins (wallets.map (·.publicKey)) = .ok () ∧
        ∀ block, candidate l now consensus ts = .ok block →
          Ceremony.Unrefused reason evidence block proposer admins wallets requester := by
  simp only [bind_eq_ok_iff]
  constructor
  · rintro ⟨r, block, hblock, hrun⟩
    obtain ⟨hpreflight, hunrefused⟩ := Ceremony.exists_run_iff.1 ⟨r, hrun⟩
    refine ⟨⟨block, hblock⟩, hpreflight, fun block' hblock' => ?_⟩
    obtain rfl := Except.ok.inj (hblock.symm.trans hblock')
    exact hunrefused
  · rintro ⟨⟨block, hblock⟩, hpreflight, hunrefused⟩
    obtain ⟨r, hrun⟩ := Ceremony.exists_run_iff.2 ⟨hpreflight, hunrefused block hblock⟩
    exact ⟨r, block, hblock, hrun⟩

/-- **Emergency requests for the tip.** Whatever comes out, the ledger and the clock stay as they
are. There is a request exactly if the height and the timestamp of the tip have successors, the keys
of the admins' wallets pass, and nobody refuses to sign. Its block follows the tip, it has one
group, nodes can read it, and they follow it if the admins are theirs. -/
theorem requestOverride_exact (valid : PublicKey → Bytes → Signature → Bool) (o : Operator)
    (genesis : UInt32) (moves : List Move) (l : Ledger) (now : Instant) (reason : Reason)
    (evidence : Evidence) (ts : List Transaction) (consensus : Consensus)
    (proposer : Wallet) (admins : SignerSet) (wallets : List Wallet) (requester : Wallet)
    (hl : (Ledger.new genesis).after moves = .ok l) (hresponsive : l.Responsive)
    (hfold : l.switches.advanceOnFold = false) (hpayload : consensus.payload.length ≤ 2 ^ 20)
    (hcount : ts.length ≤ 2 ^ 14)
    (hts : ∀ t ∈ ts, (Transaction.format {}).decode t.encode = .ok t)
    (honest : ∀ w ∈ proposer :: (wallets ++ [requester]), w.Honest valid) :
    ∃ result, (o.requestOverride Ledger.node reason evidence ts consensus proposer admins wallets
        requester).runIn ⟨l, now⟩ = .ok (result, ⟨l, now⟩) ∧
      ((∃ r, result = .ok r) ↔
        l.tip.height.toNat < 2 ^ 32 - 1 ∧ l.tip.header.timestamp.toNat < 2 ^ 32 - 1 ∧
        (∀ w ∈ wallets, w.publicKey ∈ admins.keys) ∧ (wallets.map (·.publicKey)).Nodup ∧
        admins.threshold.toNat ≤ wallets.length ∧
        ∀ block, candidate l now consensus ts = .ok block →
          Ceremony.Unrefused reason evidence block proposer admins wallets requester) ∧
      ∀ r, result = .ok r →
        r.proposal.height.toNat = l.tip.height.toNat + 1 ∧
        candidate l now consensus ts = .ok r.proposal.block ∧ l.tip.Candidate r.proposal.block ∧
        r.groups.length = 1 ∧ (Request.format {}).decode r.encode = .ok r ∧
        (Policy.mk admins false).checkWith valid r = .ok () := by
  refine ⟨_, runIn_requestOverride ((consistent_new genesis).after hl) hresponsive hfold, ?_, ?_⟩
  · rw [exists_request_iff, exists_candidate_iff, Aggregate.preflight_eq_ok_iff,
      List.forall_mem_map, List.length_map]
    simp only [and_assoc]
  · intro r hr
    obtain ⟨block, hblock, hrun⟩ := bind_eq_ok_iff.1 hr
    obtain ⟨hcandidate, rfl⟩ := Block.candidate_of_extend hblock
    obtain ⟨hfulfils, hgroups⟩ := Ceremony.fulfils_of_run hrun
    have hsame := hfulfils.proposal.block_eq
    refine ⟨?_, hsame.symm ▸ hblock, hsame.symm ▸ hcandidate, hgroups, ?_, ?_⟩
    · rw [hfulfils.proposal.height_eq, hcandidate.height]
    · have hdecode := Block.decode_of_extend hblock hpayload hcount hts
      exact (hfulfils.decode_encode_iff hdecode).2 (by rw [hgroups]; norm_num)
    · refine Policy.checkWith_eq_ok_iff.2 (hfulfils.accepts hcandidate.transactionsRoot ?_ ?_ nofun)
      · rwa [Ceremony.Successes.wallets, List.flatMap_singleton, List.append_assoc]
      · exact List.forall_mem_singleton.2 rfl

/-- One key proposes, decides and requests. -/
theorem requestOverride_exact_sample :
    let l := Ledger.new 5
    let wallet := Wallet.checked PublicKey.verify .neutral fun _ => Aggregate.neutralSignature
    ∃ r, (requestOverride ⟨{}, {}⟩ Ledger.node .blacklist .equivocation [sampleTransaction] {}
        wallet (.single .neutral) [wallet] wallet).runIn ⟨l, .epoch⟩ = .ok (.ok r, ⟨l, .epoch⟩) ∧
      l.tip.Candidate r.proposal.block ∧ (Request.format {}).decode r.encode = .ok r ∧
      (Policy.mk (.single .neutral) false).check r = .ok () := by
  intro l wallet
  have honest : ∀ w ∈ wallet :: ([wallet] ++ [wallet]), w.Honest PublicKey.verify := by
    intro w hw
    obtain rfl : w = wallet := by simpa using hw
    exact Wallet.honest_checked _ _ _
  have hts : ∀ t ∈ [sampleTransaction], (Transaction.format {}).decode t.encode = .ok t := by
    decide +kernel
  obtain ⟨result, hrun, -, hresult⟩ := requestOverride_exact PublicKey.verify ⟨{}, {}⟩ 5 [] l .epoch
    .blacklist .equivocation [sampleTransaction] {} wallet (.single .neutral) [wallet] wallet rfl
    ⟨rfl, rfl⟩ rfl (by decide) (by decide) hts honest
  have hok : ((requestOverride ⟨{}, {}⟩ Ledger.node .blacklist .equivocation [sampleTransaction] {}
      wallet (.single .neutral) [wallet] wallet).runIn ⟨l, .epoch⟩).map (fun p => p.1.isOk) =
        .ok true := by decide +kernel
  rw [hrun] at hok
  cases result with
  | error e => cases hok
  | ok r =>
    obtain ⟨-, -, hcandidate, -, hdecode, hcheck⟩ := hresult r rfl
    exact ⟨r, hrun, hcandidate, hdecode, hcheck⟩

end Operator

end ChainGovernance
