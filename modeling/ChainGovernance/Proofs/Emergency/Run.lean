import ChainGovernance.Proofs.Collecting
import ChainGovernance.Proofs.Emergency.Ceremony

/-!
Ceremonies with one group of admins, from the first phase to the last.

There is a request exactly if the admins may sign and nobody refuses to (`exists_run_iff`), and it
is made of what the wallets sign.
-/

namespace ChainGovernance

theorem Aggregate.willing_of_collect {stage : Stage} {set : SignerSet} {wallets : List Wallet}
    {message : Bytes} {a : Aggregate} (h : collect stage set wallets message = .ok a) :
    ∀ w ∈ wallets, w.Willing message := by
  intro w hw
  obtain ⟨-, -, hpairs⟩ := collect_eq_ok_iff.1 h
  obtain ⟨p, -, -, hsign⟩ := exists_left_of_forall₂ hpairs.flip hw
  exact ⟨p.2, hsign⟩

namespace Emergency.Ceremony

variable {reason : Reason} {evidence : Evidence} {block : Block} {proposer requester : Wallet}
  {admins : SignerSet} {wallets : List Wallet} {r : Request}

/-- Nobody refuses to sign: not the proposer, who is asked for the name of the block, nor one of the
admins, who are asked for the proposal with that signature, nor the requester, who is asked for the
petition with theirs. -/
def Unrefused (reason : Reason) (evidence : Evidence) (block : Block) (proposer : Wallet)
    (admins : SignerSet) (wallets : List Wallet) (requester : Wallet) : Prop :=
  ∃ signature, proposer.sign block.hash.toBytes = .ok signature ∧
    let proposal : Proposal :=
      ⟨reason, evidence, block.height, block, proposer.publicKey, signature⟩
    ∃ signed : List (Wallet × Signature), signed.map Prod.fst = wallets ∧
      (∀ p ∈ signed, p.1.sign proposal.encode = .ok p.2) ∧
      requester.Willing (Petition.digest
        ⟨proposal, [Aggregate.gathered admins signed], requester.publicKey⟩).toBytes

/-- All phases in a row. -/
theorem run_new : (new reason evidence block).run proposer admins wallets requester =
    Aggregate.ask .proposer block.hash.toBytes proposer >>= fun p =>
      let proposal : Proposal := ⟨reason, evidence, block.height, block, p.1, p.2⟩
      Aggregate.collect .quorum admins wallets proposal.encode >>= fun group =>
        let petition : Petition := ⟨proposal, [group], requester.publicKey⟩
        (Aggregate.ask .requester petition.digest.toBytes requester).map fun q =>
          ⟨petition, q.2⟩ := by
  simp only [run, new, signProposer]
  cases Aggregate.ask .proposer block.hash.toBytes proposer with
  | error e => rfl
  | ok p =>
    simp only [signQuorum, true_or, if_true, bind, Except.bind]
    cases Aggregate.collect .quorum admins wallets
        (Proposal.encode ⟨reason, evidence, block.height, block, p.1, p.2⟩) with
    | error e => rfl
    | ok group =>
      simp only [finalize, List.nil_append]
      cases Aggregate.ask .requester (Petition.digest ⟨⟨reason, evidence, block.height, block, p.1,
        p.2⟩, [group], requester.publicKey⟩).toBytes requester <;> rfl

/-- A request of a single run is made of what its wallets sign. -/
theorem fulfils_of_run
    (h : (new reason evidence block).run proposer admins wallets requester = .ok r) :
    Fulfils reason evidence block ⟨[proposer], [(admins, wallets)], [requester], [r]⟩ r ∧
      r.groups.length = 1 := by
  rw [run_new, bind_eq_ok_iff] at h
  obtain ⟨⟨key, signature⟩, hproposer, h⟩ := h
  obtain ⟨group, hgroup, h⟩ := bind_eq_ok_iff.1 h
  obtain ⟨⟨key', signature'⟩, hrequester, rfl⟩ := map_eq_ok_iff.1 h
  obtain ⟨hkey, hsign⟩ := (Aggregate.ask_eq_ok_iff _).1 hproposer
  obtain ⟨-, hsign'⟩ := (Aggregate.ask_eq_ok_iff _).1 hrequester
  refine ⟨⟨⟨rfl, rfl, rfl, rfl, proposer, rfl, hkey, hsign⟩, List.cons_ne_nil _ _, ?_,
    requester, rfl, rfl, hsign'⟩, rfl⟩
  exact List.Forall₂.cons hgroup .nil

theorem exists_run_iff :
    (∃ r, (new reason evidence block).run proposer admins wallets requester = .ok r) ↔
      Aggregate.preflight .quorum admins (wallets.map (·.publicKey)) = .ok () ∧
        Unrefused reason evidence block proposer admins wallets requester := by
  simp only [run_new, bind_eq_ok_iff, map_eq_ok_iff]
  constructor
  · rintro ⟨r, ⟨key, signature⟩, hproposer, group, hgroup, ⟨key', signature'⟩, hrequester, rfl⟩
    obtain ⟨rfl, hsign⟩ := (Aggregate.ask_eq_ok_iff _).1 hproposer
    obtain ⟨-, hsign'⟩ := (Aggregate.ask_eq_ok_iff _).1 hrequester
    obtain ⟨signed, rfl, hsigned⟩ := Aggregate.exists_signed (Aggregate.willing_of_collect hgroup)
    have hpreflight := (Aggregate.collect_eq_ok_iff.1 hgroup).1
    rw [Aggregate.collect_of_signed hsigned, map_eq_ok_iff] at hgroup
    obtain ⟨-, -, rfl⟩ := hgroup
    exact ⟨hpreflight, signature, hsign, signed, rfl, hsigned, signature', hsign'⟩
  · rintro ⟨hpreflight, signature, hsign, signed, rfl, hsigned, signature', hsign'⟩
    rw [List.map_map] at hpreflight
    refine ⟨_, (proposer.publicKey, signature), (Aggregate.ask_eq_ok_iff _).2 ⟨rfl, hsign⟩,
      Aggregate.gathered admins signed, ?_, (requester.publicKey, signature'),
      (Aggregate.ask_eq_ok_iff _).2 ⟨rfl, hsign'⟩, rfl⟩
    rw [Aggregate.collect_of_signed hsigned]
    exact map_eq_ok_iff.2 ⟨(), hpreflight, rfl⟩

end Emergency.Ceremony

end ChainGovernance
