import Mathlib.Tactic
import ChainGovernance.Proofs.Emergency.Ceremony
import ChainGovernance.Proofs.Emergency.Policy

/-!
Ceremonies make requests that nodes follow.

Whatever the calls of a ceremony, those that failed in between included: a request that comes out of
it is accepted by the policy of the admins that signed in it, as far as its wallets are honest and
its block names its own transactions.
-/

namespace ChainGovernance.Emergency.Ceremony

variable {reason : Reason} {evidence : Evidence} {block : Block}
  {valid : PublicKey → Bytes → Signature → Bool}

/-- The groups of a request stand for the admins that signed in the ceremony. -/
theorem Collected.stands {qs : List (SignerSet × List Wallet)} {p : Proposal}
    {groups : List Aggregate} (h : Collected qs p groups) {admins : SignerSet}
    (hadmins : ∀ q ∈ qs, q.1 = admins) (honest : ∀ q ∈ qs, ∀ w ∈ q.2, w.Honest valid) :
    ∀ g ∈ groups, g.Stands valid admins p.encode := by
  intro g hg
  obtain ⟨q, hq, hc⟩ := exists_left_of_forall₂ h hg
  rw [← hadmins q hq]
  exact Aggregate.stands_of_collect hc (honest q hq)

theorem Fulfils.accepts {s : Successes} {r : Request} (h : Fulfils reason evidence block s r)
    (hroot : block.header.transactionsRoot = transactionsRoot block.transactions)
    (honest : ∀ w ∈ s.wallets, w.Honest valid) {admins : SignerSet}
    (hadmins : ∀ q ∈ s.quorums, q.1 = admins) {adminRequester : Bool}
    (ha : adminRequester = true → r.requester ∈ admins.keys) :
    (Policy.mk admins adminRequester).Accepts valid r := by
  obtain ⟨w, hws, hk, hsig⟩ := h.proposal.proposer
  obtain ⟨w', hws', hk', hsig'⟩ := h.requester
  have hb := h.proposal.block_eq
  constructor
  case height => rw [h.proposal.height_eq, hb]
  case root => rw [hb, hroot]
  case proposer =>
    rw [hb, ← hk]
    exact honest w (by simp [Successes.wallets, hws]) _ _ hsig
  case nonempty => exact h.nonempty
  case groups =>
    refine h.groups.stands hadmins fun q hq w hw => honest w ?_
    rw [Successes.wallets, List.mem_append, List.mem_append, List.mem_flatMap]
    exact .inl (.inr ⟨q, hq, hw⟩)
  case requester =>
    rw [← hk']
    exact honest w' (by simp [Successes.wallets, hws']) _ _ hsig'
  case authorized => exact ha

/-- **Ceremonies and nodes agree.** A request that comes out of a ceremony passes the check of the
admins that signed in it. If its requester has to be an admin as well, it passes exactly if that is
so. -/
theorem request_accepted (valid : PublicKey → Bytes → Signature → Bool) (reason : Reason)
    (evidence : Evidence) (block : Block) (admins : SignerSet) (calls : List Call) (r : Request)
    (hroot : block.header.transactionsRoot = transactionsRoot block.transactions)
    (honest : ∀ call ∈ calls, ∀ w ∈ call.wallets, w.Honest valid)
    (hadmins : ∀ q ∈ (successes ((new reason evidence block).events calls)).quorums, q.1 = admins)
    (hr : r ∈ (successes ((new reason evidence block).events calls)).requests) :
    (Policy.mk admins false).checkWith valid r = .ok () ∧
      ((Policy.mk admins true).checkWith valid r = .ok () ↔ r.requester ∈ admins.keys) := by
  have hwallets : ∀ w ∈ (successes ((new reason evidence block).events calls)).wallets,
      w.Honest valid := by
    intro w hw
    obtain ⟨event, he, hw⟩ := mem_wallets hw
    exact honest event.call (call_mem_of_mem_events he) w hw
  have haccepts {b : Bool} (hb : b = true → r.requester ∈ admins.keys) :=
    (fulfils_of_mem_requests hr).accepts hroot hwallets hadmins hb
  rw [Policy.checkWith_eq_ok_iff, Policy.checkWith_eq_ok_iff]
  exact ⟨haccepts nofun, fun h => h.authorized rfl, fun h => haccepts fun _ => h⟩

/-- The public key of the private key of zeros. -/
def zeroKey : PublicKey where
  toBytes := [0x3b, 0x6a, 0x27, 0xbc, 0xce, 0xb6, 0xa4, 0x2d, 0x62, 0xa3, 0xa8, 0xd0, 0x2a, 0x6f,
    0x0d, 0x73, 0x65, 0x32, 0x15, 0x77, 0x1d, 0xe2, 0x43, 0xa6, 0x3a, 0xc0, 0x48, 0xa1, 0x8b, 0x59,
    0xda, 0x29]
  length_eq := rfl
  isPoint := by decide +kernel

/-- The wallet of that key. -/
def zeroWallet : Wallet :=
  .checked PublicKey.verify zeroKey ((PrivateKey.mk (.zero 32)).signAs zeroKey)

/-- Calls with a single wallet, of which the first comes too early and the third is one signature
short. -/
def stallCalls : List Call :=
  [.finalize zeroWallet, .signProposer zeroWallet, .signQuorum (.single zeroKey) [],
    .signQuorum (.single zeroKey) [zeroWallet], .finalize zeroWallet]

theorem honest_stallCalls :
    ∀ call ∈ stallCalls, ∀ w ∈ call.wallets, w.Honest PublicKey.verify := by
  intro call hc w hw
  have heq : w = zeroWallet := by
    simp only [stallCalls, List.mem_cons, List.not_mem_nil, or_false] at hc
    rcases hc with rfl | rfl | rfl | rfl | rfl <;>
      simp only [Call.wallets, List.mem_singleton, List.not_mem_nil] at hw <;> exact hw
  rw [heq]
  exact Wallet.honest_checked _ _ _

theorem admins_stallCalls {admins : SignerSet} {ws : List Wallet}
    (h : .signQuorum admins ws ∈ stallCalls) : admins = .single zeroKey := by
  simp only [stallCalls, List.mem_cons, List.not_mem_nil, or_false, reduceCtorEq, false_or,
    Call.signQuorum.injEq] at h
  rcases h with ⟨h, -⟩ | ⟨h, -⟩ <;> exact h

theorem request_accepted_stall :
    ∃ r ∈ (successes ((new .blacklist .consensusStalled (.genesis 0)).events
        stallCalls)).requests,
      (Policy.mk (.single zeroKey) false).check r = .ok () ∧
        ((Policy.mk (.single zeroKey) true).check r = .ok () ↔ r.requester ∈ [zeroKey]) := by
  have hlen : (successes ((new .blacklist .consensusStalled (.genesis 0)).events
      stallCalls)).requests.length = 1 := by decide +kernel
  obtain ⟨r, hr⟩ := List.exists_mem_of_length_pos (hlen ▸ Nat.one_pos)
  refine ⟨r, hr, request_accepted PublicKey.verify .blacklist .consensusStalled (.genesis 0)
    (.single zeroKey) stallCalls r rfl honest_stallCalls (fun q hq => ?_) hr⟩
  obtain ⟨event, he, hcall⟩ := mem_quorums hq
  exact admins_stallCalls (hcall ▸ call_mem_of_mem_events he)

end ChainGovernance.Emergency.Ceremony
