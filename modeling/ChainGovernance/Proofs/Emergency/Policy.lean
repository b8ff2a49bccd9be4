import Mathlib.Tactic
import ChainGovernance.Emergency.Policy
import ChainGovernance.Proofs.Aggregate

/-!
What it takes for an emergency request to be followed.

`Accepts` says it without an order, and `checks` lists what is asked, in order. A request passes
exactly if the policy accepts it, and otherwise the answer is the error of the first check that
fails.
-/

namespace ChainGovernance.Emergency.Policy

open Check

/-- What it takes for a policy to accept a request. -/
structure Accepts (valid : PublicKey → Bytes → Signature → Bool) (p : Policy) (r : Request) :
    Prop where
  height : r.proposal.height = r.proposal.block.height
  root : r.proposal.block.header.transactionsRoot = transactionsRoot r.proposal.block.transactions
  proposer : valid r.proposal.proposer r.proposal.block.hash.toBytes r.proposal.signature = true
  nonempty : r.groups ≠ []
  groups : ∀ g ∈ r.groups, g.Stands valid p.admins r.proposal.encode
  requester : valid r.requester r.digest.toBytes r.requesterSignature = true
  authorized : p.adminRequester = true → r.requester ∈ p.admins.keys

/-- What is checked of a request. -/
def checks (valid : PublicKey → Bytes → Signature → Bool) (p : Policy) (r : Request) :
    List Check :=
  let block := r.proposal.block
  let root := transactionsRoot block.transactions
  ⟨r.proposal.height = block.height, .proposalHeight r.proposal.height block.height⟩ ::
    ⟨block.header.transactionsRoot = root, .transactionsRoot block.header.transactionsRoot root⟩ ::
    ⟨valid r.proposal.proposer block.hash.toBytes r.proposal.signature = true,
      .invalidSignature .proposer r.proposal.proposer⟩ ::
    ⟨r.groups ≠ [], .missingAdminSignatures⟩ ::
    ((r.groups.flatMap fun g => g.checks valid .quorum p.admins r.proposal.encode) ++
      [⟨valid r.requester r.digest.toBytes r.requesterSignature = true,
          .invalidSignature .requester r.requester⟩,
        ⟨p.adminRequester = true → r.requester ∈ p.admins.keys,
          .unauthorizedRequester r.requester⟩])

variable {valid : PublicKey → Bytes → Signature → Bool}

theorem checkGroups_follows (admins : SignerSet) (message : Bytes) (groups : List Aggregate) :
    Follows (groups.flatMap fun g => g.checks valid .quorum admins message)
      (checkGroups valid admins message groups) := by
  induction groups with
  | nil => exact follows_nil
  | cons g groups ih => exact g.verifyWith_follows.bind ih

theorem checkGroups_eq_ok_iff {admins : SignerSet} {message : Bytes} {groups : List Aggregate} :
    checkGroups valid admins message groups = .ok () ↔
      ∀ g ∈ groups, g.Stands valid admins message := by
  induction groups with
  | nil => simp [checkGroups]
  | cons g groups ih =>
    rw [List.forall_mem_cons, ← ih, ← Aggregate.verifyWith_eq_ok_iff .quorum, checkGroups,
      bind_eq_ok_iff]
    exact ⟨fun ⟨_, hg, h⟩ => ⟨hg, h⟩, fun ⟨hg, h⟩ => ⟨(), hg, h⟩⟩

theorem checkWith_follows (p : Policy) (r : Request) :
    Follows (p.checks valid r) (p.checkWith valid r) := by
  unfold checks checkWith
  refine .guard Iff.rfl fun _ => .guard Iff.rfl fun _ => .guard (by simp) fun _ =>
    .guard (by simp) fun _ => (checkGroups_follows ..).bind ?_
  exact .guard (by simp) fun _ => .guard (by simp) fun _ => follows_nil

theorem all_checks_iff {p : Policy} {r : Request} :
    (∀ c ∈ p.checks valid r, c.asks) ↔ p.Accepts valid r := by
  have hgroups : (∀ c ∈ r.groups.flatMap fun g => g.checks valid .quorum p.admins r.proposal.encode,
      c.asks) ↔ ∀ g ∈ r.groups, g.Stands valid p.admins r.proposal.encode := by
    rw [← (checkGroups_follows ..).eq_ok_iff, checkGroups_eq_ok_iff]
  simp only [checks, List.forall_mem_cons, List.forall_mem_append, hgroups, List.not_mem_nil,
    false_imp_iff, implies_true, and_true]
  constructor
  · rintro ⟨h1, h2, h3, h4, h5, h6, h7⟩
    exact ⟨h1, h2, h3, h4, h5, h6, h7⟩
  · rintro ⟨h1, h2, h3, h4, h5, h6, h7⟩
    exact ⟨h1, h2, h3, h4, h5, h6, h7⟩

theorem checkWith_eq_ok_iff {p : Policy} {r : Request} :
    p.checkWith valid r = .ok () ↔ p.Accepts valid r :=
  (checkWith_follows p r).eq_ok_iff.trans all_checks_iff

/-- **The policy is exact.** A request passes if and only if the policy accepts it; if it does not,
the answer is the error of the first check that fails. -/
theorem checkWith_exact (valid : PublicKey → Bytes → Signature → Bool) (p : Policy) (r : Request) :
    (p.checkWith valid r = .ok () ↔ p.Accepts valid r) ∧
      ∀ e, p.checkWith valid r = .error e ↔ FirstFault (p.checks valid r) e :=
  ⟨checkWith_eq_ok_iff, fun _ => (checkWith_follows p r).eq_error_iff⟩

end ChainGovernance.Emergency.Policy
