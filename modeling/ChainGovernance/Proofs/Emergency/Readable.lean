import Mathlib.Tactic
import ChainGovernance.Proofs.Emergency.Ceremony
import ChainGovernance.Proofs.Signing

/-!
Which requests of a ceremony nodes can read.

A ceremony collects as many groups of admins as there are calls that succeed, and nodes read sixteen
at most. Nothing else in a request can be too long for them, as long as the block that the ceremony
was started with is not: a group has at most one signature for each key of its set.
-/

namespace ChainGovernance.Emergency.Ceremony

open Wire

variable {reason : Reason} {evidence : Evidence} {block : Block}

/-- The admins of a set fit into a list of signers. -/
theorem Collected.extents_fit {qs : List (SignerSet × List Wallet)} {p : Proposal}
    {groups : List Aggregate} (h : Collected qs p groups) :
    ∀ e ∈ groups.flatMap (Aggregate.extents {}), e.Writable ∧ e.Fits := by
  intro e he
  obtain ⟨g, hg, he⟩ := List.mem_flatMap.1 he
  obtain ⟨q, -, hc⟩ := exists_left_of_forall₂ h hg
  exact Aggregate.extents_fit_of_collect hc e he

/-- In front of the groups of a request stands its block, and behind them nothing that has a
length. -/
theorem Request.forall_extents_iff {limits : Limits} {r : Request} {P : Extent → Prop} :
    (∀ e ∈ r.extents limits, P e) ↔
      (∀ e ∈ r.proposal.block.extents limits, P e) ∧
        P ⟨r.groups.length, .upTo limits.maxGroups, 2 ^ 64⟩ ∧
          ∀ e ∈ r.groups.flatMap (Aggregate.extents limits), P e := by
  change (∀ e ∈ r.proposal.block.extents limits ++ (_ :: _), P e) ↔ _
  rw [List.forall_mem_append, List.forall_mem_cons]

section Fulfils

variable {s : Successes} {r : Request}

theorem Fulfils.block_fits (h : Fulfils reason evidence block s r)
    (hblock : (Block.format {}).decode ((Block.format {}).write block) = .ok block) :
    ∀ e ∈ r.proposal.block.extents {}, e.Writable ∧ e.Fits := by
  rw [h.proposal.block_eq]
  exact (Record.decode_encode_eq_ok_iff (k := .block)).1 hblock

theorem Fulfils.decode_encode_iff (h : Fulfils reason evidence block s r)
    (hblock : (Block.format {}).decode ((Block.format {}).write block) = .ok block) :
    (Request.format {}).decode r.encode = .ok r ↔ r.groups.length ≤ 16 := by
  have hr : (Request.format {}).decode r.encode = .ok r ↔
      ∀ e ∈ r.extents {}, e.Writable ∧ e.Fits := Record.decode_encode_eq_ok_iff (k := .request)
  refine hr.trans (Request.forall_extents_iff.trans ?_)
  constructor
  · exact fun hall => Extent.fits_upTo.1 hall.2.1.2
  · intro hlen
    have hwritable : Extent.Writable ⟨r.groups.length, .upTo 16, 2 ^ 64⟩ :=
      hlen.trans_lt (by norm_num)
    exact ⟨h.block_fits hblock, ⟨hwritable, Extent.fits_upTo.2 hlen⟩, h.groups.extents_fit⟩

/-- The number of groups is the first length that does not fit, since all of the block comes before
it. -/
theorem Fulfils.decode_encode_error (h : Fulfils reason evidence block s r)
    (hblock : (Block.format {}).decode ((Block.format {}).write block) = .ok block)
    (hmany : 16 < r.groups.length) (hlen : r.groups.length < 2 ^ 64) :
    (Request.format {}).decode r.encode = .error (.invalidLength r.groups.length) := by
  have hb := h.block_fits hblock
  have hw : ∀ e ∈ r.extents {}, e.Writable :=
    Request.forall_extents_iff.2
      ⟨fun e he => (hb e he).1, hlen, fun e he => (h.groups.extents_fit e he).1⟩
  have hmisfit : ¬ Extent.Fits ⟨r.groups.length, .upTo 16, 2 ^ 64⟩ := by
    rw [Extent.fits_upTo]
    omega
  have hsurvey : Extent.survey (r.extents {}) = .error (.invalidLength r.groups.length) := by
    -- what comes behind the number of groups is not looked at
    change Extent.survey (r.proposal.block.extents {} ++ (_ :: _)) = _
    rw [Extent.survey_append, Extent.survey_eq_ok fun e he => (hb e he).2]
    exact if_neg hmisfit
  exact Record.decode_encode_eq_error (k := .request) hw hsurvey

end Fulfils

/-- **Which requests nodes can read.** The request of a ceremony comes back from its bytes exactly if
at most sixteen quorums signed; with more of them nodes refuse their number. -/
theorem request_readable_iff (reason : Reason) (evidence : Evidence) (block : Block)
    (calls : List Call) (r : Request)
    (hblock : (Block.format {}).decode ((Block.format {}).write block) = .ok block)
    (hr : r ∈ (successes ((new reason evidence block).events calls)).requests) :
    let n := (successes ((new reason evidence block).events calls)).quorums.length
    ((Request.format {}).decode r.encode = .ok r ↔ n ≤ 16) ∧
      (16 < n → n < 2 ^ 64 → (Request.format {}).decode r.encode = .error (.invalidLength n)) := by
  intro n
  have h := fulfils_of_mem_requests hr
  have hlength : n = r.groups.length := h.groups.length_eq
  rw [hlength]
  exact ⟨h.decode_encode_iff hblock, h.decode_encode_error hblock⟩

/-- A wallet that signs everything, with one signature. -/
def willingWallet : Wallet := ⟨.neutral, fun _ => .ok ⟨.zero 64⟩⟩

/-- A ceremony in which the same quorum signs `n` times. -/
def quorumCalls (n : Nat) : List Call :=
  .signProposer willingWallet ::
    (List.replicate n (.signQuorum (.single .neutral) [willingWallet]) ++ [.finalize willingWallet])

theorem genesis_readable :
    (Block.format {}).decode ((Block.format {}).write (.genesis 0)) = .ok (.genesis 0) := by
  have hfits : ∀ e ∈ (Block.genesis 0).extents {}, e.Writable ∧ e.Fits := by decide +kernel
  exact (Record.decode_encode_eq_ok_iff (k := .block)).2 hfits

theorem request_readable_iff_sixteen :
    ∃ r ∈ (successes ((new .blacklist .equivocation (.genesis 0)).events
        (quorumCalls 16))).requests,
      (Request.format {}).decode r.encode = .ok r := by
  have hlen : (successes ((new .blacklist .equivocation (.genesis 0)).events
      (quorumCalls 16))).requests.length = 1 := by decide +kernel
  obtain ⟨r, hr⟩ := List.exists_mem_of_length_pos (hlen ▸ Nat.one_pos)
  have hquorums : (successes ((new .blacklist .equivocation (.genesis 0)).events
      (quorumCalls 16))).quorums.length ≤ 16 := by decide +kernel
  exact ⟨r, hr, (request_readable_iff _ _ _ _ r genesis_readable hr).1.2 hquorums⟩

/-- With seventeen groups, the block still comes back, and the request does not. -/
theorem request_unreadable_seventeen :
    (Block.format {}).decode ((Block.format {}).write (.genesis 0)) = .ok (.genesis 0) ∧
    ∃ r ∈ (successes ((new .blacklist .equivocation (.genesis 0)).events
        (quorumCalls 17))).requests,
      (Request.format {}).decode r.encode = .error (.invalidLength 17) := by
  have hlen : (successes ((new .blacklist .equivocation (.genesis 0)).events
      (quorumCalls 17))).requests.length = 1 := by decide +kernel
  obtain ⟨r, hr⟩ := List.exists_mem_of_length_pos (hlen ▸ Nat.one_pos)
  have h := fulfils_of_mem_requests hr
  have hquorums : (successes ((new .blacklist .equivocation (.genesis 0)).events
      (quorumCalls 17))).quorums.length = 17 := by decide +kernel
  have hgroups : r.groups.length = 17 := h.groups.length_eq.symm.trans hquorums
  have herror := h.decode_encode_error genesis_readable (by omega) (by omega)
  exact ⟨genesis_readable, r, hr, hgroups ▸ herror⟩

end ChainGovernance.Emergency.Ceremony
