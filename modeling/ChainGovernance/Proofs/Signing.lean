import Mathlib.Tactic
import ChainGovernance.Proofs.Aggregate
import ChainGovernance.Proofs.Drafts

/-!
What is signed can be read under the default limits.

An aggregate has at most one pair for each key of its set, and a set has no more keys than a list of
signers may have. So a draft that is built and signed comes back from its bytes.
-/

namespace ChainGovernance

open Wire

/-- The signers of a set fit into a list of signers. -/
theorem Aggregate.extents_fit_of_collect {stage : Stage} {set : SignerSet} {wallets : List Wallet}
    {message : Bytes} {a : Aggregate} (h : collect stage set wallets message = .ok a) :
    ∀ e ∈ a.extents {}, e.Writable ∧ e.Fits := by
  have hlen : a.pairs.length ≤ 1024 := (length_le_of_collect h).trans set.length_le
  have hfits : Extent.Fits ⟨a.pairs.length, .upTo 1024, 2 ^ 64⟩ := Extent.fits_upTo.2 hlen
  have hwritable : Extent.Writable ⟨a.pairs.length, .upTo 1024, 2 ^ 64⟩ :=
    hlen.trans_lt (by norm_num)
  intro e he
  rcases List.mem_pair.1 he with rfl | rfl <;> exact ⟨hwritable, hfits⟩

theorem Limits.counted_default : Limits.Counted {} := by
  constructor <;> norm_num

namespace UnsignedTransaction

variable {u : UnsignedTransaction} {t : Transaction} {set : SignerSet} {wallets : List Wallet}

theorem sign_eq_ok_iff : u.sign set wallets = .ok t ↔
    ∃ a, Aggregate.collect .transaction set wallets u.hash.toBytes = .ok a ∧ t = ⟨u, [a]⟩ := by
  simp only [sign, bind_eq_ok_iff, pure_eq_ok_iff, eq_comm (b := t)]

theorem decode_of_sign {d : Draft} {now : Instant} (hd : d.limits = {})
    (hu : d.build now = .ok u) (ht : u.sign set wallets = .ok t) :
    (Transaction.format {}).decode t.encode = .ok t := by
  obtain ⟨a, ha, rfl⟩ := sign_eq_ok_iff.1 ht
  have hbuilt : ∀ e ∈ u.extents {}, e.Writable ∧ e.Fits :=
    hd ▸ Draft.extents_fit_of_build (hd ▸ Limits.counted_default) hu
  have hone : Extent.Writable ⟨1, .upTo 16, 2 ^ 64⟩ ∧ Extent.Fits ⟨1, .upTo 16, 2 ^ 64⟩ := by decide
  refine (Record.decode_encode_eq_ok_iff (k := .transaction)).2 ?_
  refine List.forall_mem_append.2 ⟨hbuilt, List.forall_mem_cons.2 ⟨hone, ?_⟩⟩
  rw [List.flatMap_singleton]
  exact Aggregate.extents_fit_of_collect ha

end UnsignedTransaction

end ChainGovernance
