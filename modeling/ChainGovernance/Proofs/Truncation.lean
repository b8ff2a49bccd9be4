import ChainGovernance.Proofs.Naming
import ChainGovernance.Proofs.Wire.Delimited

/-!
Records that are cut off, and records with something behind them.

Every format of a record is delimited. So a record is read from its own bytes alone, and where its bytes
are cut off, at whatever place of whatever part, reading comes to the end of the bytes and finds no other
fault.
-/

namespace ChainGovernance

open Wire

variable (limits : Limits)

/-! ### Keys, signatures and addresses -/

theorem Address.delimited : Address.format.Delimited := (Format.delimited_fixed 20).iso

theorem Digest.delimited : Digest.format.Delimited := (Format.delimited_fixed 32).iso

theorem PublicKey.sized_delimited : PublicKey.sizedFormat.Delimited :=
  .sized 32 (Format.delimited_fixed 32).refine

theorem Signature.sized_delimited : Signature.sizedFormat.Delimited :=
  .sized 64 (Format.delimited_fixed 64).iso

/-! ### Transactions -/

theorem Aggregate.delimited : (Aggregate.format limits).Delimited :=
  (Format.delimited_uint16.seq
    (.columns _ _ PublicKey.sized_delimited Signature.sized_delimited)).iso

theorem Invocation.delimited : (Invocation.format limits).Delimited :=
  (Address.delimited.seq ((Format.delimited_bytes _).refine.seq
    (.list _ (Format.delimited_bytes _)))).iso

theorem UnsignedTransaction.delimited : (UnsignedTransaction.format limits).Delimited :=
  (Format.delimited_uint8.seq ((Format.delimited_constant _ _).seq
    (Format.delimited_uint32.seq (Format.delimited_uint64.seq (Format.delimited_uint64.seq
      (Address.delimited.seq ((Invocation.delimited limits).seq
        Format.delimited_compact.refine))))))).iso

theorem Transaction.delimited : (Transaction.format limits).Delimited :=
  ((UnsignedTransaction.delimited limits).seq (.list _ (Aggregate.delimited limits))).iso

/-! ### Blocks -/

theorem HeaderFront.delimited : (HeaderFront.format limits).Delimited :=
  (Format.delimited_uint32.seq (Digest.delimited.seq (Digest.delimited.seq
    (Digest.delimited.seq (Format.delimited_uint32.seq (Format.delimited_uint32.seq
      (Format.delimited_uint64.seq ((Format.delimited_bytes _).seq
        Address.delimited)))))))).iso

theorem Header.delimited : (Header.format limits).Delimited :=
  ((HeaderFront.delimited limits).seq ((Format.Delimited.list _ PublicKey.sized_delimited).seq
    (.list _ (Format.delimited_bytes _)))).iso

theorem Block.delimited : (Block.format limits).Delimited :=
  ((Header.delimited limits).seq (.list32 _ (Transaction.delimited limits))).iso

/-! ### Emergency requests -/

namespace Emergency

theorem Proposal.delimited : (Proposal.format limits).Delimited :=
  (Format.delimited_uint8.refine.seq (Format.delimited_uint8.refine.seq
    (Format.delimited_uint32.seq ((Block.delimited limits).seq
      (PublicKey.sized_delimited.seq Signature.sized_delimited))))).iso

theorem Petition.delimited : (Petition.format limits).Delimited :=
  ((Proposal.delimited limits).seq ((Format.Delimited.list _ (Aggregate.delimited limits)).seq
    PublicKey.sized_delimited)).iso

theorem Request.delimited : (Request.format limits).Delimited :=
  ((Petition.delimited limits).seq Signature.sized_delimited).iso

end Emergency

/-! ### All records -/

namespace Record

theorem delimited (k : Record) : (k.format limits).Delimited := by
  cases k with
  | invocation => exact Invocation.delimited limits
  | unsigned => exact UnsignedTransaction.delimited limits
  | aggregate => exact Aggregate.delimited limits
  | transaction => exact Transaction.delimited limits
  | header => exact Header.delimited limits
  | block => exact Block.delimited limits
  | proposal => exact Emergency.Proposal.delimited limits
  | request => exact Emergency.Request.delimited limits

/-- **Reading is local, and stops at the end of cut-off bytes.** If a record is read from `c` in front
of some bytes, it is read from `c` in front of any, and leaves exactly those; and from less than `c`
nothing is read, because the bytes end too early. -/
theorem read_only_whole (k : Record) (limits : Limits) {c r : Bytes} {v : k.Value}
    (h : (k.format limits).read (c ++ r) = .ok (v, r)) :
    (∀ r', (k.format limits).read (c ++ r') = .ok (v, r')) ∧
      ∀ p, p <+: c → p ≠ c → (k.format limits).read p = .error .endOfBuffer := by
  obtain ⟨c', heq, htakes⟩ := k.delimited limits h
  obtain rfl : c = c' := List.append_cancel_right heq
  refine ⟨htakes.read, fun p hp hne => ?_⟩
  have hlength : p.length < c.length :=
    lt_of_le_of_ne hp.length_le fun hl => hne (hp.eq_of_length hl)
  rw [List.prefix_iff_eq_take.1 hp]
  exact htakes.cut p.length hlength

/-- The sample request is read in front of one byte, so it is read in front of any bytes; and neither its
first hundred and sixty bytes are a request nor all but its last. -/
theorem read_only_whole_sample :
    (request.format {}).read (request.encode sample ++ [9]) = .ok (sample, [9]) ∧
      (∀ r, (request.format {}).read (request.encode sample ++ r) = .ok (sample, r)) ∧
      (request.format {}).read ((request.encode sample).take 160) = .error .endOfBuffer ∧
      (request.format {}).read (request.encode sample).dropLast = .error .endOfBuffer := by
  have hread : (request.format {}).read (request.encode sample ++ [9]) = .ok (sample, [9]) := by
    change (Emergency.Request.format {}).read (sample.encode ++ [9]) = .ok (sample, [9])
    decide +kernel
  obtain ⟨hmore, hless⟩ := read_only_whole request {} hread
  refine ⟨hread, hmore, hless _ (List.take_prefix _ _) ?_, hless _ (List.dropLast_prefix _) ?_⟩
  · decide +kernel
  · decide +kernel

end Record

end ChainGovernance
