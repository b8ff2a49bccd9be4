import ChainGovernance.Emergency.Request
import ChainGovernance.Proofs.Wire.Canonical

/-!
The records that are sent over the wire, from the call of a contract up to an emergency request,
and that each of their formats is canonical.

What the limits allow decides what is read, and never how it is written: `write_format` says so for
every record, which is why `encode` needs no limits.
-/

namespace ChainGovernance

open Wire

/-- The kinds of records that have a format of their own. -/
inductive Record
  | invocation
  | unsigned
  | aggregate
  | transaction
  | header
  | block
  | proposal
  | request

namespace Record

/-- The records of a kind. -/
def Value : Record → Type
  | invocation => Invocation
  | unsigned => UnsignedTransaction
  | aggregate => Aggregate
  | transaction => Transaction
  | header => Header
  | block => Block
  | proposal => Emergency.Proposal
  | request => Emergency.Request

/-- How the records of a kind are written, and read within limits. -/
def format (limits : Limits) : (k : Record) → Format k.Value
  | invocation => Invocation.format limits
  | unsigned => UnsignedTransaction.format limits
  | aggregate => Aggregate.format limits
  | transaction => Transaction.format limits
  | header => Header.format limits
  | block => Block.format limits
  | proposal => Emergency.Proposal.format limits
  | request => Emergency.Request.format limits

/-- The bytes of a record. -/
def encode (k : Record) (v : k.Value) : Bytes := (k.format {}).write v

end Record

/-! ### Keys, signatures and addresses -/

theorem Address.canonical : Address.format.Canonical :=
  (Format.canonical_fixed 20).iso fun _ => rfl

theorem Digest.canonical : Digest.format.Canonical :=
  (Format.canonical_fixed 32).iso fun _ => rfl

theorem Signature.canonical : Signature.format.Canonical :=
  (Format.canonical_fixed 64).iso fun _ => rfl

theorem Signature.sized_canonical : Signature.sizedFormat.Canonical :=
  Signature.canonical.sized 64

theorem PublicKey.toFixedBytes_of_ofFixedBytes? {b : FixedBytes 32} {key : PublicKey}
    (h : PublicKey.ofFixedBytes? b = .ok key) : key.toFixedBytes = b := by
  unfold PublicKey.ofFixedBytes? at h
  split at h
  · rw [← Except.ok.inj h]
  · cases h

theorem PublicKey.canonical : PublicKey.format.Canonical := by
  refine (Format.canonical_fixed 32).refine fun b key h => ?_
  split at h
  · rename_i w hw
    rw [← Except.ok.inj h, PublicKey.toFixedBytes_of_ofFixedBytes? hw]
  · cases h

theorem PublicKey.sized_canonical : PublicKey.sizedFormat.Canonical :=
  PublicKey.canonical.sized 32

/-! ### Transactions -/

variable (limits : Limits)

theorem Aggregate.canonical : (Aggregate.format limits).Canonical := by
  refine Format.Canonical.iso ?_ fun _ => rfl
  exact Format.canonical_uint16.seq
    (Format.Canonical.columns _ _ PublicKey.sized_canonical Signature.sized_canonical)

/-- A method name is written as the UTF-8 bytes that it was read from. -/
theorem Invocation.method_canonical : (Invocation.methodFormat limits).Canonical := by
  refine (Format.canonical_bytes _).refine fun b s h => ?_
  split at h
  · rename_i t ht
    rw [← Except.ok.inj h, Text.utf8_of_ofUtf8? ht]
  · cases h

theorem Invocation.canonical : (Invocation.format limits).Canonical := by
  refine Format.Canonical.iso ?_ fun _ => rfl
  exact Address.canonical.seq ((Invocation.method_canonical limits).seq
    (Format.Canonical.list _ (Format.canonical_bytes _)))

theorem UnsignedTransaction.attributes_canonical :
    UnsignedTransaction.attributesFormat.Canonical := by
  refine Format.canonical_compact.refine fun n v h => ?_
  split at h
  · exact Eq.symm ‹_›
  · cases h

theorem UnsignedTransaction.canonical : (UnsignedTransaction.format limits).Canonical := by
  refine Format.Canonical.iso ?_ fun _ => rfl
  exact Format.canonical_uint8.seq ((Format.canonical_constant _ _).seq
    (Format.canonical_uint32.seq (Format.canonical_uint64.seq (Format.canonical_uint64.seq
      (Address.canonical.seq ((Invocation.canonical limits).seq
        UnsignedTransaction.attributes_canonical))))))

theorem Transaction.canonical : (Transaction.format limits).Canonical := by
  refine Format.Canonical.iso ?_ fun _ => rfl
  exact (UnsignedTransaction.canonical limits).seq
    (Format.Canonical.list _ (Aggregate.canonical limits))

/-! ### Blocks -/

theorem HeaderFront.canonical : (HeaderFront.format limits).Canonical := by
  refine Format.Canonical.iso ?_ fun _ => rfl
  exact Format.canonical_uint32.seq (Digest.canonical.seq (Digest.canonical.seq
    (Digest.canonical.seq (Format.canonical_uint32.seq (Format.canonical_uint32.seq
      (Format.canonical_uint64.seq ((Format.canonical_bytes _).seq Address.canonical)))))))

theorem Header.canonical : (Header.format limits).Canonical := by
  refine Format.Canonical.iso ?_ fun _ => rfl
  exact (HeaderFront.canonical limits).seq
    ((Format.Canonical.list _ PublicKey.sized_canonical).seq
      (Format.Canonical.list _ (Format.canonical_bytes _)))

theorem Block.canonical : (Block.format limits).Canonical := by
  refine Format.Canonical.iso ?_ fun _ => rfl
  exact (Header.canonical limits).seq
    (Format.Canonical.list32 _ (Transaction.canonical limits))

/-! ### Emergency requests -/

namespace Emergency

theorem Reason.code_of_ofCode? {code : UInt8} {r : Reason} (h : Reason.ofCode? code = some r) :
    r.code = code := by
  unfold Reason.ofCode? at h
  split at h
  · obtain rfl := Option.some.inj h
    exact Eq.symm ‹_›
  · cases h

theorem Reason.canonical : Reason.format.Canonical := by
  refine Format.canonical_uint8.refine fun code r h => ?_
  split at h
  · rename_i s hs
    rw [← Except.ok.inj h, Reason.code_of_ofCode? hs]
  · cases h

theorem Evidence.code_of_ofCode? {code : UInt8} {e : Evidence}
    (h : Evidence.ofCode? code = some e) : e.code = code := by
  unfold Evidence.ofCode? at h
  split at h
  · obtain rfl := Option.some.inj h
    exact Eq.symm ‹_›
  split at h
  · obtain rfl := Option.some.inj h
    exact Eq.symm ‹_›
  · cases h

theorem Evidence.canonical : Evidence.format.Canonical := by
  refine Format.canonical_uint8.refine fun code e h => ?_
  split at h
  · rename_i s hs
    rw [← Except.ok.inj h, Evidence.code_of_ofCode? hs]
  · cases h

theorem Proposal.canonical : (Proposal.format limits).Canonical := by
  refine Format.Canonical.iso ?_ fun _ => rfl
  exact Reason.canonical.seq (Evidence.canonical.seq (Format.canonical_uint32.seq
    ((Block.canonical limits).seq
      (PublicKey.sized_canonical.seq Signature.sized_canonical))))

theorem Petition.canonical : (Petition.format limits).Canonical := by
  refine Format.Canonical.iso ?_ fun _ => rfl
  exact (Proposal.canonical limits).seq
    ((Format.Canonical.list _ (Aggregate.canonical limits)).seq PublicKey.sized_canonical)

theorem Request.canonical : (Request.format limits).Canonical := by
  refine Format.Canonical.iso ?_ fun _ => rfl
  exact (Petition.canonical limits).seq Signature.sized_canonical

end Emergency

/-! ### Writing without limits -/

section Writing

open Wire.Format

theorem Aggregate.write_format :
    (Aggregate.format limits).write = (Aggregate.format {}).write :=
  write_iso_congr (write_seq_congr rfl rfl)

theorem Invocation.write_format :
    (Invocation.format limits).write = (Invocation.format {}).write :=
  write_iso_congr (write_seq_congr rfl (write_seq_congr
    (write_refine_congr (write_bytes_congr _ _)) (write_list_congr _ _ (write_bytes_congr _ _))))

theorem UnsignedTransaction.write_format :
    (UnsignedTransaction.format limits).write = (UnsignedTransaction.format {}).write :=
  write_iso_congr (write_seq_congr rfl (write_seq_congr rfl (write_seq_congr rfl
    (write_seq_congr rfl (write_seq_congr rfl (write_seq_congr rfl
      (write_seq_congr (Invocation.write_format limits) rfl)))))))

theorem Transaction.write_format :
    (Transaction.format limits).write = (Transaction.format {}).write :=
  write_iso_congr (write_seq_congr (UnsignedTransaction.write_format limits)
    (write_list_congr _ _ (Aggregate.write_format limits)))

theorem HeaderFront.write_format :
    (HeaderFront.format limits).write = (HeaderFront.format {}).write :=
  write_iso_congr (write_seq_congr rfl (write_seq_congr rfl (write_seq_congr rfl
    (write_seq_congr rfl (write_seq_congr rfl (write_seq_congr rfl (write_seq_congr rfl
      (write_seq_congr (write_bytes_congr _ _) rfl))))))))

theorem Header.write_format :
    (Header.format limits).write = (Header.format {}).write :=
  write_iso_congr (write_seq_congr (HeaderFront.write_format limits)
    (write_seq_congr (write_list_congr _ _ rfl) (write_list_congr _ _ (write_bytes_congr _ _))))

theorem Block.write_format :
    (Block.format limits).write = (Block.format {}).write :=
  write_iso_congr (write_seq_congr (Header.write_format limits)
    (write_list32_congr _ _ (Transaction.write_format limits)))

theorem Emergency.Proposal.write_format :
    (Emergency.Proposal.format limits).write = (Emergency.Proposal.format {}).write :=
  write_iso_congr (write_seq_congr rfl (write_seq_congr rfl (write_seq_congr rfl
    (write_seq_congr (Block.write_format limits) rfl))))

theorem Emergency.Petition.write_format :
    (Emergency.Petition.format limits).write = (Emergency.Petition.format {}).write :=
  write_iso_congr (write_seq_congr (Emergency.Proposal.write_format limits)
    (write_seq_congr (write_list_congr _ _ (Aggregate.write_format limits)) rfl))

theorem Emergency.Request.write_format :
    (Emergency.Request.format limits).write = (Emergency.Request.format {}).write :=
  write_iso_congr (write_seq_congr (Emergency.Petition.write_format limits) rfl)

end Writing

/-! ### All records -/

namespace Record

theorem canonical (k : Record) : (k.format limits).Canonical := by
  cases k with
  | invocation => exact Invocation.canonical limits
  | unsigned => exact UnsignedTransaction.canonical limits
  | aggregate => exact Aggregate.canonical limits
  | transaction => exact Transaction.canonical limits
  | header => exact Header.canonical limits
  | block => exact Block.canonical limits
  | proposal => exact Emergency.Proposal.canonical limits
  | request => exact Emergency.Request.canonical limits

/-- Records are written in one way, whatever the limits. -/
theorem write_format (k : Record) : (k.format limits).write = k.encode := by
  cases k with
  | invocation => exact Invocation.write_format limits
  | unsigned => exact UnsignedTransaction.write_format limits
  | aggregate => exact Aggregate.write_format limits
  | transaction => exact Transaction.write_format limits
  | header => exact Header.write_format limits
  | block => exact Block.write_format limits
  | proposal => exact Emergency.Proposal.write_format limits
  | request => exact Emergency.Request.write_format limits

end Record

end ChainGovernance
