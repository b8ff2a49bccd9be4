import ChainGovernance.Proofs.Records
import ChainGovernance.Proofs.Wire.ExactSize

/-!
The sizes of records are exact.

The sum that announces the size of a record is not the one that its format makes from its parts: it adds
up constants, and multiplies where the format goes through a list. `size_format` says for every record
that the two are the same, and the format's own size is exact.
-/

namespace ChainGovernance

open Wire

variable (limits : Limits)

/-! ### Keys, signatures and addresses -/

theorem Address.exactSize : Address.format.ExactSize := (Format.exactSize_fixed 20).iso

theorem Digest.exactSize : Digest.format.ExactSize := (Format.exactSize_fixed 32).iso

theorem PublicKey.exactSize : PublicKey.format.ExactSize := (Format.exactSize_fixed 32).refine

theorem Signature.exactSize : Signature.format.ExactSize := (Format.exactSize_fixed 64).iso

theorem PublicKey.sized_exactSize : PublicKey.sizedFormat.ExactSize := .sized 32 PublicKey.exactSize

theorem Signature.sized_exactSize : Signature.sizedFormat.ExactSize := .sized 64 Signature.exactSize

/-! ### Transactions -/

theorem Aggregate.exactSize : (Aggregate.format limits).ExactSize :=
  (Format.exactSize_uint16.seq
    (.columns _ _ PublicKey.sized_exactSize Signature.sized_exactSize)).iso

theorem Invocation.exactSize : (Invocation.format limits).ExactSize :=
  (Address.exactSize.seq ((Format.exactSize_bytes _).refine.seq
    (.list _ (Format.exactSize_bytes _)))).iso

theorem UnsignedTransaction.exactSize : (UnsignedTransaction.format limits).ExactSize :=
  (Format.exactSize_uint8.seq ((Format.exactSize_constant _ _).seq
    (Format.exactSize_uint32.seq (Format.exactSize_uint64.seq (Format.exactSize_uint64.seq
      (Address.exactSize.seq ((Invocation.exactSize limits).seq
        Format.exactSize_compact.refine))))))).iso

theorem Transaction.exactSize : (Transaction.format limits).ExactSize :=
  ((UnsignedTransaction.exactSize limits).seq (.list _ (Aggregate.exactSize limits))).iso

/-! ### Blocks -/

theorem HeaderFront.exactSize : (HeaderFront.format limits).ExactSize :=
  (Format.exactSize_uint32.seq (Digest.exactSize.seq (Digest.exactSize.seq
    (Digest.exactSize.seq (Format.exactSize_uint32.seq (Format.exactSize_uint32.seq
      (Format.exactSize_uint64.seq ((Format.exactSize_bytes _).seq
        Address.exactSize)))))))).iso

theorem Header.exactSize : (Header.format limits).ExactSize :=
  ((HeaderFront.exactSize limits).seq ((Format.ExactSize.list _ PublicKey.sized_exactSize).seq
    (.list _ (Format.exactSize_bytes _)))).iso

theorem Block.exactSize : (Block.format limits).ExactSize :=
  ((Header.exactSize limits).seq (.list32 _ (Transaction.exactSize limits))).iso

/-! ### Emergency requests -/

namespace Emergency

theorem Proposal.exactSize : (Proposal.format limits).ExactSize :=
  (Format.exactSize_uint8.refine.seq (Format.exactSize_uint8.refine.seq
    (Format.exactSize_uint32.seq ((Block.exactSize limits).seq
      (PublicKey.sized_exactSize.seq Signature.sized_exactSize))))).iso

theorem Petition.exactSize : (Petition.format limits).ExactSize :=
  ((Proposal.exactSize limits).seq ((Format.ExactSize.list _ (Aggregate.exactSize limits)).seq
    PublicKey.sized_exactSize)).iso

theorem Request.exactSize : (Request.format limits).ExactSize :=
  ((Petition.exactSize limits).seq Signature.sized_exactSize).iso

end Emergency

/-! ### The two sums -/

theorem Aggregate.size_format : (Aggregate.format limits).size = Aggregate.byteSize := by
  funext a
  change 2 + (lengthSize a.pairs.length +
    (timesSize (fun _ => sizedSize 32) a.pairs.unzip.1 +
      (lengthSize a.pairs.unzip.2.length +
        timesSize (fun _ => sizedSize 64) a.pairs.unzip.2))) = _
  rw [timesSize_const, timesSize_const, List.unzip_fst, List.unzip_snd, List.length_map,
    List.length_map]
  unfold byteSize Aggregate.size
  omega

theorem Invocation.size_format : (Invocation.format limits).size = Invocation.byteSize := by
  funext i
  change 20 + (bytesSize (Text.utf8 i.method) + listSize bytesSize i.params) = _
  unfold byteSize bytesSize
  omega

theorem UnsignedTransaction.size_format :
    (UnsignedTransaction.format limits).size = UnsignedTransaction.byteSize := by
  funext t
  change 1 + (1 + (4 + (8 + (8 + (20 +
    ((Invocation.format limits).size t.invocation + Compact.size 0)))))) = _
  rw [Invocation.size_format]
  unfold byteSize
  omega

theorem Transaction.size_format : (Transaction.format limits).size = Transaction.byteSize := by
  funext t
  change (UnsignedTransaction.format limits).size t.unsigned +
    listSize (Aggregate.format limits).size t.signatures = _
  rw [UnsignedTransaction.size_format, Aggregate.size_format]
  rfl

theorem HeaderFront.size_format : (HeaderFront.format limits).size = HeaderFront.byteSize := by
  funext h
  change 4 + (32 + (32 + (32 + (4 + (4 + (8 + (bytesSize h.consensus.payload + 20))))))) = _
  unfold byteSize
  omega

theorem Header.size_format : (Header.format limits).size = Header.byteSize := by
  funext h
  change (HeaderFront.format limits).size h.toHeaderFront +
    (listSize (fun _ => sizedSize 32) h.bookkeepers + listSize bytesSize h.signatures) = _
  rw [HeaderFront.size_format, listSize, timesSize_const]
  unfold byteSize
  omega

theorem Block.size_format : (Block.format limits).size = Block.byteSize := by
  funext b
  change (Header.format limits).size b.header +
    (4 + timesSize (Transaction.format limits).size b.transactions) = _
  rw [Header.size_format, Transaction.size_format]
  unfold byteSize
  omega

namespace Emergency

theorem Proposal.size_format : (Proposal.format limits).size = Proposal.byteSize := by
  funext p
  change 1 + (1 + (4 + ((Block.format limits).size p.block + (sizedSize 32 + sizedSize 64)))) = _
  rw [Block.size_format]
  unfold byteSize
  omega

theorem Petition.size_format : (Petition.format limits).size = Petition.byteSize := by
  funext p
  change (Proposal.format limits).size p.proposal +
    (listSize (Aggregate.format limits).size p.groups + sizedSize 32) = _
  rw [Proposal.size_format, Aggregate.size_format]
  unfold byteSize listSize
  omega

theorem Request.size_format : (Request.format limits).size = Request.byteSize := by
  funext r
  change (Petition.format limits).size r.toPetition + sizedSize 64 = _
  rw [Petition.size_format]
  rfl

end Emergency

/-! ### All records -/

namespace Record

/-- The size that is announced for a record. -/
def byteSize : (k : Record) → k.Value → Nat
  | invocation => Invocation.byteSize
  | unsigned => UnsignedTransaction.byteSize
  | aggregate => Aggregate.byteSize
  | transaction => Transaction.byteSize
  | header => Header.byteSize
  | block => Block.byteSize
  | proposal => Emergency.Proposal.byteSize
  | request => Emergency.Request.byteSize

theorem exactSize (k : Record) : (k.format limits).ExactSize := by
  cases k with
  | invocation => exact Invocation.exactSize limits
  | unsigned => exact UnsignedTransaction.exactSize limits
  | aggregate => exact Aggregate.exactSize limits
  | transaction => exact Transaction.exactSize limits
  | header => exact Header.exactSize limits
  | block => exact Block.exactSize limits
  | proposal => exact Emergency.Proposal.exactSize limits
  | request => exact Emergency.Request.exactSize limits

theorem size_format (k : Record) : (k.format limits).size = k.byteSize := by
  cases k with
  | invocation => exact Invocation.size_format limits
  | unsigned => exact UnsignedTransaction.size_format limits
  | aggregate => exact Aggregate.size_format limits
  | transaction => exact Transaction.size_format limits
  | header => exact Header.size_format limits
  | block => exact Block.size_format limits
  | proposal => exact Emergency.Proposal.size_format limits
  | request => exact Emergency.Request.size_format limits

end Record

/-! ### All that is encoded -/

/-- The types whose values are encoded: plain values, keys and what is made with them, records, and
lists of any of these. -/
inductive Codable
  | plain (s : Schema)
  | address
  | digest
  | publicKey
  | signature
  | record (k : Record)
  | list (item : Codable)

namespace Codable

def Value : Codable → Type
  | plain s => s.Value
  | address => Address
  | digest => Digest
  | publicKey => PublicKey
  | signature => Signature
  | record k => k.Value
  | list item => List item.Value

/-- How the values of a type are written, with the sizes that are announced for them. Neither depends on
what would be allowed for their lengths. -/
def format : (c : Codable) → Format c.Value
  | plain s => s.format
  | address => Address.format
  | digest => Digest.format
  | publicKey => PublicKey.format
  | signature => Signature.format
  | record k => (k.format {}).announcing k.byteSize
  | list item => Format.list {} item.format

theorem exactSize (c : Codable) : c.format.ExactSize := by
  induction c with
  | plain s => exact s.exactSize
  | address => exact Address.exactSize
  | digest => exact Digest.exactSize
  | publicKey => exact PublicKey.exactSize
  | signature => exact Signature.exactSize
  | record k => exact (k.exactSize {}).announcing fun v => congrFun (k.size_format {}) v
  | list item ih => exact ih.list {}

/-- **Encoding never faults.** Every value of every type that is encoded is written in as many bytes as
its size announces, so that all of them are given. -/
theorem encode_never_faults (c : Codable) (v : c.Value) :
    c.format.size v = (c.format.write v).length ∧ c.format.encode? v = some (c.format.write v) :=
  ⟨c.exactSize v, c.exactSize.encode?_eq v⟩

end Codable

end ChainGovernance
