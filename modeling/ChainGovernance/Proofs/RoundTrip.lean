import ChainGovernance.Proofs.Naming
import ChainGovernance.Proofs.Wire.Extent

/-!
Records come back from their bytes, exactly within the limits.

The extents of a record are the lengths inside it, in the order in which they are written, each with
what the limits allow at its place. A record comes back from its bytes if all of them fit; otherwise
reading fails with the first that does not, and no later part is looked at.
-/

namespace ChainGovernance

open Wire

/-! ### The lengths inside records -/

section Extents

variable (limits : Limits)

/-- The method name, the number of parameters, and each of them. -/
def Invocation.extents (i : Invocation) : List Extent :=
  ⟨(Text.utf8 i.method).length, .between 1 limits.maxMethod, 2 ^ 64⟩ ::
    ⟨i.params.length, .upTo limits.maxParams, 2 ^ 64⟩ ::
      i.params.flatMap fun p => [⟨p.length, .upTo limits.maxParamSize, 2 ^ 64⟩]

def UnsignedTransaction.extents (t : UnsignedTransaction) : List Extent :=
  t.invocation.extents limits

/-- The number of keys, and that of signatures. -/
def Aggregate.extents (a : Aggregate) : List Extent :=
  [⟨a.pairs.length, .upTo limits.maxSigners, 2 ^ 64⟩,
    ⟨a.pairs.length, .upTo limits.maxSigners, 2 ^ 64⟩]

def Transaction.extents (t : Transaction) : List Extent :=
  t.unsigned.extents limits ++
    ⟨t.signatures.length, .upTo limits.maxGroups, 2 ^ 64⟩ ::
      t.signatures.flatMap (Aggregate.extents limits)

/-- The payload. -/
def HeaderFront.extents (h : HeaderFront) : List Extent :=
  [⟨h.consensus.payload.length, .upTo limits.maxPayload, 2 ^ 64⟩]

/-- Behind the front, the number of bookkeepers, that of signatures, and each of these. -/
def Header.extents (h : Header) : List Extent :=
  h.toHeaderFront.extents limits ++
    ⟨h.bookkeepers.length, .upTo limits.maxSigners, 2 ^ 64⟩ ::
      ⟨h.signatures.length, .upTo limits.maxSigners, 2 ^ 64⟩ ::
        h.signatures.flatMap fun s => [⟨s.length, .upTo limits.maxParamSize, 2 ^ 64⟩]

/-- The number of transactions has only four bytes. -/
def Block.extents (b : Block) : List Extent :=
  b.header.extents limits ++
    ⟨b.transactions.length, .upTo limits.maxTransactions, 2 ^ 32⟩ ::
      b.transactions.flatMap (Transaction.extents limits)

namespace Emergency

def Proposal.extents (p : Proposal) : List Extent := p.block.extents limits

def Petition.extents (p : Petition) : List Extent :=
  p.proposal.extents limits ++
    ⟨p.groups.length, .upTo limits.maxGroups, 2 ^ 64⟩ ::
      p.groups.flatMap (Aggregate.extents limits)

def Request.extents (r : Request) : List Extent := r.toPetition.extents limits

end Emergency

/-- The lengths inside a record. -/
def Record.extents : (k : Record) → k.Value → List Extent
  | invocation => Invocation.extents limits
  | unsigned => UnsignedTransaction.extents limits
  | aggregate => Aggregate.extents limits
  | transaction => Transaction.extents limits
  | header => Header.extents limits
  | block => Block.extents limits
  | proposal => Emergency.Proposal.extents limits
  | request => Emergency.Request.extents limits

end Extents

/-! ### Keys, signatures and addresses -/

theorem Address.restores (a : Address) : Address.format.Restores a [] :=
  (Format.restores_fixed a.toFixedBytes).iso rfl

theorem Digest.restores (d : Digest) : Digest.format.Restores d [] :=
  (Format.restores_fixed d.toFixedBytes).iso rfl

theorem Signature.restores (s : Signature) : Signature.sizedFormat.Restores s [] :=
  ((Format.restores_fixed s.toFixedBytes).iso rfl).sized (by decide)

theorem PublicKey.ofFixedBytes?_toFixedBytes (key : PublicKey) :
    PublicKey.ofFixedBytes? key.toFixedBytes = .ok key :=
  dif_pos key.isPoint

theorem PublicKey.restores_format (key : PublicKey) : PublicKey.format.Restores key [] := by
  refine (Format.restores_fixed key.toFixedBytes).refine ?_
  rw [PublicKey.ofFixedBytes?_toFixedBytes]

theorem PublicKey.restores (key : PublicKey) : PublicKey.sizedFormat.Restores key [] :=
  key.restores_format.sized (by decide)

/-! ### Records -/

section Restores

variable (limits : Limits)

theorem Invocation.method_restores (s : String) : (Invocation.methodFormat limits).Restores s
    [⟨(Text.utf8 s).length, .between 1 limits.maxMethod, 2 ^ 64⟩] := by
  refine (Format.restores_bytes _ _).refine ?_
  rw [Text.ofUtf8?_utf8]

theorem Invocation.restores (i : Invocation) :
    (Invocation.format limits).Restores i (i.extents limits) := by
  have h := (Address.restores i.contract).seq ((Invocation.method_restores limits i.method).seq
    (Format.Restores.list (.upTo limits.maxParams) fun p (_ : p ∈ i.params) =>
      Format.restores_bytes (.upTo limits.maxParamSize) p))
  exact Format.Restores.iso h rfl

theorem UnsignedTransaction.attributes_restores :
    UnsignedTransaction.attributesFormat.Restores () [] := by
  refine Format.Restores.refine ?_ rfl
  exact Format.restores_compact 0

theorem UnsignedTransaction.restores (t : UnsignedTransaction) :
    (UnsignedTransaction.format limits).Restores t (t.extents limits) := by
  have h := (Format.restores_uint8 t.version).seq
    ((Format.restores_constant "UnsignedTransaction" UnsignedTransaction.invokeTag).seq
      ((Format.restores_uint32 t.nonce).seq ((Format.restores_uint64 t.gasPrice).seq
        ((Format.restores_uint64 t.gasLimit).seq ((Address.restores t.payer).seq
          ((Invocation.restores limits t.invocation).seq
            UnsignedTransaction.attributes_restores))))))
  rw [List.append_nil] at h
  refine Format.Restores.iso ?_ rfl
  exact h

theorem Aggregate.restores (a : Aggregate) :
    (Aggregate.format limits).Restores a (a.extents limits) := by
  have h := (Format.restores_uint16 a.threshold).seq
    (Format.Restores.columns (.upTo limits.maxSigners)
      (.invalid "AggregateSignature" "key and signature counts differ")
      (fun p (_ : p ∈ a.pairs) => PublicKey.restores p.1) fun p _ => Signature.restores p.2)
  exact Format.Restores.iso h rfl

theorem Transaction.restores (t : Transaction) :
    (Transaction.format limits).Restores t (t.extents limits) := by
  have h := (UnsignedTransaction.restores limits t.unsigned).seq
    (Format.Restores.list (.upTo limits.maxGroups) fun a (_ : a ∈ t.signatures) =>
      Aggregate.restores limits a)
  exact Format.Restores.iso h rfl

theorem HeaderFront.restores (v : HeaderFront) :
    (HeaderFront.format limits).Restores v (v.extents limits) := by
  have h := (Format.restores_uint32 v.version).seq ((Digest.restores v.prevHash).seq
    ((Digest.restores v.transactionsRoot).seq ((Digest.restores v.blockRoot).seq
      ((Format.restores_uint32 v.timestamp).seq ((Format.restores_uint32 v.height).seq
        ((Format.restores_uint64 v.consensus.nonce).seq
          ((Format.restores_bytes (.upTo limits.maxPayload) v.consensus.payload).seq
            (Address.restores v.consensus.nextBookkeeper))))))))
  exact Format.Restores.iso h rfl

theorem Header.restores (v : Header) : (Header.format limits).Restores v (v.extents limits) := by
  have hkeys := Format.Restores.list_nil (.upTo limits.maxSigners)
    fun key (_ : key ∈ v.bookkeepers) => PublicKey.restores key
  have h := (HeaderFront.restores limits v.toHeaderFront).seq (hkeys.seq
    (Format.Restores.list (.upTo limits.maxSigners) fun b (_ : b ∈ v.signatures) =>
      Format.restores_bytes (.upTo limits.maxParamSize) b))
  exact Format.Restores.iso h rfl

theorem Block.restores (b : Block) : (Block.format limits).Restores b (b.extents limits) := by
  have h := (Header.restores limits b.header).seq
    (Format.Restores.list32 (.upTo limits.maxTransactions) fun t (_ : t ∈ b.transactions) =>
      Transaction.restores limits t)
  exact Format.Restores.iso h rfl

namespace Emergency

theorem Reason.restores (r : Reason) : Reason.format.Restores r [] := by
  refine Format.Restores.refine (Format.restores_uint8 r.code) ?_
  cases r
  rfl

theorem Evidence.restores (e : Evidence) : Evidence.format.Restores e [] := by
  refine Format.Restores.refine (Format.restores_uint8 e.code) ?_
  cases e <;> rfl

theorem Proposal.restores (p : Proposal) :
    (Proposal.format limits).Restores p (p.extents limits) := by
  have h := (Reason.restores p.reason).seq ((Evidence.restores p.evidence).seq
    ((Format.restores_uint32 p.height).seq ((Block.restores limits p.block).seq
      ((PublicKey.restores p.proposer).seq (Signature.restores p.signature)))))
  rw [List.append_nil, List.append_nil] at h
  exact Format.Restores.iso h rfl

theorem Petition.restores (p : Petition) :
    (Petition.format limits).Restores p (p.extents limits) := by
  have hgroups := Format.Restores.list (.upTo limits.maxGroups) fun a (_ : a ∈ p.groups) =>
    Aggregate.restores limits a
  have h := (Proposal.restores limits p.proposal).seq
    (hgroups.seq (PublicKey.restores p.requester))
  rw [List.append_nil] at h
  exact Format.Restores.iso h rfl

theorem Request.restores (r : Request) :
    (Request.format limits).Restores r (r.extents limits) := by
  have h := (Petition.restores limits r.toPetition).seq (Signature.restores r.requesterSignature)
  rw [List.append_nil] at h
  exact Format.Restores.iso h rfl

end Emergency

end Restores

section Measured

variable (limits : Limits)

theorem Invocation.method_measured : (Invocation.methodFormat limits).Measured fun s =>
    [⟨(Text.utf8 s).length, .between 1 limits.maxMethod, 2 ^ 64⟩] := by
  refine Format.Yields.refine (Format.measured_bytes _) fun b s h hb => ?_
  split at h
  · rename_i t ht
    obtain rfl := Except.ok.inj h
    obtain rfl := Text.utf8_of_ofUtf8? ht
    exact hb
  · cases h

theorem Invocation.measured : (Invocation.format limits).Measured (Invocation.extents limits) := by
  have h := (Format.measured_nil (f := Address.format)).seq
    ((Invocation.method_measured limits).seq (Format.Measured.list (.upTo limits.maxParams)
      (Format.measured_bytes (.upTo limits.maxParamSize))))
  exact Format.Measured.iso h

theorem UnsignedTransaction.measured :
    (UnsignedTransaction.format limits).Measured (UnsignedTransaction.extents limits) := by
  -- only the invocation has lengths, which is the seventh part
  refine Format.Measured.iso fun b v r h => ?_
  obtain ⟨b₁, -, h⟩ := Format.read_seq.1 h
  obtain ⟨b₂, -, h⟩ := Format.read_seq.1 h
  obtain ⟨b₃, -, h⟩ := Format.read_seq.1 h
  obtain ⟨b₄, -, h⟩ := Format.read_seq.1 h
  obtain ⟨b₅, -, h⟩ := Format.read_seq.1 h
  obtain ⟨b₆, -, h⟩ := Format.read_seq.1 h
  obtain ⟨b₇, h, -⟩ := Format.read_seq.1 h
  exact Invocation.measured limits h

theorem Aggregate.measured : (Aggregate.format limits).Measured (Aggregate.extents limits) := by
  have h := (Format.measured_nil (f := Format.uint16)).seq
    (Format.Measured.columns (f := PublicKey.sizedFormat) (g := Signature.sizedFormat)
      (.upTo limits.maxSigners) (.invalid "AggregateSignature" "key and signature counts differ"))
  exact Format.Measured.iso h

theorem Transaction.measured :
    (Transaction.format limits).Measured (Transaction.extents limits) := by
  have h := (UnsignedTransaction.measured limits).seq
    (Format.Measured.list (.upTo limits.maxGroups) (Aggregate.measured limits))
  exact Format.Measured.iso h

theorem HeaderFront.measured :
    (HeaderFront.format limits).Measured (HeaderFront.extents limits) := by
  -- only the payload has a length, which is the eighth part
  refine Format.Measured.iso fun b v r h => ?_
  obtain ⟨b₁, -, h⟩ := Format.read_seq.1 h
  obtain ⟨b₂, -, h⟩ := Format.read_seq.1 h
  obtain ⟨b₃, -, h⟩ := Format.read_seq.1 h
  obtain ⟨b₄, -, h⟩ := Format.read_seq.1 h
  obtain ⟨b₅, -, h⟩ := Format.read_seq.1 h
  obtain ⟨b₆, -, h⟩ := Format.read_seq.1 h
  obtain ⟨b₇, -, h⟩ := Format.read_seq.1 h
  obtain ⟨b₈, h, -⟩ := Format.read_seq.1 h
  exact Format.measured_bytes _ h

theorem Header.measured : (Header.format limits).Measured (Header.extents limits) := by
  have hkeys := Format.Measured.list_nil (f := PublicKey.sizedFormat) (.upTo limits.maxSigners)
  have h := (HeaderFront.measured limits).seq (hkeys.seq
    (Format.Measured.list (.upTo limits.maxSigners)
      (Format.measured_bytes (.upTo limits.maxParamSize))))
  exact Format.Measured.iso h

theorem Block.measured : (Block.format limits).Measured (Block.extents limits) := by
  have h := (Header.measured limits).seq
    (Format.Measured.list32 (.upTo limits.maxTransactions) (Transaction.measured limits))
  exact Format.Measured.iso h

namespace Emergency

theorem Proposal.measured : (Proposal.format limits).Measured (Proposal.extents limits) := by
  -- only the block has lengths, which is the fourth part
  refine Format.Measured.iso fun b v r h => ?_
  obtain ⟨b₁, -, h⟩ := Format.read_seq.1 h
  obtain ⟨b₂, -, h⟩ := Format.read_seq.1 h
  obtain ⟨b₃, -, h⟩ := Format.read_seq.1 h
  obtain ⟨b₄, h, -⟩ := Format.read_seq.1 h
  exact Block.measured limits h

theorem Petition.measured : (Petition.format limits).Measured (Petition.extents limits) := by
  have hgroups := Format.Measured.list (.upTo limits.maxGroups) (Aggregate.measured limits)
  refine Format.Measured.iso fun b v r h => ?_
  obtain ⟨b₁, hp, h⟩ := Format.read_seq.1 h
  obtain ⟨b₂, hg, -⟩ := Format.read_seq.1 h
  exact List.forall_mem_append.2 ⟨Proposal.measured limits hp, hgroups hg⟩

theorem Request.measured : (Request.format limits).Measured (Request.extents limits) := by
  refine Format.Measured.iso fun b v r h => ?_
  obtain ⟨b₁, h, -⟩ := Format.read_seq.1 h
  exact Petition.measured limits h

end Emergency

end Measured

/-! ### All records -/

namespace Record

variable (limits : Limits)

theorem restores (k : Record) (v : k.Value) : (k.format limits).Restores v (k.extents limits v) := by
  cases k with
  | invocation => exact Invocation.restores limits v
  | unsigned => exact UnsignedTransaction.restores limits v
  | aggregate => exact Aggregate.restores limits v
  | transaction => exact Transaction.restores limits v
  | header => exact Header.restores limits v
  | block => exact Block.restores limits v
  | proposal => exact Emergency.Proposal.restores limits v
  | request => exact Emergency.Request.restores limits v

theorem measured (k : Record) : (k.format limits).Measured (k.extents limits) := by
  cases k with
  | invocation => exact Invocation.measured limits
  | unsigned => exact UnsignedTransaction.measured limits
  | aggregate => exact Aggregate.measured limits
  | transaction => exact Transaction.measured limits
  | header => exact Header.measured limits
  | block => exact Block.measured limits
  | proposal => exact Emergency.Proposal.measured limits
  | request => exact Emergency.Request.measured limits

variable {limits : Limits} {k : Record} {v : k.Value}

theorem read_encode (hw : ∀ e ∈ k.extents limits v, e.Writable) (x : Bytes) :
    (k.format limits).read (k.encode v ++ x) =
      (Extent.survey (k.extents limits v)).map fun _ => (v, x) := by
  rw [← write_format limits k]
  exact k.restores limits v hw x

/-- A record comes back from its bytes exactly if its lengths can be written and fit. -/
theorem decode_encode_eq_ok_iff : (k.format limits).decode (k.encode v) = .ok v ↔
    ∀ e ∈ k.extents limits v, e.Writable ∧ e.Fits := by
  rw [Format.decode_eq_ok_iff]
  constructor
  · exact fun h => k.measured limits h
  · intro h
    rw [← List.append_nil (k.encode v), ← write_format limits k]
    exact (k.restores limits v).read_of_fits h []

theorem decode_encode_eq_error {error : Wire.Error} (hw : ∀ e ∈ k.extents limits v, e.Writable)
    (h : Extent.survey (k.extents limits v) = .error error) :
    (k.format limits).decode (k.encode v) = .error error := by
  rw [Format.decode, ← List.append_nil (k.encode v), read_encode hw, h]
  rfl

/-- **Records come back exactly within the limits.** A record whose lengths all fit is read from its
bytes, whatever follows them, and what follows is left; to decode all of it fails exactly for what is
left. Otherwise the first length that does not fit is refused. -/
theorem decode_encode_exact (k : Record) (limits : Limits) (v : k.Value)
    (hw : ∀ e ∈ k.extents limits v, e.Writable) :
    ((∀ e ∈ k.extents limits v, e.Fits) →
      (k.format limits).decode (k.encode v) = .ok v ∧
      ∀ x, x ≠ [] → (k.format limits).read (k.encode v ++ x) = .ok (v, x) ∧
        (k.format limits).decode (k.encode v ++ x) = .error (.extraData x.length)) ∧
    (¬ (∀ e ∈ k.extents limits v, e.Fits) →
      ∃ before e after, k.extents limits v = before ++ e :: after ∧ (∀ d ∈ before, d.Fits) ∧
        ¬ e.Fits ∧ (k.format limits).decode (k.encode v) = .error (.invalidLength e.length)) := by
  refine ⟨fun hfits => ⟨decode_encode_eq_ok_iff.2 fun e he => ⟨hw e he, hfits e he⟩, ?_⟩, ?_⟩
  · intro x hx
    have hread : (k.format limits).read (k.encode v ++ x) = .ok (v, x) := by
      rw [read_encode hw, Extent.survey_eq_ok hfits]
      rfl
    exact ⟨hread, Format.decode_of_read hread hx⟩
  · intro hfits
    obtain ⟨before, e, after, hsplit, hbefore, he, hsurvey⟩ := Extent.survey_eq_error hfits
    exact ⟨before, e, after, hsplit, hbefore, he, decode_encode_eq_error hw hsurvey⟩

/-- The method name of the sample has nine bytes. -/
theorem decode_encode_exact_sample :
    (∀ e ∈ request.extents { maxMethod := 9 } sample, e.Fits) ∧
      (request.format { maxMethod := 9 }).decode (request.encode sample) = .ok sample ∧
      (request.format { maxMethod := 9 }).decode (request.encode sample ++ [7]) =
        .error (.extraData 1) ∧
      ∃ e ∈ request.extents { maxMethod := 8 } sample, ¬ e.Fits ∧
        (request.format { maxMethod := 8 }).decode (request.encode sample) =
          .error (.invalidLength e.length) := by
  have hw9 : ∀ e ∈ request.extents { maxMethod := 9 } sample, e.Writable := by decide +kernel
  have hw8 : ∀ e ∈ request.extents { maxMethod := 8 } sample, e.Writable := by decide +kernel
  have hfits : ∀ e ∈ request.extents { maxMethod := 9 } sample, e.Fits := by decide +kernel
  have hmisfit : ¬ ∀ e ∈ request.extents { maxMethod := 8 } sample, e.Fits := by decide +kernel
  obtain ⟨hdecode, hmore⟩ := (decode_encode_exact request { maxMethod := 9 } sample hw9).1 hfits
  obtain ⟨before, e, after, hsplit, -, he, herror⟩ :=
    (decode_encode_exact request { maxMethod := 8 } sample hw8).2 hmisfit
  exact ⟨hfits, hdecode, (hmore [7] (List.cons_ne_nil _ _)).2, e, by simp [hsplit], he, herror⟩

end Record

end ChainGovernance
