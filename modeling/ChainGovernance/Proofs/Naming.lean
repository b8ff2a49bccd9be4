import ChainGovernance.Proofs.Records

/-!
Records and their bytes: a record is read only from its own bytes, and the names inside it are
hashed from the very bytes that were read.

`Record.names` are the names that the program makes from a value. `Record.named` finds the bytes
behind those names in what was read, without the value: it follows the readers over the bytes and
keeps what they take for the parts that are hashed.
-/

namespace ChainGovernance

open Wire

namespace Wire.Format

variable {α β : Type} {f : Format α} {g : Format β} {b r : Bytes}

/-! ### The bytes that reading takes -/

/-- What reading leaves of some bytes. -/
def left (f : Format α) (b : Bytes) : Bytes :=
  match f.read b with
  | .ok (_, rest) => rest
  | .error _ => b

/-- What reading takes off the front of some bytes. -/
def taken (f : Format α) (b : Bytes) : Bytes := b.take (b.length - (f.left b).length)

/-- What a reader of the front takes from each of `n` values in a row. -/
def takenOfEach (front : Format β) (whole : Format α) : (n : Nat) → Bytes → List Bytes
  | 0, _ => []
  | n + 1, b => front.taken b :: takenOfEach front whole n (whole.left b)

theorem left_of_read {v : α} (h : f.read b = .ok (v, r)) : f.left b = r := by
  rw [left, h]

theorem Canonical.taken_of_read {v : α} (hf : f.Canonical) (h : f.read b = .ok (v, r)) :
    f.taken b = f.write v := by
  rw [taken, left_of_read h, hf h, List.length_append, Nat.add_sub_cancel, List.take_left]

/-- `part` is what the front of a value says. -/
theorem Canonical.takenOfEach_of_read {part : α → β} (hg : g.Canonical)
    (hp : ∀ ⦃b v r⦄, f.read b = .ok (v, r) → ∃ rest, g.read b = .ok (part v, rest))
    {n : Nat} {vs : List α} (h : (f.times n).read b = .ok (vs, r)) :
    takenOfEach g f n b = vs.map fun v => g.write (part v) := by
  induction n generalizing b vs with
  | zero =>
    obtain ⟨rfl, rfl⟩ := read_times_zero.1 h
    rfl
  | succ n ih =>
    obtain ⟨v, ws, rest, rfl, hv, hws⟩ := read_times_succ.1 h
    obtain ⟨rest', hpart⟩ := hp hv
    rw [takenOfEach, hg.taken_of_read hpart, left_of_read hv, ih hws, List.map_cons]

theorem read_list32 {range : LengthRange} {vs : List α} (h : (list32 range f).read b = .ok (vs, r)) :
    ∃ n rest, uint32.read b = .ok (n, rest) ∧ (f.times n.toNat).read rest = .ok (vs, r) := by
  obtain ⟨n, rest, hn, hvs⟩ := read_counted.1 h
  obtain ⟨k, hk, rfl⟩ := read_iso.1 ((read_within range).1 hn).1
  exact ⟨k, rest, hk, hvs⟩

end Wire.Format

/-! ### Names -/

/-- The names of a block and of its transactions. -/
def Block.names (b : Block) : List Digest :=
  b.header.hash :: b.transactions.map fun t => t.unsigned.hash

/-- Where the transactions of a block start, the bytes that name them: behind their number, and
each time up to the signatures. -/
def Block.namedTransactions (limits : Limits) (b : Bytes) : List Bytes :=
  match Format.uint32.read b with
  | .ok (n, rest) =>
    Format.takenOfEach (UnsignedTransaction.format limits) (Transaction.format limits) n.toNat rest
  | .error _ => []

/-- The bytes of a block that name it and its transactions. -/
def Block.named (limits : Limits) (b : Bytes) : List Bytes :=
  (HeaderFront.format limits).taken b ::
    namedTransactions limits ((Header.format limits).left b)

namespace Record

/-- The names of the transactions and headers inside a record. -/
def names : (k : Record) → k.Value → List Digest
  | invocation, _ => []
  | unsigned, t => [UnsignedTransaction.hash t]
  | aggregate, _ => []
  | transaction, t => [(Transaction.unsigned t).hash]
  | header, h => [Header.hash h]
  | block, b => Block.names b
  | proposal, p => (Emergency.Proposal.block p).names
  | request, r => (Emergency.Request.toPetition r).proposal.block.names

/-- The bytes that name the transactions and headers inside a record. In front of the block of a
proposal stand the two codes and the claimed height, six bytes. -/
def named (limits : Limits) : Record → Bytes → List Bytes
  | invocation, _ => []
  | unsigned, b => [(UnsignedTransaction.format limits).taken b]
  | aggregate, _ => []
  | transaction, b => [(UnsignedTransaction.format limits).taken b]
  | header, b => [(HeaderFront.format limits).taken b]
  | block, b => Block.named limits b
  | proposal, b => Block.named limits (b.drop 6)
  | request, b => Block.named limits (b.drop 6)

end Record

/-! ### The front of a record -/

section Fronts

variable {limits : Limits} {b r : Bytes}

theorem Transaction.read_unsigned {t : Transaction}
    (h : (Transaction.format limits).read b = .ok (t, r)) :
    ∃ rest, (UnsignedTransaction.format limits).read b = .ok (t.unsigned, rest) := by
  obtain ⟨v, hv, rfl⟩ := Format.read_iso.1 h
  obtain ⟨rest, hu, -⟩ := Format.read_seq.1 hv
  exact ⟨rest, hu⟩

theorem Header.read_front {v : Header} (h : (Header.format limits).read b = .ok (v, r)) :
    ∃ rest, (HeaderFront.format limits).read b = .ok (v.toHeaderFront, rest) := by
  obtain ⟨p, hp, rfl⟩ := Format.read_iso.1 h
  obtain ⟨rest, hf, -⟩ := Format.read_seq.1 hp
  exact ⟨rest, hf⟩

theorem Emergency.Proposal.read_block {p : Emergency.Proposal}
    (h : (Emergency.Proposal.format limits).read b = .ok (p, r)) :
    ∃ rest, (Block.format limits).read (b.drop 6) = .ok (p.block, rest) := by
  obtain ⟨v, hv, rfl⟩ := Format.read_iso.1 h
  obtain ⟨b₁, hr, hv⟩ := Format.read_seq.1 hv
  obtain ⟨b₂, he, hv⟩ := Format.read_seq.1 hv
  obtain ⟨b₃, hh, hv⟩ := Format.read_seq.1 hv
  obtain ⟨rest, hb, -⟩ := Format.read_seq.1 hv
  rw [Emergency.Reason.canonical hr, Emergency.Evidence.canonical he,
    Format.canonical_uint32 hh]
  exact ⟨rest, hb⟩

theorem Emergency.Request.read_proposal {q : Emergency.Request}
    (h : (Emergency.Request.format limits).read b = .ok (q, r)) :
    ∃ rest, (Emergency.Proposal.format limits).read b = .ok (q.proposal, rest) := by
  obtain ⟨v, hv, rfl⟩ := Format.read_iso.1 h
  obtain ⟨b₁, hp, -⟩ := Format.read_seq.1 hv
  obtain ⟨w, hw, hwv⟩ := Format.read_iso.1 hp
  obtain ⟨rest, hq, -⟩ := Format.read_seq.1 hw
  rw [← hwv]
  exact ⟨rest, hq⟩

end Fronts

/-! ### Names are hashed from what was read -/

section Names

variable {limits : Limits} {b r : Bytes}

theorem UnsignedTransaction.hash_of_read {t : UnsignedTransaction}
    (h : (UnsignedTransaction.format limits).read b = .ok (t, r)) :
    t.hash = doubleHash ((UnsignedTransaction.format limits).taken b) := by
  rw [(UnsignedTransaction.canonical limits).taken_of_read h, UnsignedTransaction.write_format]
  rfl

theorem HeaderFront.hash_of_read {v : HeaderFront}
    (h : (HeaderFront.format limits).read b = .ok (v, r)) :
    v.hash = doubleHash ((HeaderFront.format limits).taken b) := by
  rw [(HeaderFront.canonical limits).taken_of_read h, HeaderFront.write_format]
  rfl

theorem Block.names_of_read {v : Block} (h : (Block.format limits).read b = .ok (v, r)) :
    v.names = (Block.named limits b).map doubleHash := by
  obtain ⟨p, hp, rfl⟩ := Format.read_iso.1 h
  obtain ⟨rest, hh, ht⟩ := Format.read_seq.1 hp
  obtain ⟨_, hf⟩ := Header.read_front hh
  obtain ⟨n, rest', hn, hts⟩ := Format.read_list32 ht
  have hspans := (UnsignedTransaction.canonical limits).takenOfEach_of_read
    (fun _ _ _ => Transaction.read_unsigned) hts
  rw [Block.named, Block.namedTransactions, Format.left_of_read hh, hn]
  simp only [hspans, List.map_cons, List.map_map, ← HeaderFront.hash_of_read hf,
    UnsignedTransaction.write_format]
  rfl

end Names

namespace Record

variable {k : Record} {limits : Limits} {b r : Bytes} {v : k.Value}

theorem names_of_read (h : (k.format limits).read b = .ok (v, r)) :
    k.names v = (k.named limits b).map doubleHash := by
  cases k with
  | invocation => rfl
  | unsigned => exact congrArg (fun d => [d]) (UnsignedTransaction.hash_of_read h)
  | aggregate => rfl
  | transaction =>
    obtain ⟨_, hu⟩ := Transaction.read_unsigned h
    exact congrArg (fun d => [d]) (UnsignedTransaction.hash_of_read hu)
  | header =>
    obtain ⟨_, hf⟩ := Header.read_front h
    exact congrArg (fun d => [d]) (HeaderFront.hash_of_read hf)
  | block => exact Block.names_of_read h
  | proposal =>
    obtain ⟨_, hb⟩ := Emergency.Proposal.read_block h
    exact Block.names_of_read hb
  | request =>
    obtain ⟨_, hp⟩ := Emergency.Request.read_proposal h
    obtain ⟨_, hb⟩ := Emergency.Proposal.read_block hp
    exact Block.names_of_read hb

theorem eq_encode_of_read (h : (k.format limits).read b = .ok (v, r)) :
    b = k.encode v ++ r := by
  rw [← write_format limits k]
  exact k.canonical limits h

theorem eq_encode_of_decode (h : (k.format limits).decode b = .ok v) : b = k.encode v := by
  rw [eq_encode_of_read (Format.decode_eq_ok_iff.1 h), List.append_nil]

/-- **Records have one spelling.** What is read as a record is the encoding of that record and then
what is left, and the transactions and headers inside it are named by the double hash of the very
bytes that were read for them. So no record is decoded from two byte strings, whatever the
limits. -/
theorem one_spelling (k : Record) :
    (∀ limits b r v, (k.format limits).read b = .ok (v, r) →
      b = k.encode v ++ r ∧ k.names v = (k.named limits b).map doubleHash) ∧
    ∀ limits₁ limits₂ b₁ b₂ v, (k.format limits₁).decode b₁ = .ok v →
      (k.format limits₂).decode b₂ = .ok v → b₁ = b₂ := by
  refine ⟨fun limits b r v h => ⟨eq_encode_of_read h, names_of_read h⟩, ?_⟩
  intro limits₁ limits₂ b₁ b₂ v h₁ h₂
  rw [eq_encode_of_decode h₁, eq_encode_of_decode h₂]

/-- A request to accept a block with one transaction, under keys and signatures of no worth. -/
def sample : Emergency.Request :=
  let group : Aggregate := ⟨1, [(.neutral, ⟨.zero 64⟩)]⟩
  let transaction : Transaction :=
    ⟨⟨0, 7, 0, 20000, .zero, .governance, "blackNode", [[1, 2], []]⟩, [group]⟩
  let front : HeaderFront :=
    ⟨0, .zero, transactionsRoot [transaction], .zero, 1, 1, { payload := [3] }⟩
  let block : Block := ⟨⟨front, [.neutral], [[4]]⟩, [transaction]⟩
  ⟨⟨⟨.blacklist, .equivocation, 1, block, .neutral, ⟨.zero 64⟩⟩, [group], .neutral⟩, ⟨.zero 64⟩⟩

theorem one_spelling_sample :
    (request.format {}).read (sample.encode ++ [9]) = .ok (sample, [9]) ∧
      names request sample = (named {} request (sample.encode ++ [9])).map doubleHash ∧
      ∀ b, (request.format { maxGroups := 1 }).decode b = .ok sample → b = sample.encode := by
  have hread : (Emergency.Request.format {}).read (sample.encode ++ [9]) = .ok (sample, [9]) := by
    decide +kernel
  have hdecode : (Emergency.Request.format {}).decode sample.encode = .ok sample := by
    decide +kernel
  exact ⟨hread, ((one_spelling request).1 {} _ _ _ hread).2,
    fun b hb => (one_spelling request).2 _ {} b _ sample hb hdecode⟩

end Record

end ChainGovernance
