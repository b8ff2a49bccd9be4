import ChainGovernance.Proofs.Node.History
import ChainGovernance.Proofs.TransactionsRoot

/-!
The name of the tip commits to the history of a ledger.

The name of a block determines its header, and through the root also its unsigned transactions. The
header has the name of the block below, so two chains with one tip agree block by block, from the tip
down; and it has the height, so they end at their first blocks together.
-/

namespace ChainGovernance

open Wire

namespace Block

/-- What is hashed for the name of a block, those of its transactions, and their root. -/
def messages (b : Block) : List Bytes :=
  b.header.toHeaderFront.encode :: rootMessages b.transactions

/-- Two blocks differ at most in the signatures of their transactions. -/
structure SameButSignatures (a b : Block) : Prop where
  header : a.header = b.header
  unsigned : a.transactions.map (·.unsigned) = b.transactions.map (·.unsigned)

/-- A block as a ledger holds it. -/
structure Held (b : Block) : Prop where
  root : b.header.transactionsRoot = transactionsRoot b.transactions
  consensus : b.header.consensus = {}
  unsigned : b.header.bookkeepers = [] ∧ b.header.signatures = []
  readable : ∀ t ∈ b.transactions, Record.unsigned.Readable t.unsigned

variable {messages : List Bytes}

theorem sameButSignatures_of_hash_eq (hfree : CollisionFree messages) {a b : Block} (ha : a.Held)
    (hb : b.Held) (hs : a.messages ⊆ messages) (hs' : b.messages ⊆ messages)
    (h : a.hash = b.hash) : a.SameButSignatures b := by
  have hencode : a.header.toHeaderFront.encode = b.header.toHeaderFront.encode :=
    hfree.injective _ (hs List.mem_cons_self) _ (hs' List.mem_cons_self) h
  have hfront : a.header.toHeaderFront = b.header.toHeaderFront := by
    apply HeaderFront.encode_injective _ _ hencode
    · rw [ha.consensus]
      decide
    · rw [hb.consensus]
      decide
  constructor
  case header =>
    obtain ⟨hakeys, hasignatures⟩ := ha.unsigned
    obtain ⟨hbkeys, hbsignatures⟩ := hb.unsigned
    cases hah : a.header
    cases hbh : b.header
    simp only [hah, hbh] at hfront hakeys hasignatures hbkeys hbsignatures
    rw [hfront, hakeys, hasignatures, hbkeys, hbsignatures]
  case unsigned =>
    have hroot : transactionsRoot a.transactions = transactionsRoot b.transactions := by
      rw [← ha.root, ← hb.root, hfront]
    exact unsigned_eq_of_root_eq hfree (List.subset_of_cons_subset hs)
      (List.subset_of_cons_subset hs') ha.readable hb.readable hroot

/-- Two chains of one length agree if their last blocks have one name. -/
theorem forall₂_of_linked (hfree : CollisionFree messages) {bs bs' : List Block}
    (hlinked : bs.IsChain Next) (hlinked' : bs'.IsChain Next)
    (hheld : ∀ b ∈ bs, b.Held ∧ b.messages ⊆ messages)
    (hheld' : ∀ b ∈ bs', b.Held ∧ b.messages ⊆ messages) (hlength : bs.length = bs'.length)
    (hlast : bs.getLast?.map hash = bs'.getLast?.map hash) :
    List.Forall₂ SameButSignatures bs bs' := by
  induction bs generalizing bs' with
  | nil =>
    obtain rfl := List.length_eq_zero_iff.1 hlength.symm
    exact .nil
  | cons a bs ih =>
    cases bs' with
    | nil => cases hlength
    | cons a' bs' =>
      obtain ⟨⟨ha, hs⟩, hheld⟩ := List.forall_mem_cons.1 hheld
      obtain ⟨⟨ha', hs'⟩, hheld'⟩ := List.forall_mem_cons.1 hheld'
      -- the blocks above agree, and name those below
      have hrest : a.hash = a'.hash ∧ List.Forall₂ SameButSignatures bs bs' := by
        cases bs with
        | nil =>
          obtain rfl := List.length_eq_zero_iff.1 (Nat.succ.inj hlength).symm
          exact ⟨Option.some.inj hlast, .nil⟩
        | cons b bs =>
          cases bs' with
          | nil => cases hlength
          | cons b' bs' =>
            obtain ⟨hab, hlinked⟩ := List.isChain_cons_cons.1 hlinked
            obtain ⟨hab', hlinked'⟩ := List.isChain_cons_cons.1 hlinked'
            rw [List.getLast?_cons_cons, List.getLast?_cons_cons] at hlast
            have habove := ih hlinked hlinked' hheld hheld' (Nat.succ.inj hlength) hlast
            cases habove with
            | cons hb hbs =>
              refine ⟨?_, .cons hb hbs⟩
              rw [← hab.prevHash, ← hab'.prevHash, hb.header]
      exact .cons (sameButSignatures_of_hash_eq hfree ha ha' hs hs' hrest.1) hrest.2

end Block

namespace Ledger

/-- What is hashed for the names of the blocks of a ledger, those of their transactions, and the roots
of these. -/
def messages (l : Ledger) : List Bytes := l.blocks.flatMap Block.messages

variable {l l' : Ledger} {genesis genesis' : UInt32}

theorem tip_mem_blocks (l : Ledger) : l.tip ∈ l.blocks :=
  List.mem_append_right _ (List.mem_singleton_self _)

theorem Consistent.readable (h : l.Consistent genesis) {b : Block} (hb : b ∈ l.blocks)
    {t : Transaction} (ht : t ∈ b.transactions) : Record.unsigned.Readable t.unsigned := by
  have hmem : Except.ok t ∈ l.submitted.map (Transaction.format {}).decode := by
    rw [h.taken]
    exact List.mem_map_of_mem (List.mem_append_left _ (List.mem_flatMap.2 ⟨b, hb, ht⟩))
  obtain ⟨raw, -, hraw⟩ := List.mem_map.1 hmem
  exact (Transaction.Obtained.read (Format.decode_eq_ok_iff.1 hraw)).readable

theorem Consistent.held (h : l.Consistent genesis) {b : Block} (hb : b ∈ l.blocks) : b.Held := by
  have hreadable : ∀ t ∈ b.transactions, Record.unsigned.Readable t.unsigned :=
    fun t ht => h.readable hb ht
  obtain ⟨i, hi, rfl⟩ := List.getElem_of_mem hb
  cases i with
  | zero =>
    have hfirst : l.blocks[0] = .genesis genesis := by
      have hhead := h.first
      rw [List.head?_eq_getElem?, List.getElem?_eq_getElem hi] at hhead
      exact Option.some.inj hhead
    rw [hfirst] at hreadable ⊢
    exact ⟨rfl, rfl, ⟨rfl, rfl⟩, hreadable⟩
  | succ i =>
    have hnext : Block.Next l.blocks[i] l.blocks[i + 1] := h.linked.getElem i hi
    exact ⟨hnext.transactionsRoot, hnext.consensus, hnext.unsigned, hreadable⟩

theorem Consistent.held_messages (h : l.Consistent genesis) {messages : List Bytes}
    (hs : l.messages ⊆ messages) : ∀ b ∈ l.blocks, b.Held ∧ b.messages ⊆ messages := by
  intro b hb
  refine ⟨h.held hb, fun m hm => hs ?_⟩
  exact List.mem_flatMap.2 ⟨b, hb, hm⟩

/-- The number of blocks is in the header of the tip, so it is determined by the name of the tip. -/
theorem Consistent.height_eq {messages : List Bytes} (hfree : CollisionFree messages)
    (h : l.Consistent genesis) (h' : l'.Consistent genesis') (hs : l.messages ⊆ messages)
    (hs' : l'.messages ⊆ messages) (htip : l.tip.hash = l'.tip.hash) :
    l.tip.height = l'.tip.height := by
  obtain ⟨hheld, hmessages⟩ := h.held_messages hs l.tip l.tip_mem_blocks
  obtain ⟨hheld', hmessages'⟩ := h'.held_messages hs' l'.tip l'.tip_mem_blocks
  have hsame := Block.sameButSignatures_of_hash_eq hfree hheld hheld' hmessages hmessages' htip
  exact congrArg (·.height) hsame.header

/-- **A name commits to a history.** After any two histories, ledgers whose tips have one name have
one height, and block by block the same headers and unsigned transactions. -/
theorem tip_commits (genesis genesis' : UInt32) (moves moves' : List Move) (l l' : Ledger)
    (hl : (new genesis).after moves = .ok l) (hl' : (new genesis').after moves' = .ok l')
    (hfree : CollisionFree (l.messages ++ l'.messages)) (htip : l.tip.hash = l'.tip.hash) :
    l.tip.height = l'.tip.height ∧ List.Forall₂ Block.SameButSignatures l.blocks l'.blocks := by
  have h : l.Consistent genesis := (consistent_new genesis).after hl
  have h' : l'.Consistent genesis' := (consistent_new genesis').after hl'
  have hs : l.messages ⊆ l.messages ++ l'.messages := List.subset_append_left _ _
  have hs' : l'.messages ⊆ l.messages ++ l'.messages := List.subset_append_right _ _
  have hheight : l.tip.height = l'.tip.height := h.height_eq hfree h' hs hs' htip
  have hearlier : l.earlier.length = l'.earlier.length := by
    rw [← h.toNat_height_tip, ← h'.toNat_height_tip, hheight]
  refine ⟨hheight, ?_⟩
  apply Block.forall₂_of_linked hfree h.linked h'.linked (h.held_messages hs) (h'.held_messages hs')
  · simp only [blocks, List.length_append, List.length_singleton, hearlier]
  · simp only [blocks, List.getLast?_concat, Option.map_some, htip]

/-- Some transactions are sent and sealed. -/
def sealedMoves (ts : List Transaction) : List Move :=
  ts.map (fun t => .call (.sendRawTransaction t.encode)) ++ [.sealBlock]

/-- They are sent, a call stays without an answer, and a query for another one seals them. -/
def queriedMoves (ts : List Transaction) : List Move :=
  ts.map (fun t => .call (.sendRawTransaction t.encode)) ++
    [.turn .hang true, .call .currentHeight, .turn .hang false, .turn .autoSeal true,
      .call (.transactionHeight .zero)]

/-- The sample transactions without signatures. -/
def samplePlain : List Transaction := sampleRead.map fun t => ⟨t.unsigned, []⟩

/-- The same transactions, once with a signature and once without any, are sealed under one name. -/
theorem tip_commits_sample :
    ∃ l l', (new 5).after (sealedMoves sampleRead) = .ok l ∧
      (new 5).after (queriedMoves samplePlain) = .ok l' ∧
      CollisionFree (l.messages ++ l'.messages) ∧ l.tip.hash = l'.tip.hash ∧ l.tip ≠ l'.tip ∧
      l.tip.height = l'.tip.height ∧ List.Forall₂ Block.SameButSignatures l.blocks l'.blocks := by
  have hsame : ((new 5).after (sealedMoves sampleRead)).map (fun l => (l.tip.hash, l.messages)) =
      ((new 5).after (queriedMoves samplePlain)).map fun l => (l.tip.hash, l.messages) := rfl
  have hsigned : ((new 5).after (sealedMoves sampleRead)).map (·.tip.transactions) =
      .ok sampleRead := rfl
  have hplain : ((new 5).after (queriedMoves samplePlain)).map
      (fun l => (l.tip.transactions, decide (CollisionFree l.messages))) =
      .ok (samplePlain, true) := by decide +kernel
  obtain ⟨l, hl, hts⟩ := map_eq_ok_iff.1 hsigned
  obtain ⟨l', hl', hplain⟩ := map_eq_ok_iff.1 hplain
  rw [hl, hl'] at hsame
  obtain ⟨htip, hmessages⟩ := Prod.mk.inj (Except.ok.inj hsame)
  obtain ⟨hts', hdecide⟩ := Prod.mk.inj hplain
  have hfree : CollisionFree (l.messages ++ l'.messages) := by
    apply (of_decide_eq_true hdecide).mono
    rw [hmessages]
    exact List.append_subset.2 ⟨List.Subset.refl _, List.Subset.refl _⟩
  have hapart : l.tip ≠ l'.tip := by
    intro h
    rw [h, hts'] at hts
    cases hts
  exact ⟨l, l', hl, hl', hfree, htip, hapart, tip_commits 5 5 _ _ l l' hl hl' hfree htip⟩

end Ledger

end ChainGovernance
