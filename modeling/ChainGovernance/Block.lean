import ChainGovernance.Merkle
import ChainGovernance.Transaction

/-!
Blocks.

A block is named by the double hash of the front of its header. The bookkeepers' keys and
signatures follow that front, and the transactions come in through their root.
-/

namespace ChainGovernance

open Wire (Format LengthRange)

/-- The last block that a chain agreed on. -/
structure Tip where
  height : UInt32
  hash : Digest
  timestamp : UInt32
deriving DecidableEq

/-- What consensus adds to a header. -/
structure Consensus where
  payload : Bytes := []
  nonce : UInt64 := 0
  /-- Who is to produce the next block. -/
  nextBookkeeper : Address := .zero
deriving DecidableEq

/-- The front of a header, from which the name of the block is made. -/
structure HeaderFront where
  version : UInt32
  prevHash : Digest
  transactionsRoot : Digest
  /-- The root of the chain, after the transactions of this block. -/
  blockRoot : Digest
  timestamp : UInt32
  height : UInt32
  consensus : Consensus
deriving DecidableEq

structure Header extends HeaderFront where
  bookkeepers : List PublicKey := []
  signatures : List Bytes := []
deriving DecidableEq

structure Block where
  header : Header
  transactions : List Transaction
deriving DecidableEq

namespace HeaderFront

def format (limits : Limits) : Format HeaderFront :=
  (Format.uint32.seq
    (Digest.format.seq
      (Digest.format.seq
        (Digest.format.seq
          (Format.uint32.seq
            (Format.uint32.seq
              (Format.uint64.seq
                ((Format.bytes (LengthRange.upTo limits.maxPayload)).seq
                  Address.format)))))))).iso
    (fun (version, prevHash, transactionsRoot, blockRoot, timestamp, height, nonce, payload,
        nextBookkeeper) =>
      ⟨version, prevHash, transactionsRoot, blockRoot, timestamp, height,
        ⟨payload, nonce, nextBookkeeper⟩⟩)
    (fun h => (h.version, h.prevHash, h.transactionsRoot, h.blockRoot, h.timestamp, h.height,
      h.consensus.nonce, h.consensus.payload, h.consensus.nextBookkeeper))

/-- The bytes that name a block. -/
def encode (h : HeaderFront) : Bytes := (format {}).write h

/-- The name of a block. Like that of a transaction, it is reckoned and not held. -/
def hash (h : HeaderFront) : Digest := doubleHash h.encode

end HeaderFront

namespace Header

def format (limits : Limits) : Format Header :=
  ((HeaderFront.format limits).seq
    ((Format.list (LengthRange.upTo limits.maxSigners) PublicKey.sizedFormat).seq
      (Format.list (LengthRange.upTo limits.maxSigners)
        (Format.bytes (LengthRange.upTo limits.maxParamSize))))).iso
    (fun v => ⟨v.1, v.2.1, v.2.2⟩) (fun h => (h.toHeaderFront, h.bookkeepers, h.signatures))

def hash (h : Header) : Digest := h.toHeaderFront.hash

def tip (h : Header) : Tip := ⟨h.height, h.hash, h.timestamp⟩

end Header

/-- The root over the names of transactions. -/
def transactionsRoot (transactions : List Transaction) : Digest :=
  Merkle.root (transactions.map Transaction.hash)

namespace Block

def format (limits : Limits) : Format Block :=
  ((Header.format limits).seq
    (Format.list32 (LengthRange.upTo limits.maxTransactions) (Transaction.format limits))).iso
    (fun v => ⟨v.1, v.2⟩) (fun b => (b.header, b.transactions))

def height (b : Block) : UInt32 := b.header.height

def hash (b : Block) : Digest := b.header.hash

def tip (b : Block) : Tip := b.header.tip

/-- A block without a predecessor. -/
def genesis (timestamp : UInt32) : Block where
  header := {
    version := 0
    prevHash := .zero
    transactionsRoot := Merkle.root []
    blockRoot := .zero
    timestamp := timestamp
    height := 0
    consensus := {} }
  transactions := []

/-- The height after a height, if there is one. -/
def successor? (n : UInt32) : Option UInt32 := if n = 0xFFFFFFFF then none else some (n + 1)

/-- The timestamp of a block after one with timestamp `last`: the wanted one if it is later, or else
the next, if there is one. -/
def timestampAfter? (last wanted : UInt32) : Option UInt32 :=
  if last < wanted then some wanted else successor? last

/-- The block that follows a tip. -/
def extend (tip : Tip) (version timestamp : UInt32) (blockRoot : Digest) (consensus : Consensus)
    (transactions : List Transaction) : Except Error Block :=
  match successor? tip.height, timestampAfter? tip.timestamp timestamp with
  | none, _ => .error (.invalidTip tip.height .heightExhausted)
  | _, none => .error (.invalidTip tip.height .timestampExhausted)
  | some height, some timestamp =>
    .ok {
      header := {
        version := version
        prevHash := tip.hash
        transactionsRoot := transactionsRoot transactions
        blockRoot := blockRoot
        timestamp := timestamp
        height := height
        consensus := consensus }
      transactions := transactions }

end Block

end ChainGovernance
