import ChainGovernance.Emergency.Request

/-!
How many bytes are written for a record.

The size of a record is announced before the record is written, so that there is room for it. It is
summed from constants and from the lengths inside the record: keys and signatures count by how many there
are, and what several records share has one sum. `encode?` gives the bytes of a value only if they are as
many as announced; that it always does so is what the sums are for.
-/

namespace ChainGovernance

open Wire

namespace Wire

/-! ### Parts of records -/

/-- The size of a length in front of something. -/
def lengthSize (n : Nat) : Nat := Compact.size (UInt64.ofNat n)

/-- The size of a byte string with its length in front. -/
def bytesSize (b : Bytes) : Nat := lengthSize b.length + b.length

/-- The size of values of `n` bytes each, with that number in front. -/
def sizedSize (n : Nat) : Nat := lengthSize n + n

/-- The sizes of values in a row. -/
def timesSize {α : Type} (size : α → Nat) (vs : List α) : Nat :=
  vs.foldr (fun v n => size v + n) 0

/-- The size of a list with its length in front. -/
def listSize {α : Type} (size : α → Nat) (vs : List α) : Nat :=
  lengthSize vs.length + timesSize size vs

namespace Format

variable {α : Type}

/-- A format whose sizes are announced by a function of their own. -/
def announcing (f : Format α) (size : α → Nat) : Format α := { f with size := size }

/-- The bytes of a value. It is a fault of the format if they are not as many as announced, and then
there are none. -/
def encode? (f : Format α) (v : α) : Option Bytes :=
  let b := f.write v
  if b.length = f.size v then some b else none

end Format

end Wire

/-! ### Transactions -/

def Invocation.byteSize (i : Invocation) : Nat :=
  20 + lengthSize (Text.utf8 i.method).length + (Text.utf8 i.method).length +
    listSize bytesSize i.params

def UnsignedTransaction.byteSize (t : UnsignedTransaction) : Nat :=
  1 + 1 + 4 + 8 + 8 + 20 + t.invocation.byteSize + Compact.size 0

def Aggregate.byteSize (a : Aggregate) : Nat :=
  2 + lengthSize a.size + a.size * sizedSize 32 + lengthSize a.size + a.size * sizedSize 64

def Transaction.byteSize (t : Transaction) : Nat :=
  t.unsigned.byteSize + listSize Aggregate.byteSize t.signatures

/-! ### Blocks -/

/-- The size of what names a block. -/
def HeaderFront.byteSize (h : HeaderFront) : Nat :=
  4 + 32 * 3 + 4 + 4 + 8 + bytesSize h.consensus.payload + 20

def Header.byteSize (h : Header) : Nat :=
  h.toHeaderFront.byteSize + lengthSize h.bookkeepers.length +
    h.bookkeepers.length * sizedSize 32 + listSize bytesSize h.signatures

/-- The number of transactions takes four bytes. -/
def Block.byteSize (b : Block) : Nat :=
  b.header.byteSize + 4 + timesSize Transaction.byteSize b.transactions

/-! ### Emergency requests -/

namespace Emergency

def Proposal.byteSize (p : Proposal) : Nat :=
  1 + 1 + 4 + p.block.byteSize + sizedSize 32 + sizedSize 64

/-- The size of what the requester signs. -/
def Petition.byteSize (p : Petition) : Nat :=
  p.proposal.byteSize + lengthSize p.groups.length + timesSize Aggregate.byteSize p.groups +
    sizedSize 32

def Request.byteSize (r : Request) : Nat := r.toPetition.byteSize + sizedSize 64

end Emergency

end ChainGovernance
