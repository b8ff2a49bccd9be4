import ChainGovernance.Limits
import ChainGovernance.SignerSet
import ChainGovernance.Wallet

/-!
Aggregate signatures: what several signers of a set gave for one message.

`collect` asks wallets for their signatures, after it has made sure that they are different
members of the set and enough of them. `verify` checks that an aggregate stands for the set: its
threshold, each pair in turn, and then their number.
-/

namespace ChainGovernance

open Wire (Format LengthRange)

/-- The signatures of several keys over one message, in the order in which they were given. -/
structure Aggregate where
  /-- The number of signatures that the set asks for. -/
  threshold : UInt16
  pairs : List (PublicKey × Signature) := []
deriving DecidableEq

namespace Aggregate

def push (a : Aggregate) (key : PublicKey) (signature : Signature) : Aggregate :=
  { a with pairs := a.pairs ++ [(key, signature)] }

def size (a : Aggregate) : Nat := a.pairs.length

/-- How aggregates are written and read: the threshold, the keys, and the signatures. -/
def format (limits : Limits) : Format Aggregate :=
  (Format.uint16.seq
    (Format.columns (LengthRange.upTo limits.maxSigners)
      (.invalid "AggregateSignature" "key and signature counts differ")
      PublicKey.sizedFormat Signature.sizedFormat)).iso
    (fun v => ⟨v.1, v.2⟩) (fun a => (a.threshold, a.pairs))

/-! ### Checking -/

/-- The first fault among pairs that follow those with keys `seen`. A pair is at fault if its key is
no member of the set, or came before, or if `valid` denies its signature. -/
def pairsFault? (valid : PublicKey → Bytes → Signature → Bool) (stage : Stage) (set : SignerSet)
    (message : Bytes) (seen : List PublicKey) : List (PublicKey × Signature) → Option Error
  | [] => none
  | (key, signature) :: pairs =>
    if !set.contains key then some (.unknownSigner stage key)
    else if key ∈ seen then some (.duplicateSigner key)
    else if !valid key message signature then some (.invalidSignature stage key)
    else pairsFault? valid stage set message (key :: seen) pairs

/-- Whether an aggregate stands for a set and a message, when `valid` says which signatures are
valid. -/
def verifyWith (valid : PublicKey → Bytes → Signature → Bool) (a : Aggregate) (stage : Stage)
    (set : SignerSet) (message : Bytes) : Except Error Unit :=
  if a.threshold ≠ set.threshold then .error (.thresholdMismatch set.threshold a.threshold)
  else
    match pairsFault? valid stage set message [] a.pairs with
    | some e => .error e
    | none =>
      if a.size < a.threshold.toNat then
        .error (.quorumUnmet stage a.size a.threshold.toNat)
      else .ok ()

def verify (a : Aggregate) (stage : Stage) (set : SignerSet) (message : Bytes) :
    Except Error Unit :=
  a.verifyWith PublicKey.verify stage set message

/-! ### Collecting -/

/-- The first fault among keys that follow the keys `seen`: no member of the set, or one that came
before. -/
def signersFault? (stage : Stage) (set : SignerSet) (seen : List PublicKey) :
    List PublicKey → Option Error
  | [] => none
  | key :: keys =>
    if !set.contains key then some (.unknownSigner stage key)
    else if key ∈ seen then some (.duplicateSigner key)
    else signersFault? stage set (key :: seen) keys

/-- Asks a wallet to sign. -/
def ask (stage : Stage) (message : Bytes) (wallet : Wallet) :
    Except Error (PublicKey × Signature) :=
  match wallet.sign message with
  | .ok signature => .ok (wallet.publicKey, signature)
  | .error cause => .error (.signing stage wallet.publicKey cause)

/-- Has every wallet sign, in order, one after the other. Nobody is asked unless all of them are
different members of the set, and enough; if one refuses, there is no aggregate. Wallets that are asked
at the same time give the same aggregate or none; only which refusal is reported may then differ. -/
def collect (stage : Stage) (set : SignerSet) (wallets : List Wallet) (message : Bytes) :
    Except Error Aggregate :=
  match signersFault? stage set [] (wallets.map (·.publicKey)) with
  | some e => .error e
  | none =>
    if wallets.length < set.threshold.toNat then
      .error (.quorumUnmet stage wallets.length set.threshold.toNat)
    else do
      let pairs ← wallets.mapM (ask stage message)
      pure ⟨set.threshold, pairs⟩

end Aggregate

end ChainGovernance
