import ChainGovernance.Candidate
import ChainGovernance.Draft
import ChainGovernance.Emergency.Ceremony
import ChainGovernance.Node.Waiting
import ChainGovernance.Registry

/-!
Operators: who governs a network through one of its nodes.

An operator signs the actions of a registry on behalf of a set of signers, submits them and waits
until they are confirmed, asks whom the governance contract has black-listed, and makes emergency
requests for the tip of the chain.
-/

namespace ChainGovernance

open Emergency (Evidence Reason Request)

structure Operator where
  registry : Registry
  settings : Settings := {}

namespace Operator

variable {σ : Type}

/-- The draft of an action, to be paid for by a set of signers. -/
def draft (o : Operator) (action : Action) (params : List Param) (set : SignerSet) : Draft where
  contract := action.contract.text
  method := action.method
  payer := set.address
  params := params
  version := o.settings.version
  gasPrice := o.settings.gasPrice
  gasLimit := action.gasLimit

/-- Builds an action at an instant, and has it signed. -/
def signAt (o : Operator) (now : Instant) (name : String) (params : List Param)
    (set : SignerSet) (wallets : List Wallet) : Except Error Transaction := do
  let action ← o.registry.find name
  let unsigned ← (o.draft action params set).build now
  unsigned.sign set wallets

/-- Builds an action, and has it signed. -/
def sign (o : Operator) (name : String) (params : List Param) (set : SignerSet)
    (wallets : List Wallet) : Client σ Transaction := do
  Client.ofExcept (o.signAt (← Client.now) name params set wallets)

/-- Submits a transaction. The node has to give it the same name. -/
def submit (o : Operator) (node : Node σ) (t : Transaction) : Client σ Digest := do
  let reported : Digest ←
    Client.call node o.settings.rpcTimeout (.sendRawTransaction t.encode)
  if reported ≠ t.hash then throw (.hashMismatch t.hash reported) else pure reported

/-- Signs and submits an action, and waits until it is confirmed. -/
def invoke (o : Operator) (node : Node σ) (name : String) (params : List Param)
    (set : SignerSet) (wallets : List Wallet) : Client σ Digest := do
  let t ← o.sign name params set wallets
  let reported ← o.submit node t
  let _ ← Client.waitForTransaction node o.settings reported
  pure reported

/-- The key under which the governance contract keeps a black-listed peer. -/
def blacklistKey (peer : PublicKey) : Bytes := Text.utf8 "blackList" ++ peer.toBytes

/-- Whether the governance contract has black-listed a peer. -/
def isBlacklisted (o : Operator) (node : Node σ) (peer : PublicKey) : Client σ Bool := do
  let value : Option Bytes ←
    Client.call node o.settings.rpcTimeout (.storage .governance (blacklistKey peer))
  pure value.isSome

/-- The timestamp of candidate blocks at an instant: its seconds, as far as 32 bits hold them. -/
def timestampAt (now : Instant) : UInt32 := UInt32.ofNat (min now.epochSecs 0xFFFFFFFF)

/-- Makes an emergency request for a candidate block with some transactions. -/
def requestOverride (o : Operator) (node : Node σ) (reason : Reason) (evidence : Evidence)
    (transactions : List Transaction) (consensus : Consensus) (proposer : Wallet)
    (admins : SignerSet) (wallets : List Wallet) (requester : Wallet) : Client σ Request := do
  let timestamp := timestampAt (← Client.now)
  let block ← Client.assemble node o.settings.rpcTimeout 0 transactions timestamp consensus
  let ceremony := Emergency.Ceremony.new reason evidence block
  Client.ofExcept (ceremony.run proposer admins wallets requester)

end Operator

end ChainGovernance
