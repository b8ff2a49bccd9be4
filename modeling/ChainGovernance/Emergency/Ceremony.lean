import ChainGovernance.Emergency.Request

/-!
Ceremonies, in which emergency requests are made.

A ceremony starts with a candidate block. The proposer signs, then quorums of admins, then the
requester, in this order; a call at any other phase fails and changes nothing. A wallet that
refuses to sign ends the ceremony, and every later call fails.
-/

namespace ChainGovernance.Emergency

/-- A ceremony. The block goes into the proposal, and the proposal and the groups go into the
request. -/
structure Ceremony where
  phase : Phase
  reason : Reason
  evidence : Evidence
  block : Option Block
  proposal : Option Proposal
  groups : List Aggregate

namespace Ceremony

/-- The start of a ceremony for a candidate block. -/
def new (reason : Reason) (evidence : Evidence) (block : Block) : Ceremony :=
  ⟨.built, reason, evidence, some block, none, []⟩

/-- The ceremony after an error. Only a wallet that refused to sign ends it. -/
def abort (c : Ceremony) : Error → Ceremony
  | .signing .. => { c with phase := .aborted, block := none, proposal := none, groups := [] }
  | _ => c

/-- A call that fails at the phase of the ceremony, because it belongs to `expected`. -/
def outOfOrder {α : Type} (c : Ceremony) (expected : Phase) : Except Error α × Ceremony :=
  (.error (.outOfOrder expected c.phase), c)

/-- Has the proposer sign the name of the block. -/
def signProposer (c : Ceremony) (proposer : Wallet) : Except Error Unit × Ceremony :=
  match c.phase, c.block with
  | .built, some block =>
    match Aggregate.ask .proposer block.hash.toBytes proposer with
    | .error e => (.error e, c.abort e)
    | .ok (key, signature) =>
      (.ok (), { c with
        phase := .proposerSigned
        block := none
        proposal := some ⟨c.reason, c.evidence, block.height, block, key, signature⟩ })
  | _, _ => c.outOfOrder .built

/-- Has the wallets of some admins sign the proposal, which makes one more group. -/
def signQuorum (c : Ceremony) (admins : SignerSet) (wallets : List Wallet) :
    Except Error Unit × Ceremony :=
  if c.phase = .proposerSigned ∨ c.phase = .quorumSigned then
    match c.proposal with
    | some proposal =>
      match Aggregate.collect .quorum admins wallets proposal.encode with
      | .error e => (.error e, c.abort e)
      | .ok group => (.ok (), { c with phase := .quorumSigned, groups := c.groups ++ [group] })
    | none => c.outOfOrder .proposerSigned
  else c.outOfOrder .proposerSigned

/-- Has the requester sign what was collected, and hands out the request. -/
def finalize (c : Ceremony) (requester : Wallet) : Except Error Request × Ceremony :=
  match c.phase, c.proposal with
  | .quorumSigned, some proposal =>
    let petition : Petition := ⟨proposal, c.groups, requester.publicKey⟩
    match Aggregate.ask .requester petition.digest.toBytes requester with
    | .error e => (.error e, c.abort e)
    | .ok (_, signature) =>
      (.ok ⟨petition, signature⟩,
        { c with phase := .finalized, proposal := none, groups := [] })
  | _, _ => c.outOfOrder .quorumSigned

/-- Goes through all phases, with one group of admins. -/
def run (c : Ceremony) (proposer : Wallet) (admins : SignerSet) (wallets : List Wallet)
    (requester : Wallet) : Except Error Request :=
  match c.signProposer proposer with
  | (.error e, _) => .error e
  | (.ok _, c) =>
    match c.signQuorum admins wallets with
    | (.error e, _) => .error e
    | (.ok _, c) => (c.finalize requester).1

end Ceremony

end ChainGovernance.Emergency
