/-!
The stages at which signatures are collected.
-/

namespace ChainGovernance

/-- What is being signed. -/
inductive Stage
  /-- The hash of a transaction, by the signers that pay for it. -/
  | transaction
  /-- The hash of a candidate block, by its proposer. -/
  | proposer
  /-- A proposal, by a quorum of the admins. -/
  | quorum
  /-- A whole request, by its requester. -/
  | requester
deriving DecidableEq

def Stage.name : Stage → String
  | transaction => "transaction"
  | proposer => "proposer"
  | quorum => "quorum"
  | requester => "requester"

end ChainGovernance
