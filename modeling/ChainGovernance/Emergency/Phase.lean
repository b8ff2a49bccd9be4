/-!
How far the making of an emergency request has come.
-/

namespace ChainGovernance.Emergency

/-- The phases, in the order in which they are passed through. -/
inductive Phase
  /-- There is a candidate block, and nobody has signed. -/
  | built
  /-- The proposer has signed the hash of the block. -/
  | proposerSigned
  /-- At least one quorum of admins has signed the proposal. -/
  | quorumSigned
  /-- The requester has signed, and the request is made. -/
  | finalized
  /-- A signer failed, and no request will be made. -/
  | aborted
deriving DecidableEq

def Phase.name : Phase → String
  | built => "built"
  | proposerSigned => "proposer_signed"
  | quorumSigned => "quorum_signed"
  | finalized => "finalized"
  | aborted => "aborted"

end ChainGovernance.Emergency
