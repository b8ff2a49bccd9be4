import ChainGovernance.Emergency.Request

/-!
What a node checks before it follows an emergency request.

The proposal has to match its block, the proposer to have signed the block, every group of admins
the proposal, and the requester the petition. The first check that fails is the answer.
-/

namespace ChainGovernance.Emergency

/-- Who may ask for an override. -/
structure Policy where
  admins : SignerSet
  /-- Whether the requester has to be an admin as well. -/
  adminRequester : Bool := false

namespace Policy

/-- The first group that does not stand for the admins and the message. -/
def checkGroups (valid : PublicKey → Bytes → Signature → Bool) (admins : SignerSet)
    (message : Bytes) : List Aggregate → Except Error Unit
  | [] => .ok ()
  | group :: groups => do
    group.verifyWith valid .quorum admins message
    checkGroups valid admins message groups

/-- Checks a request, when `valid` says which signatures are valid. -/
def checkWith (valid : PublicKey → Bytes → Signature → Bool) (p : Policy) (r : Request) :
    Except Error Unit :=
  let proposal := r.proposal
  let block := proposal.block
  let root := transactionsRoot block.transactions
  if proposal.height ≠ block.height then
    .error (.proposalHeight proposal.height block.height)
  else if block.header.transactionsRoot ≠ root then
    .error (.transactionsRoot block.header.transactionsRoot root)
  else if !valid proposal.proposer block.hash.toBytes proposal.signature then
    .error (.invalidSignature .proposer proposal.proposer)
  else if r.groups.isEmpty then .error .missingAdminSignatures
  else do
    checkGroups valid p.admins proposal.encode r.groups
    if !valid r.requester r.digest.toBytes r.requesterSignature then
      throw (.invalidSignature .requester r.requester)
    else if p.adminRequester && !p.admins.contains r.requester then
      throw (.unauthorizedRequester r.requester)
    else pure ()

def check (p : Policy) (r : Request) : Except Error Unit := p.checkWith PublicKey.verify r

end Policy

end ChainGovernance.Emergency
