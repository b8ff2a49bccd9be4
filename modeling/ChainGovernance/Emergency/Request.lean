import ChainGovernance.Block
import ChainGovernance.Emergency.Code

/-!
Emergency requests: that the network accept a candidate block outside of consensus.

The proposer signs the name of the block, a quorum of the admins signs the proposal with that
signature, and the requester signs all of it but the own signature.
-/

namespace ChainGovernance.Emergency

open Wire (Format LengthRange)

/-- A candidate block with its proposer's signature, and why it is proposed. -/
structure Proposal where
  reason : Reason
  evidence : Evidence
  /-- The height that is claimed for the block. -/
  height : UInt32
  block : Block
  proposer : PublicKey
  signature : Signature
deriving DecidableEq

/-- What the requester signs: a proposal, with what the admins have signed. -/
structure Petition where
  proposal : Proposal
  groups : List Aggregate
  requester : PublicKey
deriving DecidableEq

/-- A petition with the requester's signature. -/
structure Request extends Petition where
  requesterSignature : Signature
deriving DecidableEq

def Reason.format : Format Reason :=
  Format.uint8.refine
    (fun code =>
      match ofCode? code with
      | some r => .ok r
      | none => .error (.invalidTag "Reason" code))
    code

def Evidence.format : Format Evidence :=
  Format.uint8.refine
    (fun code =>
      match ofCode? code with
      | some e => .ok e
      | none => .error (.invalidTag "Evidence" code))
    code

namespace Proposal

def format (limits : Limits) : Format Proposal :=
  (Reason.format.seq
    (Evidence.format.seq
      (Format.uint32.seq
        ((Block.format limits).seq
          (PublicKey.sizedFormat.seq Signature.sizedFormat))))).iso
    (fun (reason, evidence, height, block, proposer, signature) =>
      ⟨reason, evidence, height, block, proposer, signature⟩)
    (fun p => (p.reason, p.evidence, p.height, p.block, p.proposer, p.signature))

/-- The message that the admins sign. -/
def encode (p : Proposal) : Bytes := (format {}).write p

end Proposal

namespace Petition

def format (limits : Limits) : Format Petition :=
  ((Proposal.format limits).seq
    ((Format.list (LengthRange.upTo limits.maxGroups) (Aggregate.format limits)).seq
      PublicKey.sizedFormat)).iso
    (fun v => ⟨v.1, v.2.1, v.2.2⟩) (fun p => (p.proposal, p.groups, p.requester))

/-- The message that the requester signs. -/
def digest (p : Petition) : Digest := doubleHash ((format {}).write p)

end Petition

namespace Request

def format (limits : Limits) : Format Request :=
  ((Petition.format limits).seq Signature.sizedFormat).iso
    (fun v => ⟨v.1, v.2⟩) (fun r => (r.toPetition, r.requesterSignature))

def encode (r : Request) : Bytes := (format {}).write r

/-- The message that the requester signed. -/
def digest (r : Request) : Digest := r.toPetition.digest

end Request

end ChainGovernance.Emergency
