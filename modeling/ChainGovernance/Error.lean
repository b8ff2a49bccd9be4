import ChainGovernance.Emergency.Phase
import ChainGovernance.Node.Operation
import ChainGovernance.Param
import ChainGovernance.Stage
import ChainGovernance.Time

/-!
Why a governance payload could not be built, signed, submitted or accepted.

Wallets are asked one after the other, so there is no error for threads that could not be had to ask
them at the same time.
-/

namespace ChainGovernance

/-- Why a method cannot be invoked. -/
inductive MethodFault
  | empty
  | tooLong (length max : Nat)
deriving DecidableEq

def MethodFault.message : MethodFault → String
  | empty => "method name is empty"
  | tooLong length max =>
    "method name is " ++ toString length ++ " bytes (max " ++ toString max ++ ")"

/-- Why a parameter cannot be passed. -/
inductive ParamFault
  | encoding (fault : Param.Fault)
  | tooLarge (size max : Nat)
  /-- There is room for `max` parameters only. -/
  | tooMany (max : Nat)
deriving DecidableEq

def ParamFault.message : ParamFault → String
  | encoding fault => fault.message
  | tooLarge size max =>
    "encoded to " ++ toString size ++ " bytes (max " ++ toString max ++ ")"
  | tooMany max => "too many parameters (max " ++ toString max ++ ")"

/-- Why a block cannot be extended. -/
inductive TipFault
  | heightExhausted
  | timestampExhausted
deriving DecidableEq

def TipFault.message : TipFault → String
  | heightExhausted => "height exhausted"
  | timestampExhausted => "timestamp exhausted"

/-- The largest number of keys in a set of signers. -/
def maxSigners : Nat := 1024

/-- Why something was not done. -/
inductive Error
  -- building
  | address (fault : Address.Fault)
  | parameter (index : Nat) (fault : ParamFault)
  | method (fault : MethodFault)
  | unknownAction (name : String)
  -- sets of signers
  | emptySignerSet
  | tooManySigners (count : Nat)
  | invalidThreshold (threshold : UInt16) (signers : Nat)
  | duplicateSigner (signer : PublicKey)
  -- signing
  | signing (stage : Stage) (signer : PublicKey) (cause : CryptoError)
  | unknownSigner (stage : Stage) (signer : PublicKey)
  | quorumUnmet (stage : Stage) (got need : Nat)
  | outOfOrder (expected found : Emergency.Phase)
  -- nodes
  | remoteUnavailable (operation : Node.Operation) (reason : String)
  | timeout (operation : Node.Operation) (duration : Nat)
  | staleTip (expected found : UInt32)
  | invalidTip (height : UInt32) (fault : TipFault)
  | hashMismatch (reckoned reported : Digest)
  -- checking
  | invalidSignature (stage : Stage) (signer : PublicKey)
  | thresholdMismatch (expected found : UInt16)
  | proposalHeight (proposal block : UInt32)
  | transactionsRoot (expected found : Digest)
  | missingAdminSignatures
  | unauthorizedRequester (requester : PublicKey)
deriving DecidableEq

namespace Error

def message : Error → String
  | address fault => "invalid address: " ++ fault.message
  | parameter index fault =>
    "invalid parameter " ++ toString index ++ ": " ++ fault.message
  | method fault => "invalid method: " ++ fault.message
  | unknownAction name => "unknown action: " ++ name
  | emptySignerSet => "signer set is empty"
  | tooManySigners count =>
    "signer set has " ++ toString count ++ " keys (max " ++ toString maxSigners ++ ")"
  | invalidThreshold threshold signers =>
    "invalid threshold " ++ toString threshold.toNat ++ " for " ++ toString signers ++ " signers"
  | duplicateSigner signer => "duplicate signer " ++ Hex.encode signer.toBytes
  | signing stage signer cause =>
    stage.name ++ " signer " ++ Hex.encode signer.toBytes ++ " failed: " ++ cause.message
  | unknownSigner stage signer =>
    stage.name ++ " signer " ++ Hex.encode signer.toBytes ++ " is not in the signer set"
  | quorumUnmet stage got need =>
    stage.name ++ " quorum unmet: got " ++ toString got ++ ", need " ++ toString need
  | outOfOrder expected found =>
    "out of order: expected " ++ expected.name ++ ", found " ++ found.name
  | remoteUnavailable operation reason => operation.name ++ " unavailable: " ++ reason
  | timeout operation duration =>
    operation.name ++ " timed out after " ++ Text.duration duration
  | staleTip expected found =>
    "stale tip: expected height " ++ toString expected.toNat ++ ", found " ++
      toString found.toNat
  | invalidTip height fault =>
    "invalid tip at height " ++ toString height.toNat ++ ": " ++ fault.message
  | hashMismatch reckoned reported =>
    "node reported hash " ++ Hex.encode reported.toBytes ++ " for transaction " ++
      Hex.encode reckoned.toBytes
  | invalidSignature stage signer =>
    stage.name ++ " signature from " ++ Hex.encode signer.toBytes ++ " is invalid"
  | thresholdMismatch expected found =>
    "threshold mismatch: signature carries " ++ toString found.toNat ++ ", set requires " ++
      toString expected.toNat
  | proposalHeight proposal block =>
    "proposal height " ++ toString proposal.toNat ++ " does not match block height " ++
      toString block.toNat
  | transactionsRoot expected found =>
    "transactions root mismatch: header has " ++ Hex.encode expected.toBytes ++
      ", transactions hash to " ++ Hex.encode found.toBytes
  | missingAdminSignatures => "request carries no admin signatures"
  | unauthorizedRequester requester =>
    "requester " ++ Hex.encode requester.toBytes ++ " is not an admin"

/-- Whether the same may be tried again: the node did not answer as it should, or the chain moved
on meanwhile. -/
def isRetryable : Error → Bool
  | remoteUnavailable .. | timeout .. | staleTip .. => true
  | _ => false

/-- The stage of signing that an error belongs to. -/
def stage? : Error → Option Stage
  | signing stage .. | unknownSigner stage _ | quorumUnmet stage .. | invalidSignature stage _ =>
    some stage
  | _ => none

end Error

end ChainGovernance
