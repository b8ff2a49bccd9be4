/-!
What can be wrong with digests, keys and signatures that are given as bytes, and with signing.
-/

namespace ChainGovernance

/-- Why a digest, a key or a signature is refused, or was not made. -/
inductive CryptoError
  | privateKeyLength
  | publicKeyLength
  /-- The bytes of a public key denote no point of the curve. -/
  | publicKey
  | signatureLength
  | digestLength
  /-- A wallet gave a reason instead of a signature. -/
  | signingFailed (reason : String)
deriving DecidableEq

def CryptoError.message : CryptoError → String
  | privateKeyLength => "invalid private key length"
  | publicKeyLength => "invalid public key length"
  | publicKey => "invalid public key"
  | signatureLength => "invalid signature length"
  | digestLength => "invalid digest length"
  | signingFailed reason => "signing failed: " ++ reason

end ChainGovernance
