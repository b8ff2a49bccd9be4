import ChainGovernance.Ed25519.Key

/-!
Wallets: whatever signs under a public key, and may refuse to.
-/

namespace ChainGovernance

/-- A signer: its key, and what it answers when asked to sign a message. -/
structure Wallet where
  publicKey : PublicKey
  sign : Bytes → Except CryptoError Signature

namespace PrivateKey

/-- The wallet that signs whatever it is given. -/
def wallet (key : PrivateKey) : Wallet :=
  let publicKey := key.publicKey
  ⟨publicKey, fun message => .ok (key.signAs publicKey message)⟩

/-- The wallet that signs nothing. -/
def refusingWallet (key : PrivateKey) : Wallet :=
  ⟨key.publicKey, fun _ => .error (.signingFailed "wallet refused to sign")⟩

end PrivateKey

end ChainGovernance
