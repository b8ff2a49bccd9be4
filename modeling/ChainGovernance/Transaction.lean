import ChainGovernance.Aggregate
import ChainGovernance.Text.Utf8

/-!
Transactions that invoke a method of a native contract.

A transaction is named by the double hash of what is signed, so its signatures do not change its
name.
-/

namespace ChainGovernance

open Wire (Format LengthRange)

/-- The call of a method of a contract, with its encoded parameters. -/
structure Invocation where
  contract : Address
  method : String
  params : List Bytes
deriving DecidableEq

/-- An invocation, and who pays how much for it. -/
structure UnsignedTransaction where
  version : UInt8
  nonce : UInt32
  gasPrice : UInt64
  gasLimit : UInt64
  payer : Address
  invocation : Invocation
deriving DecidableEq

structure Transaction where
  unsigned : UnsignedTransaction
  signatures : List Aggregate
deriving DecidableEq

namespace Invocation

/-- Method names: UTF-8 with the number of bytes in front. -/
def methodFormat (limits : Limits) : Format String :=
  (Format.bytes (LengthRange.between 1 limits.maxMethod)).refine
    (fun b =>
      match Text.ofUtf8? b with
      | some s => .ok s
      | none => .error (.invalid "Invocation" "method is not utf-8"))
    Text.utf8

def format (limits : Limits) : Format Invocation :=
  (Address.format.seq
    ((methodFormat limits).seq
      (Format.list (LengthRange.upTo limits.maxParams)
        (Format.bytes (LengthRange.upTo limits.maxParamSize))))).iso
    (fun v => ⟨v.1, v.2.1, v.2.2⟩) (fun i => (i.contract, i.method, i.params))

end Invocation

namespace UnsignedTransaction

/-- The byte that marks the invocation of a native contract. -/
def invokeTag : UInt8 := 0xd1

/-- The number of attributes, which is always zero. -/
def attributesFormat : Format Unit :=
  Format.compact.refine
    (fun n =>
      if n = 0 then .ok ()
      else .error (.invalid "UnsignedTransaction" "attributes are not supported"))
    (fun _ => 0)

def format (limits : Limits) : Format UnsignedTransaction :=
  (Format.uint8.seq
    ((Format.constant "UnsignedTransaction" invokeTag).seq
      (Format.uint32.seq
        (Format.uint64.seq
          (Format.uint64.seq
            (Address.format.seq
              ((Invocation.format limits).seq attributesFormat))))))).iso
    (fun (version, _, nonce, gasPrice, gasLimit, payer, invocation, _) =>
      ⟨version, nonce, gasPrice, gasLimit, payer, invocation⟩)
    (fun t => (t.version, (), t.nonce, t.gasPrice, t.gasLimit, t.payer, t.invocation, ()))

/-- The bytes that name and are signed for a transaction. -/
def encode (t : UnsignedTransaction) : Bytes := (format {}).write t

/-- The name of a transaction. No field holds it: it is reckoned from the others whenever it is asked
for, so that it cannot be the name of anything else. -/
def hash (t : UnsignedTransaction) : Digest := doubleHash t.encode

end UnsignedTransaction

namespace Transaction

def format (limits : Limits) : Format Transaction :=
  ((UnsignedTransaction.format limits).seq
    (Format.list (LengthRange.upTo limits.maxGroups) (Aggregate.format limits))).iso
    (fun v => ⟨v.1, v.2⟩) (fun t => (t.unsigned, t.signatures))

def encode (t : Transaction) : Bytes := (format {}).write t

def hash (t : Transaction) : Digest := t.unsigned.hash

end Transaction

/-- Has the wallets sign a transaction on behalf of a set. -/
def UnsignedTransaction.sign (t : UnsignedTransaction) (set : SignerSet) (wallets : List Wallet) :
    Except Error Transaction := do
  let a ← Aggregate.collect .transaction set wallets t.hash.toBytes
  pure ⟨t, [a]⟩

end ChainGovernance
