import ChainGovernance.Transaction

/-!
Drafts of transactions, and the transactions that are built from them.

A draft holds texts and typed parameters; building checks them in order (the contract, the method,
the number of parameters, and each parameter in turn) and stops at the first fault.
-/

namespace ChainGovernance

/-- What a transaction is to be built from. -/
structure Draft where
  /-- The address of the contract, as text. -/
  contract : String
  method : String
  payer : Address
  params : List Param := []
  version : UInt8 := 0
  gasPrice : UInt64 := 0
  gasLimit : UInt64 := defaultGasLimit
  /-- Taken from the time of building if it is not given. -/
  nonce : Option UInt32 := none
  limits : Limits := {}

namespace Draft

/-- Refuses a method without a name, or with one of more than `max` bytes. -/
def checkMethod (method : String) (max : Nat) : Except Error Unit :=
  let n := method.utf8ByteSize
  if n = 0 then .error (.method .empty)
  else if max < n then .error (.method (.tooLong n max))
  else .ok ()

/-- Refuses more than `max` parameters. The fault lies at the first one too many. -/
def checkParamCount (count max : Nat) : Except Error Unit :=
  if max < count then .error (.parameter max (.tooMany max)) else .ok ()

/-- The bytes of the parameter at `index`, under a bound on their number. -/
def encodeParam (max index : Nat) (param : Param) : Except Error Bytes :=
  match param.encode with
  | .error fault => .error (.parameter index (.encoding fault))
  | .ok b =>
    if max < b.length then .error (.parameter index (.tooLarge b.length max)) else .ok b

/-- The bytes of the parameters from the one at `index` on. -/
def encodeParams (max index : Nat) : List Param → Except Error (List Bytes)
  | [] => .ok []
  | param :: params => do
    let b ← encodeParam max index param
    let bs ← encodeParams max (index + 1) params
    pure (b :: bs)

/-- The nonce of transactions that are built at an instant: its milliseconds, in 32 bits. -/
def nonceAt (now : Instant) : UInt32 := UInt32.ofNat now.epochMillis

def build (d : Draft) (now : Instant) : Except Error UnsignedTransaction := do
  let contract ← (Address.ofText? d.contract).mapError .address
  checkMethod d.method d.limits.maxMethod
  checkParamCount d.params.length d.limits.maxParams
  let params ← encodeParams d.limits.maxParamSize 0 d.params
  pure ⟨d.version, d.nonce.getD (nonceAt now), d.gasPrice, d.gasLimit, d.payer,
    ⟨contract, d.method, params⟩⟩

end Draft

end ChainGovernance
