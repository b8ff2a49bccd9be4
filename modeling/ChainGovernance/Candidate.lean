import ChainGovernance.Node.Client

/-!
Candidate blocks for the tip of a chain.
-/

namespace ChainGovernance.Client

open Node (Call)

variable {σ : Type}

/-- Assembles the block that extends the tip of the chain of a node.

The tip is read, the root of the transactions is folded into that of the chain, and the height is
read once more: if the chain has moved on, the folded root is of no use. -/
def assemble (node : Node σ) (rpcTimeout : Nat) (version : UInt32)
    (transactions : List Transaction) (timestamp : UInt32) (consensus : Consensus) :
    Client σ Block := do
  let height : UInt32 ← call node rpcTimeout .currentHeight
  let some block ← call node rpcTimeout (.blockByHeight height)
    | throw (.remoteUnavailable .blockByHeight
        ("block " ++ toString height.toNat ++ " not found"))
  let tip := block.tip
  let root : Digest ← call node rpcTimeout (.foldRoot (transactionsRoot transactions))
  let found : UInt32 ← call node rpcTimeout .currentHeight
  if found ≠ tip.height then throw (.staleTip tip.height found)
  else ofExcept (Block.extend tip version timestamp root consensus transactions)

end ChainGovernance.Client
