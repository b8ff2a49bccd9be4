/-!
The names of what a client does with a node.
-/

namespace ChainGovernance.Node

/-- What may be unavailable, or not done in time. -/
inductive Operation
  | currentHeight
  | blockByHeight
  | sendRawTransaction
  | transactionHeight
  | foldRoot
  | storage
  /-- Waiting for a transaction to be confirmed. -/
  | waitForTransaction
  /-- Waiting for a height to be reached. -/
  | waitForBlocks
deriving DecidableEq

def Operation.name : Operation → String
  | currentHeight => "current_height"
  | blockByHeight => "block_by_height"
  | sendRawTransaction => "send_raw_transaction"
  | transactionHeight => "transaction_height"
  | foldRoot => "block_root_with_new_tx_root"
  | storage => "storage"
  | waitForTransaction => "wait_for_transaction"
  | waitForBlocks => "wait_for_blocks"

end ChainGovernance.Node
