import ChainGovernance.Ed25519.Seed
import ChainGovernance.Node.Ledger
import ChainGovernance.Node.Script
import ChainGovernance.Operator
import ChainGovernance.Proofs.Emergency.Agreement
import ChainGovernance.Proofs.Emergency.Readable
import ChainGovernance.Proofs.Naming
import ChainGovernance.Proofs.Quorum
import ChainGovernance.Wire.Schema
import ChainGovernance.Proofs.Encoding
import ChainGovernance.Proofs.Emergency.Seal
import ChainGovernance.Proofs.Drafts
import ChainGovernance.Proofs.Merkle
import ChainGovernance.Proofs.TransactionsRoot
import ChainGovernance.Proofs.Node.Commitment
import ChainGovernance.Proofs.Node.Assembling
import ChainGovernance.Proofs.Node.Waiting
import ChainGovernance.Proofs.Operator.Invoking
import ChainGovernance.Proofs.Operator.Overriding
import ChainGovernance.Proofs.Truncation
import ChainGovernance.Proofs.Sizes
import ChainGovernance.Proofs.Merkle.Splitting
import ChainGovernance.Proofs.Merkle.Binding
import ChainGovernance.Proofs.Spelling
import ChainGovernance.Proofs.Param.Faults
import ChainGovernance.Proofs.Param.Values
import ChainGovernance.Proofs.Building
import ChainGovernance.Proofs.Pasting
import ChainGovernance.Proofs.SignerSet
import ChainGovernance.Proofs.Reordering
import ChainGovernance.Proofs.Operator.AutoSealing
import ChainGovernance.Proofs.Wire.Shortest
import ChainGovernance.Proofs.Wire.Plain
import ChainGovernance.Proofs.Address
import ChainGovernance.Proofs.Node.Sealing
