/-!
The codes of an emergency request: why consensus is to be overridden, and what justifies it.
-/

namespace ChainGovernance.Emergency

/-- Why consensus is to be overridden. -/
inductive Reason
  /-- To black-list the validators that the candidate block names. -/
  | blacklist
deriving DecidableEq

/-- What justifies it. -/
inductive Evidence
  /-- No blocks are produced any more. -/
  | consensusStalled
  /-- A validator has signed conflicting blocks. -/
  | equivocation
deriving DecidableEq

namespace Reason

def code : Reason → UInt8
  | blacklist => 1

def ofCode? (code : UInt8) : Option Reason := if code = 1 then some blacklist else none

def name : Reason → String
  | blacklist => "blacklist"

end Reason

namespace Evidence

def code : Evidence → UInt8
  | consensusStalled => 1
  | equivocation => 2

def ofCode? (code : UInt8) : Option Evidence :=
  if code = 1 then some consensusStalled else if code = 2 then some equivocation else none

def name : Evidence → String
  | consensusStalled => "consensus_stalled"
  | equivocation => "equivocation"

end Evidence

end ChainGovernance.Emergency
