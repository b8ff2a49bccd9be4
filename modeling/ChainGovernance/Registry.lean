import ChainGovernance.Error
import ChainGovernance.Limits

/-!
Registries: the actions that operators know by name, and what they invoke.

The names stand in order, each of them once.
-/

namespace ChainGovernance

/-- What an action invokes. -/
structure Action where
  contract : Address
  method : String
  gasLimit : UInt64
deriving DecidableEq

/-- Actions by name, in the order of the names. -/
structure Registry where
  entries : List (String × Action) := []
deriving DecidableEq

namespace Registry

/-- Enters an action into a list of actions, in the place of one of the same name. -/
def insert (name : String) (action : Action) : List (String × Action) → List (String × Action)
  | [] => [(name, action)]
  | entry :: entries =>
    if name < entry.1 then (name, action) :: entry :: entries
    else if name = entry.1 then (name, action) :: entries
    else entry :: insert name action entries

def get? (r : Registry) (name : String) : Option Action := r.entries.lookup name

/-- Registers an action, and tells which one it replaces. -/
def register (r : Registry) (name : String) (action : Action) : Option Action × Registry :=
  (r.get? name, ⟨insert name action r.entries⟩)

/-- The action of a name that has to be known. -/
def find (r : Registry) (name : String) : Except Error Action :=
  match r.get? name with
  | some action => .ok action
  | none => .error (.unknownAction name)

def names (r : Registry) : List String := r.entries.map (·.1)

/-- The registry of the actions in a list, where the last of a name counts. -/
def ofList (entries : List (String × Action)) : Registry :=
  entries.foldl (fun r e => (r.register e.1 e.2).2) {}

/-- The actions of the governance contract. -/
def governance : Registry :=
  ofList <| [
    ("register_candidate", "registerCandidate"),
    ("approve_candidate", "approveCandidate"),
    ("reject_candidate", "rejectCandidate"),
    ("black_node", "blackNode"),
    ("white_node", "whiteNode"),
    ("quit_node", "quitNode"),
    ("vote_for_peer", "voteForPeer"),
    ("unvote_for_peer", "unVoteForPeer"),
    ("withdraw", "withdraw"),
    ("commit_dpos", "commitDpos"),
    ("update_config", "updateConfig"),
    ("update_global_param", "updateGlobalParam")].map
      fun e => (e.1, ⟨Address.governance, e.2, defaultGasLimit⟩)

end Registry

end ChainGovernance
