import ChainGovernance.Node.Client

/-!
Nodes that answer from a script: each call gets the next entry, and silence when there are none
left. The calls are kept, the last one first.
-/

namespace ChainGovernance

open Node (Answer Call Halt Reaction)

/-- The entries that are left of a script, and the calls that took the others. -/
structure Script (ρ : Type) where
  entries : List ρ
  calls : List Call := []

namespace Script

variable {ρ : Type}

/-- The node that takes the entries for what `read` says: an answer, and the time before it. -/
def node (read : (call : Call) → ρ → Answer call.Reply × Nat) : Node (Script ρ) where
  respond call s :=
    match s.entries with
    | [] => .ok ⟨.silence, { s with calls := call :: s.calls }, 0⟩
    | entry :: entries =>
      let (answer, lag) := read call entry
      .ok ⟨answer, ⟨entries, call :: s.calls⟩, lag⟩
  repliesLeft s := s.entries.length

end Script

end ChainGovernance
