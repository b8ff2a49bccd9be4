/-!
The default number of signatures that a set of signers has to give.
-/

namespace ChainGovernance

/-- The signatures required of `n` signers: five sevenths of them, rounded up, which is more than
two thirds. No number of signatures is enough for an empty set. -/
def quorum? (n : Nat) : Option Nat := if n = 0 then none else some ((5 * n + 6) / 7)

end ChainGovernance
