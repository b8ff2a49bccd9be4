import ChainGovernance.Node.Call

/-!
Clients of a node, and the clock they share with it.

A client runs in a `World`, the state of the node and the time. Its errors leave the world as it
became until then. Time passes when a node takes its time or stays silent for as long as a call may
take, and while the client sleeps.
-/

namespace ChainGovernance

/-- The state of a node, and the time. -/
structure World (σ : Type) where
  node : σ
  now : Instant

/-- What a client does in a world, unless it cannot go on. -/
abbrev Client (σ : Type) := ExceptT Error (StateT (World σ) (Except Node.Halt))

namespace Client

open Node (Call Halt)

variable {σ α : Type}

/-- Runs a client in a world. -/
def runIn (c : Client σ α) (w : World σ) : Except Halt (Except Error α × World σ) := c.run.run w

def halt (h : Halt) : Client σ α := ExceptT.mk fun _ => .error h

/-- The value, or the error, of what needs no node. -/
def ofExcept (r : Except Error α) : Client σ α := ExceptT.mk fun w => .ok (r, w)

def now : Client σ Instant := ExceptT.mk fun w => .ok (.ok w.now, w)

/-- The instant that follows the present by a duration. -/
def fromNow (duration : Nat) : Client σ Instant := ExceptT.mk fun w =>
  match w.now.after? duration with
  | some t => .ok (.ok t, w)
  | none => .error .clockOutOfRange

def sleep (duration : Nat) : Client σ Unit := ExceptT.mk fun w =>
  match w.now.after? duration with
  | some t => .ok (.ok (), { w with now := t })
  | none => .error .clockOutOfRange

/-- Calls a node. If it stays silent, the call fails when `timeout` has passed. -/
def call (node : Node σ) (timeout : Nat) (c : Call) : Client σ c.Reply := ExceptT.mk fun w =>
  match node.respond c w.node with
  | .error h => .error h
  | .ok r =>
    match w.now.after? r.lag with
    | none => .error .clockOutOfRange
    | some t =>
      match r.answer with
      | .value v => .ok (.ok v, ⟨r.state, t⟩)
      | .failure e => .ok (.error e, ⟨r.state, t⟩)
      | .silence =>
        match t.after? timeout with
        | none => .error .clockOutOfRange
        | some late => .ok (.error (.timeout c.operation timeout), ⟨r.state, late⟩)

end Client

end ChainGovernance
