import Mathlib.Tactic
import ChainGovernance.Node.Client
import ChainGovernance.Proofs.Results

/-!
Runs of clients, step by step.

Of two clients in a row, the second runs in the world that the first leaves, unless the first fails
or cannot go on. A call of a node that takes no time is answered where it is made; if the node stays
silent, the call fails later, by as much as it may take.
-/

namespace ChainGovernance

/-! ### Instants -/

namespace Instant

variable {t u : Instant} {c d : Nat}

theorem after?_eq_some_iff : t.after? d = some u ↔ u.nanos = t.nanos + d := by
  obtain ⟨nanos, lower, upper⟩ := u
  unfold after? ofNanos?
  split
  · rw [Option.some.injEq, mk.injEq, eq_comm]
  · rename_i hrange
    simp only [reduceCtorEq, false_iff]
    rintro rfl
    exact hrange ⟨lower, upper⟩

theorem after?_zero (t : Instant) : t.after? 0 = some t :=
  after?_eq_some_iff.2 (by simp)

theorem exists_after? (h : t.nanos + d < instantReach) : ∃ u, t.after? d = some u := by
  have hlower : -instantReach ≤ t.nanos + d := by
    have := t.lower
    omega
  exact ⟨⟨t.nanos + d, hlower, h⟩, after?_eq_some_iff.2 rfl⟩

theorem after?_add (h : t.after? c = some u) : t.after? (c + d) = u.after? d := by
  rw [after?_eq_some_iff] at h
  rw [after?, after?, h, Nat.cast_add, add_assoc]

end Instant

namespace Client

open Node (Answer Call Halt Reaction)

variable {σ α β : Type} {w w' : World σ}

/-! ### One step -/

@[simp] theorem runIn_pure (a : α) : runIn (pure a) w = .ok (.ok a, w) := rfl

@[simp] theorem runIn_throw (e : Error) : runIn (throw e : Client σ α) w = .ok (.error e, w) := rfl

@[simp] theorem runIn_ofExcept (r : Except Error α) : runIn (ofExcept r) w = .ok (r, w) := rfl

@[simp] theorem runIn_now : runIn (now : Client σ Instant) w = .ok (.ok w.now, w) := rfl

@[simp] theorem runIn_get : runIn (get : Client σ (World σ)) w = .ok (.ok w, w) := rfl

theorem runIn_fromNow {d : Nat} {t : Instant} (h : w.now.after? d = some t) :
    runIn (fromNow d) w = .ok (.ok t, w) := by
  simp only [runIn, fromNow, ExceptT.run_mk, StateT.run, h]

theorem runIn_fromNow_none {d : Nat} (h : w.now.after? d = none) :
    runIn (fromNow d) w = .error .clockOutOfRange := by
  simp only [runIn, fromNow, ExceptT.run_mk, StateT.run, h]

theorem runIn_sleep {d : Nat} {t : Instant} (h : w.now.after? d = some t) :
    runIn (sleep d) w = .ok (.ok (), ⟨w.node, t⟩) := by
  simp only [runIn, sleep, ExceptT.run_mk, StateT.run, h]

theorem runIn_sleep_none {d : Nat} (h : w.now.after? d = none) :
    runIn (sleep d) w = .error .clockOutOfRange := by
  simp only [runIn, sleep, ExceptT.run_mk, StateT.run, h]

/-! ### Steps in a row -/

section Bind

variable {x : Client σ α} {f : α → Client σ β}

theorem runIn_bind (x : Client σ α) (f : α → Client σ β) (w : World σ) :
    (x >>= f).runIn w = x.runIn w >>= fun
      | (.ok a, w') => (f a).runIn w'
      | (.error e, w') => .ok (.error e, w') := by
  change (ExceptT.run (x >>= f)).run w = _
  rw [ExceptT.run_bind, StateT.run_bind]
  unfold runIn
  congr 1
  funext ⟨r, w'⟩
  cases r <;> rfl

theorem runIn_bind_of_ok {a : α} (h : x.runIn w = .ok (.ok a, w')) :
    (x >>= f).runIn w = (f a).runIn w' := by
  rw [runIn_bind, h]
  rfl

theorem runIn_bind_of_error {e : Error} (h : x.runIn w = .ok (.error e, w')) :
    (x >>= f).runIn w = .ok (.error e, w') := by
  rw [runIn_bind, h]
  rfl

theorem runIn_bind_of_halt {h : Halt} (hx : x.runIn w = .error h) :
    (x >>= f).runIn w = .error h := by
  rw [runIn_bind, hx]
  rfl

end Bind

/-! ### Calls -/

section Calls

variable {node : Node σ} {timeout : Nat} {c : Call} {s : σ}

/-- Whatever the node answers, the call takes the time of the node, and more if it stays silent. -/
theorem runIn_call_eq (node : Node σ) (timeout : Nat) (c : Call) (w : World σ) :
    (call node timeout c).runIn w =
      match node.respond c w.node with
      | .error h => .error h
      | .ok r =>
        match w.now.after? r.lag with
        | none => .error .clockOutOfRange
        | some t =>
          match r.answer with
          | .value v => .ok (.ok v, ⟨r.state, t⟩)
          | .failure e => .ok (.error e, ⟨r.state, t⟩)
          | .silence =>
            match t.after? timeout with
            | none => .error .clockOutOfRange
            | some late => .ok (.error (.timeout c.operation timeout), ⟨r.state, late⟩) := rfl

theorem runIn_call_value {v : c.Reply} (h : node.respond c w.node = .ok ⟨.value v, s, 0⟩) :
    (call node timeout c).runIn w = .ok (.ok v, ⟨s, w.now⟩) := by
  rw [runIn_call_eq, h]
  simp only [Instant.after?_zero]

theorem runIn_call_failure {e : Error} (h : node.respond c w.node = .ok ⟨.failure e, s, 0⟩) :
    (call node timeout c).runIn w = .ok (.error e, ⟨s, w.now⟩) := by
  rw [runIn_call_eq, h]
  simp only [Instant.after?_zero]

theorem runIn_call_silence {t : Instant} (h : node.respond c w.node = .ok ⟨.silence, s, 0⟩)
    (ht : w.now.after? timeout = some t) :
    (call node timeout c).runIn w = .ok (.error (.timeout c.operation timeout), ⟨s, t⟩) := by
  rw [runIn_call_eq, h]
  simp only [Instant.after?_zero, ht]

end Calls

end Client

end ChainGovernance
