import Mathlib.Tactic
import ChainGovernance.Node.Waiting
import ChainGovernance.Proofs.Node.Running

/-!
Where clients lead.

A client leads from a world to results and worlds with a property. It may also find that the chain,
or the range of instants, has no room left, but nothing else stops it: a wait with pauses is over
when its deadline has come (`Looks.leadsTo_waitFor`), and what every look keeps, the whole wait
keeps.
-/

namespace ChainGovernance

theorem Instant.nanos_le_of_after? {t u : Instant} {d : Nat} (h : t.after? d = some u) :
    t.nanos ≤ u.nanos := by
  have := after?_eq_some_iff.1 h
  omega

namespace Client

open Node (Call Halt Operation)

variable {σ α β : Type}

/-- From a world, a client comes to a result and a world with `Q`, unless the chain or the clock has
no room left. -/
def LeadsTo (c : Client σ α) (w : World σ) (Q : Except Error α → World σ → Prop) : Prop :=
  match c.runIn w with
  | .error h => h = .chainExhausted ∨ h = .clockOutOfRange
  | .ok (r, w') => Q r w'

variable {c : Client σ α} {w w' : World σ} {Q : Except Error α → World σ → Prop}
  {R : Except Error β → World σ → Prop} {r : Except Error α} {h : Halt}

theorem LeadsTo.halt (hQ : c.LeadsTo w Q) (hrun : c.runIn w = .error h) :
    h = .chainExhausted ∨ h = .clockOutOfRange := by
  rwa [LeadsTo, hrun] at hQ

theorem LeadsTo.ends (hQ : c.LeadsTo w Q) (hrun : c.runIn w = .ok (r, w')) : Q r w' := by
  rwa [LeadsTo, hrun] at hQ

theorem leadsTo_of_error (hrun : c.runIn w = .error h)
    (hh : h = .chainExhausted ∨ h = .clockOutOfRange) : c.LeadsTo w Q := by
  rwa [LeadsTo, hrun]

theorem leadsTo_of_ok (hrun : c.runIn w = .ok (r, w')) (hQ : Q r w') : c.LeadsTo w Q := by
  rwa [LeadsTo, hrun]

/-! ### Steps -/

theorem leadsTo_bind_of_ok {x : Client σ α} {f : α → Client σ β} {a : α}
    (hrun : x.runIn w = .ok (.ok a, w')) (hf : (f a).LeadsTo w' R) : (x >>= f).LeadsTo w R := by
  rwa [LeadsTo, ← runIn_bind_of_ok hrun] at hf

theorem leadsTo_bind {x : Client σ α} {f : α → Client σ β} (hx : x.LeadsTo w Q)
    (hf : ∀ a w', Q (.ok a) w' → (f a).LeadsTo w' R)
    (herror : ∀ e w', Q (.error e) w' → R (.error e) w') : (x >>= f).LeadsTo w R := by
  cases hrun : x.runIn w with
  | error h => exact leadsTo_of_error (runIn_bind_of_halt hrun) (hx.halt hrun)
  | ok p =>
    obtain ⟨r, w'⟩ := p
    have hQ := hx.ends hrun
    cases r with
    | error e => exact leadsTo_of_ok (runIn_bind_of_error hrun) (herror e w' hQ)
    | ok a => exact leadsTo_bind_of_ok hrun (hf a w' hQ)

theorem leadsTo_pure {a : α} (hQ : Q (.ok a) w) : LeadsTo (pure a) w Q :=
  leadsTo_of_ok (runIn_pure a) hQ

theorem leadsTo_throw {e : Error} (hQ : Q (.error e) w) : LeadsTo (throw e) w Q :=
  leadsTo_of_ok (runIn_throw e) hQ

theorem leadsTo_fromNow_bind {d : Nat} {f : Instant → Client σ β}
    (hf : ∀ t, w.now.after? d = some t → (f t).LeadsTo w R) : (fromNow d >>= f).LeadsTo w R := by
  cases ht : w.now.after? d with
  | none => exact leadsTo_of_error (runIn_bind_of_halt (runIn_fromNow_none ht)) (.inr rfl)
  | some t => exact leadsTo_bind_of_ok (runIn_fromNow ht) (hf t ht)

theorem leadsTo_sleep_bind {d : Nat} {f : Unit → Client σ β}
    (hf : ∀ t, w.now.after? d = some t → (f ()).LeadsTo ⟨w.node, t⟩ R) :
    (sleep d >>= f).LeadsTo w R := by
  cases ht : w.now.after? d with
  | none => exact leadsTo_of_error (runIn_bind_of_halt (runIn_sleep_none ht)) (.inr rfl)
  | some t => exact leadsTo_bind_of_ok (runIn_sleep ht) (hf t ht)

/-- A call is answered with a value or not, at some later time, unless the node finds that the chain
is at its end. -/
theorem leadsTo_call {node : Node σ} {timeout : Nat} {c : Call}
    {Q : Except Error c.Reply → World σ → Prop}
    (hhalt : ∀ h, node.respond c w.node = .error h → h = .chainExhausted ∨ h = .clockOutOfRange)
    (hQ : ∀ r t result, node.respond c w.node = .ok r → w.now.nanos ≤ t.nanos →
      (∀ v, result = .ok v → r.answer = .value v) → Q result ⟨r.state, t⟩) :
    (call node timeout c).LeadsTo w Q := by
  rw [LeadsTo, runIn_call_eq]
  cases hr : node.respond c w.node with
  | error h => exact hhalt h hr
  | ok r =>
    simp only
    cases ht : w.now.after? r.lag with
    | none => exact .inr rfl
    | some t =>
      have hforward := Instant.nanos_le_of_after? ht
      simp only
      cases ha : r.answer with
      | value v =>
        refine hQ r t (.ok v) hr hforward fun v' hv => ?_
        rw [ha, Except.ok.inj hv]
      | failure e => exact hQ r t (.error e) hr hforward nofun
      | silence =>
        simp only
        cases hlate : t.after? timeout with
        | none => exact .inr rfl
        | some late =>
          have hlater := Instant.nanos_le_of_after? hlate
          exact hQ r late (.error _) hr (hforward.trans hlater) nofun

/-! ### Waits -/

section Wait

variable {look : Client σ (Option α)} {I : σ → Prop} {Found : α → σ → Prop}

/-- What every look keeps, and what it finds. A look does not turn back time. -/
def Looks (I : σ → Prop) (look : Client σ (Option α)) (Found : α → σ → Prop) : Prop :=
  ∀ w : World σ, I w.node → look.LeadsTo w fun r w' =>
    I w'.node ∧ w.now.nanos ≤ w'.now.nanos ∧ ∀ v, r = .ok (some v) → Found v w'.node

/-- Each pause brings the wait closer to the deadline, and the rounds are enough to reach it. -/
theorem Looks.leadsTo_lookUntil (hlook : Looks I look Found) {interval : Nat} {deadline : Instant}
    {late : Error} {rounds : Nat} (hI : I w.node)
    (hrounds : deadline.nanos + interval ≤ w.now.nanos + rounds * interval)
    (hahead : w.now.nanos < deadline.nanos + interval) :
    (lookUntil look interval deadline late rounds).LeadsTo w fun r w' =>
      I w'.node ∧ ∀ v, r = .ok v → Found v w'.node := by
  induction rounds generalizing w with
  | zero => omega
  | succ n ih =>
    rw [lookUntil]
    refine leadsTo_bind (hlook w hI) ?_ fun e w' h => ⟨h.1, nofun⟩
    rintro found w₁ ⟨hI₁, hforward, hfound⟩
    cases found with
    | some v =>
      refine leadsTo_pure ⟨hI₁, fun v' hv' => ?_⟩
      obtain rfl := Except.ok.inj hv'
      exact hfound v rfl
    | none =>
      refine leadsTo_bind_of_ok runIn_now ?_
      by_cases hlate : deadline.nanos ≤ w₁.now.nanos
      · rw [if_pos hlate]
        exact leadsTo_throw ⟨hI₁, nofun⟩
      · rw [if_neg hlate]
        refine leadsTo_sleep_bind fun t ht => ?_
        have ht := Instant.after?_eq_some_iff.1 ht
        rw [Nat.cast_succ, add_mul, one_mul] at hrounds
        exact ih hI₁ (by simp only; omega) (by simp only; omega)

/-- **Waits come to an end**, as long as there are pauses, whatever the node does in the meantime.
-/
theorem Looks.leadsTo_waitFor (hlook : Looks I look Found) {node : Node σ} {settings : Settings}
    {operation : Operation} (hp : 0 < settings.pollInterval) (hI : I w.node) :
    (waitFor node settings operation look).LeadsTo w fun r w' =>
      I w'.node ∧ ∀ v, r = .ok v → Found v w'.node := by
  have henough : settings.confirmationTimeout + settings.pollInterval ≤
      (settings.confirmationTimeout / settings.pollInterval + 2) * settings.pollInterval := by
    have := Nat.lt_div_mul_add (a := settings.confirmationTimeout) hp
    rw [Nat.add_mul]
    omega
  refine leadsTo_fromNow_bind fun deadline hdeadline => leadsTo_bind_of_ok runIn_get ?_
  have hdeadline := Instant.after?_eq_some_iff.1 hdeadline
  rw [roundsWithin, if_neg hp.ne']
  refine hlook.leadsTo_lookUntil hI ?_ (by omega)
  rw [hdeadline, add_assoc]
  exact Int.add_le_add_left (by exact_mod_cast henough) _

end Wait

end Client

end ChainGovernance
