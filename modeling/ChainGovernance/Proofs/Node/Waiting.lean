import Mathlib.Algebra.Order.Floor.Div
import Mathlib.Tactic
import ChainGovernance.Node.Waiting
import ChainGovernance.Proofs.Node.Running

/-!
What a wait comes to, whatever the node answers.

A node may answer every call as it likes, differently each time, or never. A wait asks it round
after round, one pause after the other, and a `Verdict` says what a round comes to: the wait goes
on, or it ends. `wait_exact` reads the result of the whole wait off the verdicts: that of the first
round that ends it, up to the first round by which the confirmation timeout has passed, and after
that round the timeout.
-/

namespace ChainGovernance

open Node (Answer Call Operation)

/-- The node that answers as `reply` says, or never, and takes no time for it. -/
def Node.ofReplies {σ : Type} (reply : (call : Call) → σ → Answer call.Reply × σ) : Node σ where
  respond call s := .ok ⟨(reply call s).1, (reply call s).2, 0⟩

/-- The first round of a wait by which the confirmation timeout has passed. -/
def Settings.lastRound (settings : Settings) : Nat :=
  settings.confirmationTimeout ⌈/⌉ settings.pollInterval

namespace Client

variable {σ α : Type}

/-- What a round of a wait comes to. -/
inductive Verdict (α : Type)
  | goesOn
  /-- The wait ends with a result, some nanoseconds after the round began. -/
  | ends (result : Except Error α) (late : Nat)

/-! ### Rounds -/

section Rounds

variable (reply : (call : Call) → σ → Answer call.Reply × σ) (settings : Settings)

/-- A call in a round: the value is looked at, but a call that fails, or is never answered, ends the
wait. -/
def ask (c : Call) (look : c.Reply → σ → Verdict α × σ) (s : σ) : Verdict α × σ :=
  match reply c s with
  | (.value v, s) => look v s
  | (.failure e, s) => (.ends (.error e) 0, s)
  | (.silence, s) =>
    (.ends (.error (.timeout c.operation settings.rpcTimeout)) settings.rpcTimeout, s)

/-- A round of waiting for a transaction. It ends the wait if the transaction is in a block and the
chain has grown far enough beyond it. -/
def transactionRound (hash : Digest) : σ → Verdict UInt32 × σ :=
  ask reply settings (.transactionHeight hash) fun
    | none => fun s => (.goesOn, s)
    | some h => ask reply settings .currentHeight fun (c : UInt32) s =>
      (if min (h.toNat + max settings.confirmations.toNat 1 - 1) (2 ^ 32 - 1) ≤ c.toNat
        then .ends (.ok h) 0 else .goesOn, s)

/-- A round of waiting for a height. It ends the wait if the chain is as high. -/
def blocksRound (height : UInt32) : σ → Verdict UInt32 × σ :=
  ask reply settings .currentHeight fun (c : UInt32) s =>
    (if height ≤ c then .ends (.ok c) 0 else .goesOn, s)

end Rounds

/-- The state of the node before a round. -/
def stateAt (round : σ → Verdict α × σ) (s : σ) : Nat → σ
  | 0 => s
  | k + 1 => (round (stateAt round s k)).2

def verdictAt (round : σ → Verdict α × σ) (s : σ) (k : Nat) : Verdict α :=
  (round (stateAt round s k)).1

/-- A wait that begins in a world does what its rounds say. -/
structure Exact (settings : Settings) (operation : Operation) (look : Client σ (Option α))
    (round : σ → Verdict α × σ) (wait : Client σ α) (w : World σ) : Prop where
  /-- If the wait goes on until round `k`, this round begins after `k` pauses. -/
  begins : ∀ k ≤ settings.lastRound, (∀ j < k, verdictAt round w.node j = .goesOn) →
    ∃ t deadline, w.now.after? (k * settings.pollInterval) = some t ∧
      w.now.after? settings.confirmationTimeout = some deadline ∧
      wait.runIn w =
        (lookUntil look settings.pollInterval deadline
          (.timeout operation settings.confirmationTimeout)
          (settings.confirmationTimeout / settings.pollInterval + 2 - k)).runIn
          ⟨stateAt round w.node k, t⟩
  /-- The first round that ends the wait gives the result. -/
  ends : ∀ k ≤ settings.lastRound, (∀ j < k, verdictAt round w.node j = .goesOn) →
    ∀ result late, verdictAt round w.node k = .ends result late →
    ∃ t, w.now.after? (k * settings.pollInterval + late) = some t ∧
      wait.runIn w = .ok (result, ⟨stateAt round w.node (k + 1), t⟩)
  /-- If no round ends the wait, it times out at the end of the last round. -/
  expires : (∀ k ≤ settings.lastRound, verdictAt round w.node k = .goesOn) →
    ∃ t, w.now.after? (settings.lastRound * settings.pollInterval) = some t ∧
      wait.runIn w = .ok (.error (.timeout operation settings.confirmationTimeout),
        ⟨stateAt round w.node (settings.lastRound + 1), t⟩)

/-! ### One round -/

/-- A look at the chain does what a round says, as long as a call that is never answered stays
within the range of instants. -/
structure Shows (settings : Settings) (look : Client σ (Option α)) (round : σ → Verdict α × σ) :
    Prop where
  goesOn : ∀ ⦃s s' t⦄, round s = (.goesOn, s') → look.runIn ⟨s, t⟩ = .ok (.ok none, ⟨s', t⟩)
  ends : ∀ ⦃s s' t result late⦄, round s = (.ends result late, s') →
    t.nanos + settings.rpcTimeout < instantReach →
    ∃ u, t.after? late = some u ∧ look.runIn ⟨s, t⟩ = .ok (result.map some, ⟨s', u⟩)

section Shows

variable {reply : (call : Call) → σ → Answer call.Reply × σ} {settings : Settings}

theorem shows_none : Shows settings (pure none : Client σ (Option α)) fun s => (.goesOn, s) where
  goesOn := by
    intro s s' t hround
    cases hround
    rfl
  ends := by
    intro s s' t result late hround
    cases hround

theorem shows_ite {p : Prop} [Decidable p] {v : α} :
    Shows settings (pure (if p then some v else none) : Client σ (Option α)) fun s =>
      (if p then .ends (.ok v) 0 else .goesOn, s) := by
  by_cases hp : p
  · simp only [if_pos hp]
    constructor
    case goesOn =>
      intro s s' t hround
      cases hround
    case ends =>
      intro s s' t result late hround _
      cases hround
      exact ⟨t, t.after?_zero, rfl⟩
  · simp only [if_neg hp]
    exact shows_none

theorem Shows.ask {c : Call} {look : c.Reply → Client σ (Option α)}
    {round : c.Reply → σ → Verdict α × σ} (h : ∀ v, Shows settings (look v) (round v)) :
    Shows settings (call (.ofReplies reply) settings.rpcTimeout c >>= look)
      (ask reply settings c round) := by
  have hrespond : ∀ {s a s'}, reply c s = (a, s') →
      (Node.ofReplies reply).respond c s = .ok ⟨a, s', 0⟩ := by
    intro s a s' ha
    simp only [Node.ofReplies, ha]
  constructor
  case goesOn =>
    intro s s' t hround
    unfold Client.ask at hround
    split at hround
    · rename_i v s₁ ha
      rw [runIn_bind_of_ok (runIn_call_value (hrespond ha))]
      exact (h v).goesOn hround
    · cases hround
    · cases hround
  case ends =>
    intro s s' t result late hround ht
    unfold Client.ask at hround
    split at hround
    · rename_i v s₁ ha
      rw [runIn_bind_of_ok (runIn_call_value (hrespond ha))]
      exact (h v).ends hround ht
    · rename_i e s₁ ha
      cases hround
      exact ⟨t, t.after?_zero, runIn_bind_of_error (runIn_call_failure (hrespond ha))⟩
    · rename_i s₁ ha
      cases hround
      obtain ⟨u, hu⟩ := Instant.exists_after? ht
      exact ⟨u, hu, runIn_bind_of_error (runIn_call_silence (hrespond ha) hu)⟩

end Shows

/-! ### Round after round -/

section LookUntil

variable {settings : Settings} {look : Client σ (Option α)} {round : σ → Verdict α × σ}
  {interval n : Nat} {deadline t u : Instant} {late : Error} {s : σ}

theorem runIn_lookUntil_of_goesOn (h : Shows settings look round)
    (hround : (round s).1 = .goesOn) (hlate : t.nanos < deadline.nanos)
    (hu : t.after? interval = some u) :
    (lookUntil look interval deadline late (n + 1)).runIn ⟨s, t⟩ =
      (lookUntil look interval deadline late n).runIn ⟨(round s).2, u⟩ := by
  rw [lookUntil, runIn_bind_of_ok (h.goesOn (Prod.ext hround rfl)), runIn_bind_of_ok runIn_now]
  simp only [if_neg (not_le.2 hlate)]
  rw [runIn_bind_of_ok (runIn_sleep hu)]

theorem runIn_lookUntil_of_late (h : Shows settings look round)
    (hround : (round s).1 = .goesOn) (hlate : deadline.nanos ≤ t.nanos) :
    (lookUntil look interval deadline late (n + 1)).runIn ⟨s, t⟩ =
      .ok (.error late, ⟨(round s).2, t⟩) := by
  rw [lookUntil, runIn_bind_of_ok (h.goesOn (Prod.ext hround rfl)), runIn_bind_of_ok runIn_now]
  simp only [if_pos hlate, runIn_throw]

theorem runIn_lookUntil_of_ends (interval n : Nat) (deadline : Instant) (late : Error)
    (h : Shows settings look round) {result : Except Error α}
    {d : Nat} (hround : (round s).1 = .ends result d)
    (ht : t.nanos + settings.rpcTimeout < instantReach) :
    ∃ u, t.after? d = some u ∧
      (lookUntil look interval deadline late (n + 1)).runIn ⟨s, t⟩ =
        .ok (result, ⟨(round s).2, u⟩) := by
  obtain ⟨u, hu, hlook⟩ := h.ends (Prod.ext hround rfl) ht
  refine ⟨u, hu, ?_⟩
  cases result with
  | error e => rw [lookUntil, runIn_bind_of_error hlook]
  | ok v => rw [lookUntil, runIn_bind_of_ok hlook, runIn_pure]

end LookUntil

/-! ### The whole wait -/

section WaitFor

variable {node : Node σ} {settings : Settings} {operation : Operation}
  {look : Client σ (Option α)} {round : σ → Verdict α × σ} {w : World σ}

/-- However short the timeout is, there is a first round. -/
theorem roundsWithin_ne_zero (interval timeout repliesLeft : Nat) :
    roundsWithin interval timeout repliesLeft ≠ 0 := by
  unfold roundsWithin
  split <;> exact Nat.succ_ne_zero _

/-- A wait that finds something in its first round is over. -/
theorem runIn_waitFor_of_found {w' : World σ} {v : α} (operation : Operation)
    (hrange : w.now.nanos + settings.confirmationTimeout < instantReach)
    (hlook : look.runIn w = .ok (.ok (some v), w')) :
    (waitFor node settings operation look).runIn w = .ok (.ok v, w') := by
  obtain ⟨deadline, hdeadline⟩ := Instant.exists_after? hrange
  rw [waitFor, runIn_bind_of_ok (runIn_fromNow hdeadline), runIn_bind_of_ok runIn_get]
  obtain ⟨n, hn⟩ := Nat.exists_eq_succ_of_ne_zero (roundsWithin_ne_zero settings.pollInterval
    settings.confirmationTimeout (node.repliesLeft w.node))
  rw [hn, lookUntil, runIn_bind_of_ok hlook, runIn_pure]

/-- A round comes before the last one exactly if the timeout has not passed when it begins. -/
theorem lt_lastRound_iff (hp : 0 < settings.pollInterval) {k : Nat} :
    k < settings.lastRound ↔ k * settings.pollInterval < settings.confirmationTimeout := by
  rw [← not_le, ← not_le, Settings.lastRound, ceilDiv_le_iff_le_mul hp, mul_comm]

theorem lastRound_mul_lt (hp : 0 < settings.pollInterval) :
    settings.lastRound * settings.pollInterval <
      settings.confirmationTimeout + settings.pollInterval := by
  cases hk : settings.lastRound with
  | zero => omega
  | succ k =>
    have hlt := (lt_lastRound_iff hp).1 (show k < settings.lastRound by omega)
    rw [Nat.succ_mul]
    omega

theorem lastRound_le (hp : 0 < settings.pollInterval) :
    settings.lastRound ≤ settings.confirmationTimeout / settings.pollInterval + 1 := by
  rw [Settings.lastRound, ceilDiv_le_iff_le_mul hp, Nat.mul_add, mul_one]
  have := Nat.div_add_mod settings.confirmationTimeout settings.pollInterval
  have := Nat.mod_lt settings.confirmationTimeout hp
  omega

/-- As long as the wait goes on, there is a pause between one round and the next. -/
theorem begins_waitFor (node : Node σ) (operation : Operation)
    (h : Shows settings look round) (hp : 0 < settings.pollInterval)
    {deadline : Instant} (hdeadline : w.now.after? settings.confirmationTimeout = some deadline)
    (hrange : w.now.nanos + settings.confirmationTimeout + settings.pollInterval < instantReach)
    {k : Nat} (hk : k ≤ settings.lastRound)
    (hgoesOn : ∀ j < k, verdictAt round w.node j = .goesOn) :
    ∃ t, w.now.after? (k * settings.pollInterval) = some t ∧
      (waitFor node settings operation look).runIn w =
        (lookUntil look settings.pollInterval deadline
          (.timeout operation settings.confirmationTimeout)
          (settings.confirmationTimeout / settings.pollInterval + 2 - k)).runIn
          ⟨stateAt round w.node k, t⟩ := by
  induction k with
  | zero =>
    refine ⟨w.now, ?_, ?_⟩
    · rw [Nat.zero_mul, Instant.after?_zero]
    · rw [waitFor, runIn_bind_of_ok (runIn_fromNow hdeadline), runIn_bind_of_ok runIn_get,
        roundsWithin, if_neg hp.ne']
      rfl
  | succ k ih =>
    obtain ⟨t, ht, hrun⟩ := ih (Nat.le_of_succ_le hk) fun j hj => hgoesOn j (Nat.lt_succ_of_lt hj)
    have hbefore := (lt_lastRound_iff hp).1 hk
    have hnanos := Instant.after?_eq_some_iff.1 ht
    have hdeadline := Instant.after?_eq_some_iff.1 hdeadline
    obtain ⟨u, hu⟩ : ∃ u, t.after? settings.pollInterval = some u :=
      Instant.exists_after? (by omega)
    refine ⟨u, ?_, ?_⟩
    · rw [Nat.succ_mul, Instant.after?_add ht, hu]
    · have hrounds := lastRound_le hp
      obtain ⟨n, hn⟩ : ∃ n, settings.confirmationTimeout / settings.pollInterval + 2 - k = n + 1 :=
        ⟨_, (Nat.succ_pred (by omega)).symm⟩
      have hn' : settings.confirmationTimeout / settings.pollInterval + 2 - (k + 1) = n := by omega
      rw [hrun, hn, hn', runIn_lookUntil_of_goesOn h (hgoesOn k (Nat.lt_succ_self k)) _ hu]
      · rfl
      · omega

theorem exact_waitFor (h : Shows settings look round) (hp : 0 < settings.pollInterval)
    (hrange : w.now.nanos + settings.confirmationTimeout + settings.pollInterval +
      settings.rpcTimeout < instantReach) :
    Exact settings operation look round (waitFor node settings operation look) w := by
  obtain ⟨deadline, hdeadline⟩ : ∃ u, w.now.after? settings.confirmationTimeout = some u :=
    Instant.exists_after? (by omega)
  have hbegins {k : Nat} (hk : k ≤ settings.lastRound)
      (hgoesOn : ∀ j < k, verdictAt round w.node j = .goesOn) :=
    begins_waitFor node operation h hp hdeadline (by omega) hk hgoesOn
  have hlast := lastRound_mul_lt hp
  have hrounds := lastRound_le hp
  constructor
  case begins =>
    intro k hk hgoesOn
    obtain ⟨t, ht, hrun⟩ := hbegins hk hgoesOn
    exact ⟨t, deadline, ht, hdeadline, hrun⟩
  case ends =>
    intro k hk hgoesOn result late hverdict
    obtain ⟨t, ht, hrun⟩ := hbegins hk hgoesOn
    have hnanos := Instant.after?_eq_some_iff.1 ht
    have hle := Nat.mul_le_mul_right settings.pollInterval hk
    obtain ⟨n, hn⟩ : ∃ n, settings.confirmationTimeout / settings.pollInterval + 2 - k = n + 1 :=
      ⟨_, (Nat.succ_pred (by omega)).symm⟩
    obtain ⟨u, hu, hends⟩ := runIn_lookUntil_of_ends settings.pollInterval n deadline
      (.timeout operation settings.confirmationTimeout) h hverdict (t := t) (by omega)
    refine ⟨u, ?_, ?_⟩
    · rw [Instant.after?_add ht, hu]
    · rw [hrun, hn, hends]
      rfl
  case expires =>
    intro hgoesOn
    obtain ⟨t, ht, hrun⟩ := hbegins (Nat.le_refl _) fun j hj => hgoesOn j hj.le
    have hnanos := Instant.after?_eq_some_iff.1 ht
    have hdeadline := Instant.after?_eq_some_iff.1 hdeadline
    obtain ⟨n, hn⟩ : ∃ n, settings.confirmationTimeout / settings.pollInterval + 2 -
        settings.lastRound = n + 1 := ⟨_, (Nat.succ_pred (by omega)).symm⟩
    have hpassed := (not_congr (lt_lastRound_iff hp)).1 (Nat.lt_irrefl _)
    refine ⟨t, ht, ?_⟩
    rw [hrun, hn, runIn_lookUntil_of_late h (hgoesOn _ (Nat.le_refl _)) (by omega)]
    rfl

end WaitFor

/-! ### Waiting for a transaction, and for a height -/

/-- What a wait for a transaction does in each round. -/
def lookForTransaction (node : Node σ) (settings : Settings) (hash : Digest) :
    Client σ (Option UInt32) := do
  match ← call node settings.rpcTimeout (.transactionHeight hash) with
  | none => pure none
  | some height =>
    let current : UInt32 ← call node settings.rpcTimeout .currentHeight
    pure (if confirmedAt settings.confirmations height ≤ current.toNat then some height else none)

/-- What a wait for a height does in each round. -/
def lookForHeight (node : Node σ) (settings : Settings) (height : UInt32) :
    Client σ (Option UInt32) := do
  let current : UInt32 ← call node settings.rpcTimeout .currentHeight
  pure (if height ≤ current then some current else none)

theorem waitForTransaction_eq (node : Node σ) (settings : Settings) (hash : Digest) :
    waitForTransaction node settings hash =
      waitFor node settings .waitForTransaction (lookForTransaction node settings hash) := rfl

theorem waitForBlocks_eq (node : Node σ) (settings : Settings) (height : UInt32) :
    waitForBlocks node settings height =
      waitFor node settings .waitForBlocks (lookForHeight node settings height) := rfl

theorem confirmedAt_eq (confirmations height : UInt32) :
    confirmedAt confirmations height =
      min (height.toNat + max confirmations.toNat 1 - 1) (2 ^ 32 - 1) := by
  rw [confirmedAt, Nat.add_sub_assoc (Nat.le_max_right ..)]
  norm_num

section

variable (reply : (call : Call) → σ → Answer call.Reply × σ) (settings : Settings)

theorem shows_transaction (hash : Digest) :
    Shows settings (lookForTransaction (.ofReplies reply) settings hash)
      (transactionRound reply settings hash) := by
  refine Shows.ask fun included => ?_
  cases included with
  | none => exact shows_none
  | some height =>
    simp only [confirmedAt_eq]
    exact Shows.ask fun current => shows_ite

theorem shows_blocks (height : UInt32) :
    Shows settings (lookForHeight (.ofReplies reply) settings height)
      (blocksRound reply settings height) :=
  Shows.ask fun _ => shows_ite

/-- **Waiting is exact.** Whatever a node answers, round after round, a wait for a transaction and a
wait for a height end with the first round that ends them, or time out after the last one. -/
theorem wait_exact (w : World σ) (hp : 0 < settings.pollInterval)
    (hrange : w.now.nanos + settings.confirmationTimeout + settings.pollInterval +
      settings.rpcTimeout < instantReach) :
    (∀ hash, Exact settings .waitForTransaction
      (lookForTransaction (.ofReplies reply) settings hash) (transactionRound reply settings hash)
      (waitForTransaction (.ofReplies reply) settings hash) w) ∧
    ∀ height, Exact settings .waitForBlocks
      (lookForHeight (.ofReplies reply) settings height) (blocksRound reply settings height)
      (waitForBlocks (.ofReplies reply) settings height) w := by
  constructor
  · intro hash
    rw [waitForTransaction_eq]
    exact exact_waitFor (shows_transaction reply settings hash) hp hrange
  · intro height
    rw [waitForBlocks_eq]
    exact exact_waitFor (shows_blocks reply settings height) hp hrange

end

/-- A node that first knows nothing of any transaction, and then has it at height three. The state
is the number of the calls before, and the height of the chain too, with one block more. -/
def sampleReply : (call : Call) → Nat → Answer call.Reply × Nat
  | .transactionHeight _, n => (.value (if n = 0 then none else some 3), n + 1)
  | .currentHeight, n => (.value (.ofNat (n + 1)), n + 1)
  | _, n => (.silence, n)

/-- The transaction is not in a block at first, then not deep enough, and confirmed in the third
round. The chain stays too low for four rounds, after which the five nanoseconds are over. -/
theorem wait_exact_sample :
    let settings : Settings := { confirmationTimeout := 5, confirmations := 2, pollInterval := 2 }
    let w : World Nat := ⟨0, .epoch⟩
    (∃ t, Instant.epoch.after? (2 * 2 + 0) = some t ∧
      (waitForTransaction (.ofReplies sampleReply) settings .zero).runIn w = .ok (.ok 3, ⟨5, t⟩)) ∧
    ∃ t, Instant.epoch.after? (3 * 2) = some t ∧
      (waitForBlocks (.ofReplies sampleReply) settings 9).runIn w =
        .ok (.error (.timeout .waitForBlocks 5), ⟨4, t⟩) := by
  intro settings w
  obtain ⟨htransaction, hblocks⟩ := wait_exact sampleReply settings w (by decide) (by decide)
  constructor
  · refine (htransaction .zero).ends 2 (by decide) (fun j hj => ?_) (.ok 3) 0 rfl
    interval_cases j <;> rfl
  · have hlast : settings.lastRound = 3 := Nat.ceilDiv_eq_add_pred_div 5 2
    obtain ⟨t, ht, hrun⟩ := (hblocks 9).expires fun k hk => by
      rw [hlast] at hk
      interval_cases k <;> rfl
    rw [hlast] at ht hrun
    exact ⟨t, ht, hrun⟩

end Client

end ChainGovernance
