import ChainGovernance.Proofs.Node.Assembling

/-!
How pending transactions come into blocks.

A move either seals a block or leaves the chain as it is. If it seals one, all pending transactions go
into that block, whatever the reason it is sealed for; otherwise they stay pending, in front of what is
sent. So over a history the transactions that are pending go into the next block, all at once, and into
none if no move seals one.
-/

namespace ChainGovernance

open Node (Call Halt Reaction)

namespace Ledger

variable {l l' : Ledger}

/-- The moves that seal a block: the order to seal one, and two calls for which there are switches, if
the ledger answers them. A query for a transaction does not seal a block without transactions. -/
def Triggers (l : Ledger) : Move → Prop
  | .sealBlock => True
  | .call (.transactionHeight _) => l.Responsive ∧ l.switches.autoSeal = true ∧ l.pending ≠ []
  | .call (.foldRoot _) => l.Responsive ∧ l.switches.advanceOnFold = true
  | _ => False

/-- A block with all pending transactions is sealed on the last one. -/
structure Sweeps (l : Ledger) (b : Block) (l' : Ledger) : Prop where
  next : Block.Next l.tip b
  blocks : l'.blocks = l.blocks ++ [b]
  transactions : b.transactions = l.pending
  pending : l'.pending = []
  included : ∀ t ∈ l.pending, l'.included.lookup t.hash = some b.height

/-- The chain is as it was, and what was pending still is. -/
structure Keeps (l l' : Ledger) : Prop where
  blocks : l'.blocks = l.blocks
  included : l'.included = l.included
  pending : l.pending <+: l'.pending

theorem Keeps.refl (l : Ledger) : l.Keeps l := ⟨rfl, rfl, List.prefix_rfl⟩

theorem Keeps.trans {l₁ l₂ : Ledger} (h : l.Keeps l₁) (h' : l₁.Keeps l₂) : l.Keeps l₂ :=
  ⟨h'.blocks.trans h.blocks, h'.included.trans h.included, h.pending.trans h'.pending⟩

/-! ### One move -/

theorem exists_sweeps_of_sealBlock (h : l.sealBlock = .ok l') : ∃ b, l.Sweeps b l' := by
  obtain ⟨b, hnext, hts, rfl⟩ := sealBlock_eq_ok h
  refine ⟨b, hnext, rfl, hts, rfl, fun t ht => ?_⟩
  exact (lookup_foldl_bind ..).trans (if_pos ⟨t, ht, rfl⟩)

theorem state_of_not_responsive {call : Call} {r : Reaction Ledger call.Reply}
    (hl : ¬ l.Responsive) (h : respond call l = .ok r) : r.state = l := by
  refine state_of_no_value h fun ⟨v, hv⟩ => ?_
  exact hl (serve_of_value h hv).1

/-- A call that is answered seals a block, or takes in a transaction at most. -/
theorem Responsive.call_cases (hl : l.Responsive) {call : Call} (h : l.move (.call call) = .ok l') :
    l.Triggers (.call call) ∧ l.sealBlock = .ok l' ∨ ¬ l.Triggers (.call call) ∧ l.Keeps l' := by
  obtain ⟨r, hr, rfl⟩ := map_eq_ok_iff.1 h
  rw [hl.respond_eq] at hr
  cases call with
  | transactionHeight name =>
    simp only [serve, bind_eq_ok_iff, pure_eq_ok_iff] at hr
    obtain ⟨l₁, hl₁, rfl⟩ := hr
    rcases sealBlock_or_eq_of_sealIf hl₁ with ⟨hcondition, hseal⟩ | ⟨hcondition, rfl⟩
    · left
      simp only [Bool.and_eq_true, Bool.not_eq_true', List.isEmpty_eq_false_iff] at hcondition
      exact ⟨⟨hl, hcondition⟩, hseal⟩
    · right
      refine ⟨?_, .refl l₁⟩
      rintro ⟨-, hauto, hpending⟩
      rw [hauto, Bool.true_and, Bool.not_eq_false', List.isEmpty_iff] at hcondition
      exact hpending hcondition
  | foldRoot root =>
    simp only [serve, bind_eq_ok_iff, pure_eq_ok_iff] at hr
    obtain ⟨l₁, hl₁, rfl⟩ := hr
    rcases sealBlock_or_eq_of_sealIf hl₁ with ⟨hadvance, hseal⟩ | ⟨hadvance, rfl⟩
    · exact .inl ⟨⟨hl, hadvance⟩, hseal⟩
    · right
      refine ⟨?_, .refl l₁⟩
      rintro ⟨-, htrue⟩
      rw [hadvance] at htrue
      cases htrue
  | sendRawTransaction b =>
    refine .inr ⟨id, ?_⟩
    simp only [serve, send] at hr
    cases hdecode : (Transaction.format {}).decode b with
    | error e =>
      rw [hdecode] at hr
      obtain rfl := Except.ok.inj hr
      exact .refl l
    | ok t =>
      rw [hdecode] at hr
      obtain rfl := Except.ok.inj hr
      exact ⟨rfl, rfl, [t], rfl⟩
  | currentHeight | blockByHeight height | storage contract key =>
    obtain rfl := Except.ok.inj hr
    exact .inr ⟨id, .refl l⟩

theorem Triggers.responsive {call : Call} (h : l.Triggers (.call call)) : l.Responsive := by
  cases call with
  | transactionHeight name => exact h.1
  | foldRoot root => exact h.1
  | currentHeight | blockByHeight height | sendRawTransaction b | storage contract key =>
    exact h.elim

theorem move_cases {m : Move} (h : l.move m = .ok l') :
    l.Triggers m ∧ l.sealBlock = .ok l' ∨ ¬ l.Triggers m ∧ l.Keeps l' := by
  cases m with
  | sealBlock => exact .inl ⟨trivial, h⟩
  | turn switch on =>
    obtain rfl := Except.ok.inj h
    exact .inr ⟨id, rfl, rfl, List.prefix_rfl⟩
  | store contract key value =>
    obtain rfl := Except.ok.inj h
    exact .inr ⟨id, rfl, rfl, List.prefix_rfl⟩
  | call call =>
    by_cases hl : l.Responsive
    · exact hl.call_cases h
    · obtain ⟨r, hr, rfl⟩ := map_eq_ok_iff.1 h
      refine .inr ⟨fun htriggers => hl htriggers.responsive, ?_⟩
      rw [state_of_not_responsive hl hr]
      exact .refl l

/-! ### A history -/

/-- What is pending stays so up to the first move that seals a block, if there is one. -/
theorem keeps_or_sweeps_of_after {moves : List Move} (h : l.after moves = .ok l') :
    l.Keeps l' ∨ ∃ before m rest l₁ l₂ b, moves = before ++ m :: rest ∧
      l.after before = .ok l₁ ∧ l.Keeps l₁ ∧ l₁.Triggers m ∧ l₁.move m = .ok l₂ ∧
      l₁.Sweeps b l₂ ∧ l₂.after rest = .ok l' := by
  induction moves generalizing l with
  | nil =>
    obtain rfl := Except.ok.inj h
    exact .inl (.refl l)
  | cons m moves ih =>
    rw [after_cons, bind_eq_ok_iff] at h
    obtain ⟨l₁, hm, h⟩ := h
    rcases move_cases hm with ⟨htriggers, hseal⟩ | ⟨-, hkeeps⟩
    · obtain ⟨b, hsweeps⟩ := exists_sweeps_of_sealBlock hseal
      exact .inr ⟨[], m, moves, l, l₁, b, rfl, rfl, .refl l, htriggers, hm, hsweeps, h⟩
    · rcases ih h with hkeeps' | ⟨before, m', rest, l₂, l₃, b, rfl, hbefore, hkeeps', hrest⟩
      · exact .inl (hkeeps.trans hkeeps')
      · refine .inr ⟨m :: before, m', rest, l₂, l₃, b, rfl, ?_, hkeeps.trans hkeeps', hrest⟩
        rw [after_cons, hm]
        exact hbefore

/-- **Pending transactions come into blocks all at once, and only when a block is sealed.** A move seals
a block with all that is pending if it is the order to do so, a query for a transaction under its switch,
or a query for a folded root under its switch; under any other move they stay pending and no block is
added. So over a history either they are all still pending, and no block was added, or the first of
these moves has put all of them into the next block, before anything that was sent after them. -/
theorem pending_exact (l : Ledger) :
    (∀ m l', l.move m = .ok l' →
      (l.Triggers m → ∃ b, l.Sweeps b l') ∧ (¬ l.Triggers m → l.Keeps l')) ∧
    ∀ moves l', l.after moves = .ok l' → l.Keeps l' ∨
      ∃ before m rest l₁ b, moves = before ++ m :: rest ∧ l.after before = .ok l₁ ∧
        l.Keeps l₁ ∧ l₁.Triggers m ∧ l'.blocks[l.blocks.length]? = some b ∧
        b.transactions = l₁.pending := by
  constructor
  · intro m l' h
    rcases move_cases h with ⟨htriggers, hseal⟩ | ⟨htriggers, hkeeps⟩
    · exact ⟨fun _ => exists_sweeps_of_sealBlock hseal, fun hnot => absurd htriggers hnot⟩
    · exact ⟨fun hyes => absurd hyes htriggers, fun _ => hkeeps⟩
  · intro moves l' h
    rcases keeps_or_sweeps_of_after h with hkeeps | ⟨before, m, rest, l₁, l₂, b, hsplit, hbefore,
      hkeeps, htriggers, -, hsweeps, hrest⟩
    · exact .inl hkeeps
    · refine .inr ⟨before, m, rest, l₁, b, hsplit, hbefore, hkeeps, htriggers, ?_,
        hsweeps.transactions⟩
      obtain ⟨later, hlater⟩ := blocks_prefix_of_after hrest
      rw [← hlater, hsweeps.blocks, hkeeps.blocks, List.append_assoc,
        List.getElem?_append_right (le_refl _), Nat.sub_self]
      rfl

/-- One transaction is sent, and folding a root is to seal a block. -/
def sentThenAdvancing : List Move :=
  [.call (.sendRawTransaction sampleTransaction.encode), .turn .advanceOnFold true]

theorem pending_exact_folding :
    ∃ l, (new 5).after sentThenAdvancing = .ok l ∧ (new 5).Keeps l ∧
      l.pending = [sampleTransaction] ∧
      ∃ b l', l.move (.call (.foldRoot .zero)) = .ok l' ∧ l.Sweeps b l' ∧
        b.transactions = [sampleTransaction] := by
  have hpending : ((new 5).after sentThenAdvancing).map (fun l =>
      (l.pending, l.blocks.length, l.switches,
        (l.move (.call (.foldRoot .zero))).map (·.blocks.length))) =
      .ok ([sampleTransaction], 1, { advanceOnFold := true }, .ok 2) := by
    decide +kernel
  obtain ⟨l, hl, hl'⟩ := map_eq_ok_iff.1 hpending
  simp only [Prod.mk.injEq] at hl'
  obtain ⟨hsent, hlength, hswitches, hmove⟩ := hl'
  obtain ⟨l', hl', -⟩ := map_eq_ok_iff.1 hmove
  have htriggers : l.Triggers (.call (.foldRoot .zero)) := by
    refine ⟨⟨?_, ?_⟩, ?_⟩ <;> rw [hswitches]
  obtain ⟨b, hsweeps⟩ := ((pending_exact l).1 _ l' hl').1 htriggers
  refine ⟨l, hl, ?_, hsent, b, l', hl', hsweeps, hsweeps.transactions.trans hsent⟩
  rcases (pending_exact (new 5)).2 _ l hl with hkeeps | ⟨before, m, rest, l₁, b', -, -, -, -, hb, -⟩
  · exact hkeeps
  · -- a block at the second place would be one block too many
    have hnone : l.blocks[(new 5).blocks.length]? = none :=
      List.getElem?_eq_none (le_of_eq hlength)
    rw [hnone] at hb
    cases hb

/-- Folding a root seals what is pending, too, although no query for a transaction was made. -/
theorem pending_folded :
    ∃ l l', (new 5).after sentThenAdvancing = .ok l ∧ l.switches.autoSeal = false ∧
      l.pending = [sampleTransaction] ∧ l.move (.call (.foldRoot .zero)) = .ok l' ∧
      l'.pending = [] ∧ l'.blocks.map (·.transactions) = [[], [sampleTransaction]] := by
  have hrun : ((new 5).after sentThenAdvancing).map (fun l =>
      (l.switches.autoSeal, l.pending,
        (l.move (.call (.foldRoot .zero))).map (fun l' =>
          (l'.pending, l'.blocks.map (·.transactions))))) =
      .ok (false, [sampleTransaction], .ok ([], [[], [sampleTransaction]])) := by
    decide +kernel
  obtain ⟨l, hl, hl'⟩ := map_eq_ok_iff.1 hrun
  simp only [Prod.mk.injEq] at hl'
  obtain ⟨hauto, hsent, hmove⟩ := hl'
  obtain ⟨l', hl', hfolded⟩ := map_eq_ok_iff.1 hmove
  obtain ⟨hpending, hblocks⟩ := Prod.mk.inj hfolded
  exact ⟨l, l', hl, hauto, hsent, hl', hpending, hblocks⟩

end Ledger

end ChainGovernance
