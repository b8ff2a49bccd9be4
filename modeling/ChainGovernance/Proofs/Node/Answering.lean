import Mathlib.Tactic
import ChainGovernance.Proofs.Node.History

/-!
What a ledger answers.

A ledger that is neither silent nor unavailable serves every call, and one that answers with a value
is so. Queries for a transaction may seal a block; asked again, they get the same answer, and
nothing more changes.
-/

namespace ChainGovernance

open Node (Call Halt Reaction)

namespace Ledger

variable {l l' : Ledger} {name : Digest}

/-! ### Ledgers that are willing to answer -/

/-- The ledger answers calls. -/
structure Responsive (l : Ledger) : Prop where
  available : l.switches.unavailable = false
  awake : l.switches.hang = false

theorem Responsive.respond_eq (h : l.Responsive) (call : Call) : respond call l = l.serve call := by
  rw [respond, if_neg (by simp [h.available]), if_neg (by simp [h.awake])]

/-- Whether calls are answered is a matter of the switches. -/
theorem Responsive.of_switches (h : l.Responsive) (hswitches : l'.switches = l.switches) :
    l'.Responsive :=
  ⟨hswitches ▸ h.available, hswitches ▸ h.awake⟩

theorem Responsive.currentHeight (h : l.Responsive) :
    respond .currentHeight l = .ok ⟨.value l.tip.height, l, 0⟩ := h.respond_eq _

theorem Responsive.blockByHeight (h : l.Responsive) (height : UInt32) :
    respond (.blockByHeight height) l = .ok ⟨.value l.blocks[height.toNat]?, l, 0⟩ := h.respond_eq _

/-- The root is folded into that of the tip, also if a block is sealed thereupon. -/
theorem Responsive.foldRoot (h : l.Responsive) {root : Digest}
    (hl : l.move (.call (.foldRoot root)) = .ok l') :
    respond (.foldRoot root) l =
      .ok ⟨.value (ChainGovernance.foldRoot l.tip.header.blockRoot root), l', 0⟩ := by
  obtain ⟨r, hr, rfl⟩ := map_eq_ok_iff.1 hl
  rw [h.respond_eq, serve, bind_eq_ok_iff] at hr
  obtain ⟨l', hl', hr⟩ := hr
  obtain rfl := pure_eq_ok_iff.1 hr
  rw [h.respond_eq, serve, hl']
  rfl

theorem Responsive.foldRoot_keeps (h : l.Responsive)
    (hfold : l.switches.advanceOnFold = false) (root : Digest) :
    respond (.foldRoot root) l =
      .ok ⟨.value (ChainGovernance.foldRoot l.tip.header.blockRoot root), l, 0⟩ := by
  rw [h.respond_eq, serve, hfold]
  rfl

/-! ### The end of a chain -/

theorem sealIf_eq_error {condition : Bool} {h : Halt} (hl : l.sealIf condition = .error h) :
    h = .chainExhausted := by
  unfold sealIf sealBlock at hl
  split at hl
  · split at hl
    · exact (Except.error.inj hl).symm
    · cases hl
  · cases hl

/-- All that stops a ledger is the end of its chain. -/
theorem respond_eq_error {call : Call} {h : Halt} (hl : respond call l = .error h) :
    h = .chainExhausted := by
  unfold respond at hl
  split at hl
  · cases hl
  split at hl
  · cases hl
  cases call with
  | sendRawTransaction b =>
    simp only [serve] at hl
    split at hl <;> cases hl
  | transactionHeight name =>
    simp only [serve, bind_eq_error_iff] at hl
    rcases hl with hl | ⟨l', -, hl⟩
    · exact sealIf_eq_error hl
    · cases hl
  | foldRoot root =>
    simp only [serve, bind_eq_error_iff] at hl
    rcases hl with hl | ⟨l', -, hl⟩
    · exact sealIf_eq_error hl
    · cases hl
  | currentHeight | blockByHeight height | storage contract key => cases hl

/-! ### What an answer tells -/

theorem serve_of_value {call : Call} {r : Reaction Ledger call.Reply} {v : call.Reply}
    (h : respond call l = .ok r) (hv : r.answer = .value v) :
    l.Responsive ∧ l.serve call = .ok r := by
  unfold respond at h
  split at h
  · obtain rfl := Except.ok.inj h
    cases hv
  split at h
  · obtain rfl := Except.ok.inj h
    cases hv
  exact ⟨⟨Bool.eq_false_of_not_eq_true ‹_›, Bool.eq_false_of_not_eq_true ‹_›⟩, h⟩

theorem state_of_no_value {call : Call} {r : Reaction Ledger call.Reply}
    (h : respond call l = .ok r) (hv : ¬ ∃ v, r.answer = .value v) : r.state = l := by
  rcases respond_cases h with hstate | ⟨hvalue, -⟩
  · exact hstate
  · exact absurd hvalue hv

theorem respond_currentHeight {r : Reaction Ledger UInt32} (h : respond .currentHeight l = .ok r) :
    r.state = l ∧ ∀ c, r.answer = .value c → c = l.tip.height := by
  constructor
  · by_cases hv : ∃ v, r.answer = .value v
    · obtain ⟨v, hv⟩ := hv
      obtain rfl := Except.ok.inj (serve_of_value h hv).2
      rfl
    · exact state_of_no_value h hv
  · intro c hc
    obtain rfl := Except.ok.inj (serve_of_value h hc).2
    cases hc
    rfl

/-- Bytes that are a transaction are taken in exactly if they are answered for. -/
theorem respond_sendRawTransaction {b : Bytes} {t : Transaction} {r : Reaction Ledger Digest}
    (ht : (Transaction.format {}).decode b = .ok t)
    (h : respond (.sendRawTransaction b) l = .ok r) :
    (r.state.submitted = l.submitted ∧ ¬ ∃ v, r.answer = .value v) ∨
      r.state.submitted = l.submitted ++ [b] := by
  by_cases hv : ∃ v, r.answer = .value v
  · obtain ⟨v, hv⟩ := hv
    have hserve := (serve_of_value h hv).2
    simp only [serve, send, ht] at hserve
    obtain rfl := Except.ok.inj hserve
    exact .inr rfl
  · exact .inl ⟨by rw [state_of_no_value h hv], hv⟩

/-! ### Queries for a transaction -/

/-- Either nothing happens, or the pending transactions are sealed. -/
theorem sealIf_cases {condition : Bool} (h : l.sealIf condition = .ok l') :
    l' = l ∨ l'.pending = [] ∧ l'.submitted = l.submitted := by
  rcases sealBlock_or_eq_of_sealIf h with ⟨-, hseal⟩ | ⟨-, rfl⟩
  · obtain ⟨b, -, -, rfl⟩ := sealBlock_eq_ok hseal
    exact .inr ⟨rfl, rfl⟩
  · exact .inl rfl

/-- After a query, nothing is left to seal for another one. -/
theorem sealIf_again (h : l.sealIf (l.switches.autoSeal && !l.pending.isEmpty) = .ok l') :
    l'.sealIf (l'.switches.autoSeal && !l'.pending.isEmpty) = .ok l' := by
  rcases sealIf_cases h with rfl | ⟨hpending, -⟩
  · exact h
  · rw [hpending, List.isEmpty_nil, Bool.not_true, Bool.and_false]
    rfl

theorem submitted_of_transactionHeight {r : Reaction Ledger (Option UInt32)}
    (h : respond (.transactionHeight name) l = .ok r) : r.state.submitted = l.submitted := by
  by_cases hv : ∃ v, r.answer = .value v
  · obtain ⟨v, hv⟩ := hv
    have hserve := (serve_of_value h hv).2
    simp only [serve, bind_eq_ok_iff, pure_eq_ok_iff] at hserve
    obtain ⟨l', hl', rfl⟩ := hserve
    rcases sealIf_cases hl' with rfl | ⟨-, hsubmitted⟩
    · rfl
    · exact hsubmitted
  · rw [state_of_no_value h hv]

theorem transactionHeight_again {r : Reaction Ledger (Option UInt32)} {v : Option UInt32}
    (h : respond (.transactionHeight name) l = .ok r) (hv : r.answer = .value v) :
    respond (.transactionHeight name) r.state = .ok ⟨.value v, r.state, 0⟩ := by
  obtain ⟨hresponsive, hserve⟩ := serve_of_value h hv
  simp only [serve, bind_eq_ok_iff, pure_eq_ok_iff] at hserve
  obtain ⟨l', hl', rfl⟩ := hserve
  cases hv
  have hresponsive' : l'.Responsive := hresponsive.of_switches (switches_of_sealIf hl')
  rw [hresponsive'.respond_eq, serve, sealIf_again hl']
  rfl

end Ledger

end ChainGovernance
