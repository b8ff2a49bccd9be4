import Mathlib.Tactic
import ChainGovernance.Candidate
import ChainGovernance.Proofs.Node.Answering
import ChainGovernance.Proofs.Node.Running

/-!
Candidates for the tip of a ledger.

A candidate is assembled in four calls, and others may use the ledger between any two of them. What
they do only ever adds blocks to the chain (`grows_of_after`), so the block that was read stays
where it was, and the height that is read in the end tells whether blocks were added.
`candidate_exact` says what comes out: a candidate for the tip if none were, and otherwise how far
the chain has moved on.
-/

namespace ChainGovernance

open Node (Call Halt Reaction)

/-! ### Blocks that extend a tip -/

/-- `b` could follow `a` in a chain. -/
structure Block.Candidate (a b : Block) : Prop where
  height : b.height.toNat = a.height.toNat + 1
  prevHash : b.header.prevHash = a.hash
  timestamp : a.header.timestamp < b.header.timestamp
  transactionsRoot : b.header.transactionsRoot = transactionsRoot b.transactions
  blockRoot : b.header.blockRoot = foldRoot a.header.blockRoot b.header.transactionsRoot

namespace Block

theorem lt_of_timestampAfter? {last wanted t : UInt32}
    (h : timestampAfter? last wanted = some t) : last < t := by
  unfold timestampAfter? at h
  split at h
  · obtain rfl := Option.some.inj h
    assumption
  · have := toNat_of_successor? h
    exact UInt32.lt_iff_toNat_lt.2 (by omega)

theorem exists_successor?_iff {n : UInt32} :
    (∃ m, successor? n = some m) ↔ n.toNat < 2 ^ 32 - 1 := by
  have hlt := n.toNat_lt
  have hlast : n = 0xFFFFFFFF ↔ n.toNat = 2 ^ 32 - 1 := UInt32.toNat_inj.symm
  unfold successor?
  split <;> rename_i hn <;> rw [hlast] at hn
  · simp only [reduceCtorEq, exists_false, false_iff]
    omega
  · simp only [Option.some.injEq, exists_eq', true_iff]
    omega

theorem exists_timestampAfter?_iff {last : UInt32} (wanted : UInt32) :
    (∃ t, timestampAfter? last wanted = some t) ↔ last.toNat < 2 ^ 32 - 1 := by
  unfold timestampAfter?
  split
  · have := wanted.toNat_lt
    have := UInt32.lt_iff_toNat_lt.1 ‹last < wanted›
    simp only [Option.some.injEq, exists_eq', true_iff]
    omega
  · exact exists_successor?_iff

/-- A tip can be extended if its height and its timestamp have successors. -/
theorem exists_extend_iff {tip : Tip} {version timestamp : UInt32} {blockRoot : Digest}
    {consensus : Consensus} {ts : List Transaction} :
    (∃ b, extend tip version timestamp blockRoot consensus ts = .ok b) ↔
      tip.height.toNat < 2 ^ 32 - 1 ∧ tip.timestamp.toNat < 2 ^ 32 - 1 := by
  rw [← exists_successor?_iff, ← exists_timestampAfter?_iff timestamp]
  simp only [extend_eq_ok_iff]
  constructor
  · rintro ⟨b, height, time, hheight, htime, -⟩
    exact ⟨⟨height, hheight⟩, time, htime⟩
  · rintro ⟨⟨height, hheight⟩, time, htime⟩
    exact ⟨_, height, time, hheight, htime, rfl⟩

theorem candidate_of_extend {a b : Block} {version timestamp : UInt32}
    {consensus : Consensus} {ts : List Transaction}
    (h : extend a.tip version timestamp
      (foldRoot a.header.blockRoot (ChainGovernance.transactionsRoot ts)) consensus ts = .ok b) :
    Candidate a b ∧ b.transactions = ts := by
  obtain ⟨height, time, hheight, htime, rfl⟩ := extend_eq_ok_iff.1 h
  exact ⟨⟨toNat_of_successor? hheight, rfl, lt_of_timestampAfter? htime, rfl, rfl⟩, rfl⟩

end Block

/-! ### Four calls -/

namespace Client

variable {σ : Type} {w : World σ}

/-- What is assembled from the answers to the four calls. -/
theorem runIn_assemble {node : Node σ} (timeout : Nat) (version timestamp : UInt32)
    {ts : List Transaction} (consensus : Consensus) {s₁ s₂ s₃ s₄ : σ} {height found : UInt32}
    {block : Block} {root : Digest}
    (hheight : node.respond .currentHeight w.node = .ok ⟨.value height, s₁, 0⟩)
    (hblock : node.respond (.blockByHeight height) s₁ = .ok ⟨.value (some block), s₂, 0⟩)
    (hroot : node.respond (.foldRoot (transactionsRoot ts)) s₂ = .ok ⟨.value root, s₃, 0⟩)
    (hfound : node.respond .currentHeight s₃ = .ok ⟨.value found, s₄, 0⟩) :
    (assemble node timeout version ts timestamp consensus).runIn w =
      .ok (if found = block.height
        then Block.extend block.tip version timestamp root consensus ts
        else .error (.staleTip block.height found), ⟨s₄, w.now⟩) := by
  rw [assemble, runIn_bind_of_ok (runIn_call_value hheight),
    runIn_bind_of_ok (runIn_call_value hblock)]
  simp only
  rw [runIn_bind_of_ok (runIn_call_value hroot), runIn_bind_of_ok (runIn_call_value hfound)]
  change runIn (if found ≠ block.height then _ else _) _ = _
  by_cases h : found = block.height
  · rw [if_neg (not_not.2 h), if_pos h]
    rfl
  · rw [if_pos h, if_neg h]
    rfl

end Client

namespace Ledger

variable {l l' : Ledger} {genesis : UInt32}

/-! ### Chains only grow -/

theorem blocks_prefix_of_change (h : Change l l') : l.blocks <+: l'.blocks := by
  cases h with
  | sealed h =>
    obtain ⟨b, -, -, rfl⟩ := sealBlock_eq_ok h
    exact ⟨[b], rfl⟩
  | taken h => exact List.prefix_rfl
  | kept storage switches => exact List.prefix_rfl

theorem after_append {moves moves' : List Move} :
    l.after (moves ++ moves') = l.after moves >>= fun l => l.after moves' := List.foldlM_append ..

theorem after_cons {m : Move} {moves : List Move} :
    l.after (m :: moves) = l.move m >>= fun l => l.after moves := List.foldlM_cons ..

theorem blocks_prefix_of_after {moves : List Move} (h : l.after moves = .ok l') :
    l.blocks <+: l'.blocks := by
  induction moves generalizing l with
  | nil =>
    obtain rfl := Except.ok.inj h
    exact List.prefix_rfl
  | cons m moves ih =>
    rw [after_cons, bind_eq_ok_iff] at h
    obtain ⟨l₁, hl₁, h⟩ := h
    exact (blocks_prefix_of_change (change_of_move hl₁)).trans (ih h)

/-- The use of a ledger that leaves its switches alone. -/
def Move.IsUse : Move → Prop
  | .turn .. => False
  | _ => True

instance : DecidablePred Move.IsUse
  | .turn .. => inferInstanceAs (Decidable False)
  | .sealBlock | .store .. | .call _ => inferInstanceAs (Decidable True)

theorem switches_of_move {m : Move} (hm : m.IsUse) (h : l.move m = .ok l') :
    l'.switches = l.switches := by
  cases m with
  | sealBlock =>
    obtain ⟨b, -, -, rfl⟩ := sealBlock_eq_ok h
    rfl
  | turn switch on => exact hm.elim
  | store contract key value =>
    obtain rfl := Except.ok.inj h
    rfl
  | call call =>
    obtain ⟨r, hr, rfl⟩ := map_eq_ok_iff.1 h
    rcases respond_cases hr with hstate | ⟨-, -, hswitches⟩
    · rw [hstate]
    · exact hswitches

theorem switches_of_after {moves : List Move} (hmoves : ∀ m ∈ moves, m.IsUse)
    (h : l.after moves = .ok l') : l'.switches = l.switches := by
  induction moves generalizing l with
  | nil =>
    obtain rfl := Except.ok.inj h
    rfl
  | cons m moves ih =>
    obtain ⟨hm, hmoves⟩ := List.forall_mem_cons.1 hmoves
    rw [after_cons, bind_eq_ok_iff] at h
    obtain ⟨l₁, hl₁, h⟩ := h
    exact (ih hmoves h).trans (switches_of_move hm hl₁)

/-- What does not turn the switches only adds blocks. -/
theorem grows_of_after {moves : List Move} (hmoves : ∀ m ∈ moves, m.IsUse)
    (h : l.after moves = .ok l') : l.blocks <+: l'.blocks ∧ l'.switches = l.switches :=
  ⟨blocks_prefix_of_after h, switches_of_after hmoves h⟩

theorem Responsive.after (hl : l.Responsive) {moves : List Move} (hmoves : ∀ m ∈ moves, m.IsUse)
    (h : l.after moves = .ok l') : l'.Responsive :=
  hl.of_switches (switches_of_after hmoves h)

theorem tip_eq_of_blocks_eq (h : l.blocks = l'.blocks) : l.tip = l'.tip :=
  List.singleton_inj.1 (List.append_inj' h rfl).2

theorem Consistent.blocks_at_tip (h : l.Consistent genesis) :
    l.blocks[l.tip.height.toNat]? = some l.tip := by
  rw [h.toNat_height_tip, blocks, List.getElem?_concat_length]

/-- A tip stays where it is while the chain grows. -/
theorem Consistent.tip_of_prefix (h : l.Consistent genesis) (hblocks : l.blocks <+: l'.blocks) :
    l'.blocks[l.tip.height.toNat]? = some l.tip := by
  obtain ⟨hlt, -⟩ := List.getElem?_eq_some_iff.1 h.blocks_at_tip
  obtain ⟨added, hadded⟩ := hblocks
  rw [← hadded, List.getElem?_append_left hlt, h.blocks_at_tip]

/-- The tip rises by the number of blocks that are added. -/
theorem Consistent.toNat_height_of_grown (h : l.Consistent genesis) (h' : l'.Consistent genesis)
    {added : List Block} (hblocks : l'.blocks = l.blocks ++ added) :
    l'.tip.height.toNat = l.tip.height.toNat + added.length := by
  have hlength := congrArg List.length hblocks
  rw [h.toNat_height_tip, h'.toNat_height_tip]
  simp only [blocks, List.length_append, List.length_singleton] at hlength
  omega

end Ledger

/-! ### Ledgers that others use -/

/-- A ledger, and what others do with it after each of the next calls. -/
structure Shared where
  ledger : Ledger
  turns : List (List Ledger.Move)

namespace Shared

open Ledger

/-- A call is answered, and then the others have their turn. -/
def node : Node Shared where
  respond call s := do
    let r ← Ledger.respond call s.ledger
    let l ← r.state.after (s.turns.headD [])
    pure ⟨r.answer, ⟨l, s.turns.tail⟩, r.lag⟩

variable {l l₁ l₂ : Ledger} {call : Call} {v : call.Reply} {turn : List Move}
  {turns : List (List Move)}

theorem respond_node (h : Ledger.respond call l = .ok ⟨.value v, l₁, 0⟩)
    (hturn : l₁.after turn = .ok l₂) :
    node.respond call ⟨l, turn :: turns⟩ = .ok ⟨.value v, ⟨l₂, turns⟩, 0⟩ := by
  change (Ledger.respond call l >>= _) = _
  rw [h]
  change (l₁.after turn >>= _) = _
  rw [hturn]
  rfl

theorem respond_node_nil (h : Ledger.respond call l = .ok ⟨.value v, l₁, 0⟩) :
    node.respond call ⟨l, []⟩ = .ok ⟨.value v, ⟨l₁, []⟩, 0⟩ := by
  change (Ledger.respond call l >>= _) = _
  rw [h]
  rfl

section Assemble

variable {genesis : UInt32} {l l' : Ledger} {first second third : List Move}
  {ts : List Transaction}

/-- The root is folded into that of a ledger on the way, whose blocks lie between those at the first
call and those at the last. -/
theorem runIn_assemble (timeout : Nat) (version timestamp : UInt32) (consensus : Consensus)
    (now : Instant) (hl : l.Consistent genesis) (hresponsive : l.Responsive)
    (huse : ∀ m ∈ first ++ second ++ third, m.IsUse)
    (hl' : l.after (first ++ second ++ .call (.foldRoot (transactionsRoot ts)) :: third) = .ok l') :
    ∃ l₂ : Ledger, l.blocks <+: l₂.blocks ∧ l₂.blocks <+: l'.blocks ∧
      (Client.assemble node timeout version ts timestamp consensus).runIn
          ⟨⟨l, [first, second, third]⟩, now⟩ =
        .ok (if l'.tip.height = l.tip.height
          then Block.extend l.tip.tip version timestamp
            (foldRoot l₂.tip.header.blockRoot (transactionsRoot ts)) consensus ts
          else .error (.staleTip l.tip.height l'.tip.height), ⟨⟨l', []⟩, now⟩) := by
  obtain ⟨l₂, h₂, hl'⟩ := bind_eq_ok_iff.1 (after_append.symm.trans hl')
  obtain ⟨l₁, h₁, h₂⟩ := bind_eq_ok_iff.1 (after_append.symm.trans h₂)
  obtain ⟨l₃, hfold, h₃⟩ := bind_eq_ok_iff.1 (after_cons.symm.trans hl')
  obtain ⟨huse, huse₃⟩ := List.forall_mem_append.1 huse
  obtain ⟨huse₁, huse₂⟩ := List.forall_mem_append.1 huse
  have hlast : ∀ m ∈ .call (.foldRoot (transactionsRoot ts)) :: third, m.IsUse :=
    List.forall_mem_cons.2 ⟨trivial, huse₃⟩
  have hgrown₁ := (grows_of_after huse₁ h₁).1
  have hgrown₂ := hgrown₁.trans (grows_of_after huse₂ h₂).1
  have hresponsive₁ := hresponsive.after huse₁ h₁
  have hresponsive₂ := hresponsive₁.after huse₂ h₂
  have hblock := hresponsive₁.blockByHeight l.tip.height
  rw [hl.tip_of_prefix hgrown₁] at hblock
  exact ⟨l₂, hgrown₂, (grows_of_after hlast hl').1,
    Client.runIn_assemble timeout version timestamp consensus
      (respond_node hresponsive.currentHeight h₁) (respond_node hblock h₂)
      (respond_node (hresponsive₂.foldRoot hfold) h₃)
      (respond_node_nil (hresponsive₂.after hlast hl').currentHeight)⟩

/-- **Stale tips are found out.** While a candidate is assembled, others use the ledger between the
calls. If no block is sealed from the first call to the last, the outcome is the extension of the
tip, with a root that is folded on that very tip; otherwise it is how far the tip has moved on. -/
theorem candidate_exact (genesis : UInt32) (moves first second third : List Move)
    (l l' : Ledger) (timeout : Nat) (version timestamp : UInt32) (ts : List Transaction)
    (consensus : Consensus) (now : Instant)
    (hl : (Ledger.new genesis).after moves = .ok l) (hresponsive : l.Responsive)
    (huse : ∀ m ∈ first ++ second ++ third, m.IsUse)
    (hl' : l.after (first ++ second ++ .call (.foldRoot (transactionsRoot ts)) :: third) = .ok l') :
    let run := (Client.assemble node timeout version ts timestamp consensus).runIn
      ⟨⟨l, [first, second, third]⟩, now⟩
    let extension := Block.extend l'.tip.tip version timestamp
      (foldRoot l'.tip.header.blockRoot (transactionsRoot ts)) consensus ts
    ∃ added, l'.blocks = l.blocks ++ added ∧
      (added = [] → run = .ok (extension, ⟨⟨l', []⟩, now⟩)) ∧
      (added ≠ [] → ∃ found : UInt32, found.toNat = l.tip.height.toNat + added.length ∧
        run = .ok (.error (.staleTip l.tip.height found), ⟨⟨l', []⟩, now⟩)) ∧
      ∀ b w, run = .ok (.ok b, w) → l'.tip.Candidate b ∧ b.transactions = ts := by
  intro run extension
  have hconsistent : l.Consistent genesis := (consistent_new genesis).after hl
  obtain ⟨l₂, hgrown, hgrown', hrun⟩ :=
    runIn_assemble timeout version timestamp consensus now hconsistent hresponsive huse hl'
  obtain ⟨added, hadded⟩ := hgrown.trans hgrown'
  have hheight : l'.tip.height.toNat = l.tip.height.toNat + added.length :=
    hconsistent.toNat_height_of_grown (hconsistent.after hl') hadded.symm
  have hsame : added = [] → run = .ok (extension, ⟨⟨l', []⟩, now⟩) := by
    rintro rfl
    rw [List.append_nil] at hadded
    have hblocks : l.blocks = l₂.blocks := hgrown.eq_of_length_le (hadded ▸ hgrown'.length_le)
    rw [← tip_eq_of_blocks_eq hblocks, tip_eq_of_blocks_eq hadded, if_pos rfl] at hrun
    exact hrun
  have hstale : added ≠ [] →
      run = .ok (.error (.staleTip l.tip.height l'.tip.height), ⟨⟨l', []⟩, now⟩) := by
    intro hne
    have hlength := List.length_pos_iff.2 hne
    rw [if_neg fun h => by rw [h] at hheight; omega] at hrun
    exact hrun
  refine ⟨added, hadded.symm, hsame, fun hne => ⟨l'.tip.height, hheight, hstale hne⟩, ?_⟩
  intro b w hb
  by_cases hnil : added = []
  · rw [hsame hnil] at hb
    exact Block.candidate_of_extend (Prod.mk.inj (Except.ok.inj hb)).1
  · rw [hstale hnil] at hb
    cases hb

/-- A transaction is sent while a candidate is assembled, which becomes the second block. On a chain
that seals at folds, a block is sealed as well before the third call, and the tip is two blocks off.
-/
theorem candidate_exact_sample :
    let assembled := fun l turns =>
      (Client.assemble node 0 1 [sampleTransaction] 9 {}).runIn ⟨⟨l, turns⟩, .epoch⟩
    (∃ b w, assembled (.new 5) [[.call (.sendRawTransaction sampleTransaction.encode)], [], []] =
      .ok (.ok b, w) ∧ (Ledger.new 5).tip.Candidate b) ∧
    ∃ l found w, (Ledger.new 5).after [.turn .advanceOnFold true] = .ok l ∧
      assembled l [[], [.sealBlock], []] = .ok (.error (.staleTip 0 found), w) ∧
      found.toNat = 2 := by
  intro assembled
  let sent : List Move := [.call (.sendRawTransaction sampleTransaction.encode)]
  let fold : Move := .call (.foldRoot (transactionsRoot [sampleTransaction]))
  constructor
  · have hblocks : ((Ledger.new 5).after (sent ++ [] ++ fold :: [])).map (·.blocks) =
        .ok (Ledger.new 5).blocks := by decide +kernel
    obtain ⟨l', hl', hblocks⟩ := map_eq_ok_iff.1 hblocks
    obtain ⟨added, hadded, hsame, -, hcandidate⟩ := candidate_exact 5 [] sent [] [] (.new 5) l'
      0 1 9 [sampleTransaction] {} .epoch rfl ⟨rfl, rfl⟩ (by decide) hl'
    have hnone : added = [] := List.self_eq_append_right.1 (hblocks.symm.trans hadded)
    have htip : l'.tip = (Ledger.new 5).tip := tip_eq_of_blocks_eq hblocks
    obtain ⟨b, hb⟩ : ∃ b, Block.extend l'.tip.tip 1 9
        (foldRoot l'.tip.header.blockRoot (transactionsRoot [sampleTransaction])) {}
        [sampleTransaction] = .ok b := by
      rw [htip]
      exact ⟨_, rfl⟩
    have hrun := hb ▸ hsame hnone
    exact ⟨b, _, hrun, htip ▸ (hcandidate b _ hrun).1⟩
  · let l : Ledger := { Ledger.new 5 with switches := { advanceOnFold := true } }
    have hlength : (l.after ([] ++ [.sealBlock] ++ fold :: [])).map (·.blocks.length) = .ok 3 := by
      decide +kernel
    obtain ⟨l', hl', hlength⟩ := map_eq_ok_iff.1 hlength
    obtain ⟨added, hadded, -, hstale, -⟩ := candidate_exact 5 [.turn .advanceOnFold true] []
      [.sealBlock] [] l l' 0 1 9 [sampleTransaction] {} .epoch rfl ⟨rfl, rfl⟩ (by decide) hl'
    have htwo : added.length = 2 := by
      rw [hadded, List.length_append] at hlength
      exact Nat.succ_inj.1 ((Nat.add_comm ..).trans hlength)
    obtain ⟨found, hfound, hrun⟩ := hstale fun hnil => by rw [hnil] at htwo; cases htwo
    exact ⟨l, found, _, rfl, hrun, hfound.trans (congrArg (0 + ·) htwo)⟩

end Assemble

end Shared

end ChainGovernance
