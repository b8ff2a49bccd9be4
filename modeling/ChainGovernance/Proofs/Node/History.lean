import Mathlib.Tactic
import ChainGovernance.Node.Ledger
import ChainGovernance.Proofs.Results

/-!
Histories of a ledger.

A history is any list of moves: blocks that are sealed, switches that are turned, values that are
stored, and calls of clients. What a move does to a ledger is one of three changes, and each of them
keeps the ledger `Consistent`: its blocks form a chain from the first one, they and the pending
transactions are all that was sent, and the heights of inclusion are the last ones.
-/

namespace ChainGovernance

open Node (Call Halt Reaction)

/-- The switches of a ledger, one by one. -/
inductive Switch
  | autoSeal
  | advanceOnFold
  | hang
  | unavailable
  | misreportHashes

def Switches.turn (s : Switches) (on : Bool) : Switch → Switches
  | .autoSeal => { s with autoSeal := on }
  | .advanceOnFold => { s with advanceOnFold := on }
  | .hang => { s with hang := on }
  | .unavailable => { s with unavailable := on }
  | .misreportHashes => { s with misreportHashes := on }

/-- `b` is sealed on `a`. -/
structure Block.Next (a b : Block) : Prop where
  height : b.height.toNat = a.height.toNat + 1
  prevHash : b.header.prevHash = a.hash
  timestamp : b.header.timestamp.toNat = a.header.timestamp.toNat + 1
  transactionsRoot : b.header.transactionsRoot = transactionsRoot b.transactions
  blockRoot : b.header.blockRoot = foldRoot a.header.blockRoot b.header.transactionsRoot
  consensus : b.header.consensus = {}
  unsigned : b.header.bookkeepers = [] ∧ b.header.signatures = []

namespace Ledger

/-- What can be done with a ledger. -/
inductive Move
  | sealBlock
  | turn (switch : Switch) (on : Bool)
  | store (contract : Address) (key value : Bytes)
  | call (call : Call)

def move (l : Ledger) : Move → Except Halt Ledger
  | .sealBlock => l.sealBlock
  | .turn switch on => .ok { l with switches := l.switches.turn on switch }
  | .store contract key value => .ok (l.store contract key value)
  | .call call => (respond call l).map (·.state)

/-- The ledger after a history, unless a block had no room in it. -/
def after (l : Ledger) (moves : List Move) : Except Halt Ledger := moves.foldlM move l

/-- **The invariant of a history** that starts with a first block at some time. -/
structure Consistent (genesis : UInt32) (l : Ledger) : Prop where
  first : l.blocks.head? = some (.genesis genesis)
  height : ∀ (i : Nat) (b : Block), l.blocks[i]? = some b → b.height.toNat = i
  linked : l.blocks.IsChain Block.Next
  taken : l.submitted.map (Transaction.format {}).decode =
    (l.blocks.flatMap (·.transactions) ++ l.pending).map .ok
  included : ∀ name h, l.included.lookup name = some h ↔
    IsGreatest {n | ∃ b ∈ l.blocks, b.height.toNat = n ∧ ∃ t ∈ b.transactions, t.hash = name}
      h.toNat

/-! ### Changes -/

/-- What a move may do: seal a block, take in a transaction, or leave the chain as it is. -/
inductive Change (l : Ledger) : Ledger → Prop
  | sealed {l' : Ledger} (h : l.sealBlock = .ok l') : Change l l'
  | taken {b : Bytes} {t : Transaction} (h : (Transaction.format {}).decode b = .ok t) :
      Change l { l with submitted := l.submitted ++ [b], pending := l.pending ++ [t] }
  | kept (storage : List ((Address × Bytes) × Bytes)) (switches : Switches) :
      Change l { l with storage := storage, switches := switches }

variable {l l' : Ledger}

theorem Change.refl (l : Ledger) : Change l l := .kept l.storage l.switches

theorem sealBlock_or_eq_of_sealIf {condition : Bool} (h : l.sealIf condition = .ok l') :
    condition = true ∧ l.sealBlock = .ok l' ∨ condition = false ∧ l' = l := by
  cases condition with
  | true => exact .inl ⟨rfl, h⟩
  | false => exact .inr ⟨rfl, (Except.ok.inj h).symm⟩

theorem change_of_sealIf {condition : Bool} (h : l.sealIf condition = .ok l') : Change l l' := by
  rcases sealBlock_or_eq_of_sealIf h with ⟨-, hseal⟩ | ⟨-, rfl⟩
  · exact .sealed hseal
  · exact .refl l'

theorem switches_of_sealIf {condition : Bool} (h : l.sealIf condition = .ok l') :
    l'.switches = l.switches := by
  unfold sealIf sealBlock at h
  split at h
  · split at h
    · cases h
    · obtain rfl := Except.ok.inj h
      rfl
  · obtain rfl := Except.ok.inj h
    rfl

/-- A call that is not answered with a value changes nothing, and no call turns a switch. -/
theorem respond_cases {call : Call} {r : Reaction Ledger call.Reply}
    (h : respond call l = .ok r) :
    r.state = l ∨
      (∃ v, r.answer = .value v) ∧ Change l r.state ∧ r.state.switches = l.switches := by
  unfold respond at h
  split at h
  · obtain rfl := Except.ok.inj h
    exact .inl rfl
  split at h
  · obtain rfl := Except.ok.inj h
    exact .inl rfl
  cases call with
  | sendRawTransaction b =>
    simp only [serve, send] at h
    cases hdecode : (Transaction.format {}).decode b with
    | error e =>
      rw [hdecode] at h
      obtain rfl := Except.ok.inj h
      exact .inl rfl
    | ok t =>
      rw [hdecode] at h
      obtain rfl := Except.ok.inj h
      exact .inr ⟨⟨_, rfl⟩, .taken hdecode, rfl⟩
  | transactionHeight name =>
    simp only [serve, bind_eq_ok_iff, pure_eq_ok_iff] at h
    obtain ⟨l', hl', rfl⟩ := h
    exact .inr ⟨⟨_, rfl⟩, change_of_sealIf hl', switches_of_sealIf hl'⟩
  | foldRoot root =>
    simp only [serve, bind_eq_ok_iff, pure_eq_ok_iff] at h
    obtain ⟨l', hl', rfl⟩ := h
    exact .inr ⟨⟨_, rfl⟩, change_of_sealIf hl', switches_of_sealIf hl'⟩
  | currentHeight =>
    obtain rfl := Except.ok.inj h
    exact .inl rfl
  | blockByHeight height =>
    obtain rfl := Except.ok.inj h
    exact .inl rfl
  | storage contract key =>
    obtain rfl := Except.ok.inj h
    exact .inl rfl

theorem change_of_move {m : Move} (h : l.move m = .ok l') : Change l l' := by
  cases m with
  | sealBlock => exact .sealed h
  | turn switch on =>
    obtain rfl := Except.ok.inj h
    exact .kept l.storage _
  | store contract key value =>
    obtain rfl := Except.ok.inj h
    exact .kept _ l.switches
  | call call =>
    obtain ⟨r, hr, rfl⟩ := map_eq_ok_iff.1 h
    rcases respond_cases hr with hstate | ⟨-, hchange, -⟩
    · rw [hstate]
      exact .refl l
    · exact hchange

end Ledger

/-! ### A block that is sealed -/

namespace Block

theorem toNat_of_successor? {n m : UInt32} (h : successor? n = some m) :
    m.toNat = n.toNat + 1 := by
  unfold successor? at h
  split at h
  · cases h
  · obtain rfl := Option.some.inj h
    have hlt := n.toNat_lt
    have hne : n.toNat ≠ 0xFFFFFFFF := fun heq => ‹¬ _› (UInt32.toNat_inj.1 heq)
    rw [UInt32.toNat_add]
    show (n.toNat + 1) % 2 ^ 32 = _
    omega

/-- A timestamp that is not later than the last one becomes the next one. -/
theorem timestampAfter?_self (last : UInt32) : timestampAfter? last last = successor? last := by
  rw [timestampAfter?, if_neg]
  intro h
  exact absurd (UInt32.lt_iff_toNat_lt.1 h) (Nat.lt_irrefl _)

theorem extend_eq_ok_iff {tip : Tip} {version timestamp : UInt32} {blockRoot : Digest}
    {consensus : Consensus} {ts : List Transaction} {b : Block} :
    extend tip version timestamp blockRoot consensus ts = .ok b ↔
      ∃ height time, successor? tip.height = some height ∧
        timestampAfter? tip.timestamp timestamp = some time ∧
        b = ⟨⟨⟨version, tip.hash, transactionsRoot ts, blockRoot, time, height, consensus⟩, [], []⟩,
          ts⟩ := by
  unfold extend
  cases successor? tip.height with
  | none => simp
  | some height =>
    cases timestampAfter? tip.timestamp timestamp with
    | none => simp
    | some time => simp [eq_comm]

end Block

namespace Ledger

variable {l l' : Ledger}

theorem sealBlock_eq_ok (h : l.sealBlock = .ok l') :
    ∃ b, Block.Next l.tip b ∧ b.transactions = l.pending ∧
      l' = { l with
        earlier := l.blocks
        tip := b
        pending := []
        included := l.pending.foldl (fun m t => bind t.hash b.height m) l.included } := by
  unfold sealBlock at h
  split at h
  · cases h
  · rename_i b hb
    obtain rfl := Except.ok.inj h
    obtain ⟨height, time, hheight, htime, rfl⟩ := Block.extend_eq_ok_iff.1 hb
    change Block.timestampAfter? l.tip.header.timestamp l.tip.header.timestamp = some time at htime
    rw [Block.timestampAfter?_self] at htime
    have hheight : height.toNat = l.tip.height.toNat + 1 := Block.toNat_of_successor? hheight
    have htime : time.toNat = l.tip.header.timestamp.toNat + 1 := Block.toNat_of_successor? htime
    refine ⟨_, ?_, ?_, rfl⟩
    · exact ⟨hheight, rfl, htime, rfl, rfl, rfl, rfl, rfl⟩
    · rfl

/-! ### The heights of inclusion -/

section Bind

variable {κ ν : Type} [DecidableEq κ]

theorem lookup_filter_ne {key k : κ} (hk : k ≠ key) (pairs : List (κ × ν)) :
    (pairs.filter fun p => p.1 ≠ key).lookup k = pairs.lookup k := by
  induction pairs with
  | nil => rfl
  | cons p pairs ih =>
    obtain ⟨key', value⟩ := p
    by_cases hkey : key' = key
    · rw [List.filter_cons_of_neg (by simpa using hkey), ih, List.lookup_cons,
        beq_false_of_ne (hkey ▸ hk)]
    · rw [List.filter_cons_of_pos (by simpa using hkey), List.lookup_cons, List.lookup_cons, ih]

theorem lookup_bind (key k : κ) (value : ν) (pairs : List (κ × ν)) :
    (bind key value pairs).lookup k = if k = key then some value else pairs.lookup k := by
  rw [bind, List.lookup_cons]
  by_cases hk : k = key
  · rw [if_pos hk, hk, BEq.rfl]
  · rw [if_neg hk, beq_false_of_ne hk]
    exact lookup_filter_ne hk pairs

end Bind

theorem lookup_foldl_bind (name : Digest) (h : UInt32) (ts : List Transaction)
    (pairs : List (Digest × UInt32)) :
    (ts.foldl (fun m t => bind t.hash h m) pairs).lookup name =
      if ∃ t ∈ ts, t.hash = name then some h else pairs.lookup name := by
  induction ts generalizing pairs with
  | nil => simp
  | cons t ts ih =>
    rw [List.foldl_cons, ih, lookup_bind]
    simp only [List.exists_mem_cons_iff]
    by_cases hlater : ∃ t ∈ ts, t.hash = name
    · rw [if_pos hlater, if_pos (.inr hlater)]
    · by_cases ht : t.hash = name
      · rw [if_neg hlater, if_pos ht.symm, if_pos (.inl ht)]
      · rw [if_neg hlater, if_neg (Ne.symm ht), if_neg (not_or.2 ⟨ht, hlater⟩)]

/-! ### The invariant -/

variable {genesis : UInt32}

theorem consistent_new (genesis : UInt32) : (new genesis).Consistent genesis := by
  have hblocks : (new genesis).blocks = [.genesis genesis] := rfl
  constructor
  case first => rfl
  case height =>
    intro i b hb
    rw [hblocks] at hb
    obtain ⟨rfl, rfl⟩ : i = 0 ∧ b = .genesis genesis := by
      cases i with
      | zero => exact ⟨rfl, (Option.some.inj hb).symm⟩
      | succ i => cases hb
    rfl
  case linked => exact List.isChain_singleton _
  case taken => rfl
  case included =>
    intro name h
    constructor
    · nofun
    · rintro ⟨⟨b, hb, -, t, ht, -⟩, -⟩
      obtain rfl : b = .genesis genesis := List.mem_singleton.1 hb
      cases ht

/-- The tip is the last block, and its height is the number of blocks before it. -/
theorem Consistent.toNat_height_tip (h : l.Consistent genesis) :
    l.tip.height.toNat = l.earlier.length := by
  apply h.height
  rw [blocks]
  simp

theorem Consistent.height_le_tip (h : l.Consistent genesis) {b : Block} (hb : b ∈ l.blocks) :
    b.height.toNat ≤ l.tip.height.toNat := by
  obtain ⟨i, hi, hget⟩ := List.getElem_of_mem hb
  have hheight := h.height i b (List.getElem?_eq_some_iff.2 ⟨hi, hget⟩)
  have htip := h.toNat_height_tip
  rw [blocks, List.length_append, List.length_singleton] at hi
  omega

/-- A block that is sealed is as high as there were blocks before it. -/
theorem Consistent.toNat_height_next (h : l.Consistent genesis) {b : Block}
    (hb : Block.Next l.tip b) : b.height.toNat = l.blocks.length := by
  rw [hb.height, h.toNat_height_tip, blocks, List.length_append, List.length_singleton]

theorem Consistent.height_next (h : l.Consistent genesis) {b : Block} (hb : Block.Next l.tip b)
    (i : Nat) (a : Block) (ha : (l.blocks ++ [b])[i]? = some a) : a.height.toNat = i := by
  by_cases hi : i < l.blocks.length
  · rw [List.getElem?_append_left hi] at ha
    exact h.height i a ha
  · rw [List.getElem?_append_right (by omega)] at ha
    obtain ⟨hlast, rfl⟩ := List.getElem?_eq_some_iff.1 ha
    rw [List.length_singleton] at hlast
    rw [List.getElem_singleton, h.toNat_height_next hb]
    omega

/-- The heights of inclusion stay the last ones when a block is sealed, which lies above all others. -/
theorem Consistent.included_next (h : l.Consistent genesis) {b : Block} (hb : Block.Next l.tip b)
    (name : Digest) (k : UInt32) :
    (b.transactions.foldl (fun m t => bind t.hash b.height m) l.included).lookup name = some k ↔
      IsGreatest {n | ∃ a ∈ l.blocks ++ [b], a.height.toNat = n ∧
        ∃ t ∈ a.transactions, t.hash = name} k.toNat := by
  rw [lookup_foldl_bind]
  -- a name that the new block carries gets its height, and for others the set stays what it was
  by_cases hnew : ∃ t ∈ b.transactions, t.hash = name
  · have hgreatest : IsGreatest {n | ∃ a ∈ l.blocks ++ [b], a.height.toNat = n ∧
        ∃ t ∈ a.transactions, t.hash = name} b.height.toNat := by
      constructor
      · exact ⟨b, List.mem_append_right _ (List.mem_singleton_self b), rfl, hnew⟩
      · rintro n ⟨a, ha, rfl, -⟩
        rcases List.mem_append.1 ha with ha | ha
        · have hle := h.height_le_tip ha
          have hheight := hb.height
          omega
        · rw [List.mem_singleton.1 ha]
    rw [if_pos hnew]
    constructor
    · intro hk
      rwa [← Option.some.inj hk]
    · intro hk
      rw [UInt32.toNat_inj.1 (hgreatest.unique hk)]
  · have hsame : {n | ∃ a ∈ l.blocks ++ [b], a.height.toNat = n ∧
          ∃ t ∈ a.transactions, t.hash = name} =
        {n | ∃ a ∈ l.blocks, a.height.toNat = n ∧ ∃ t ∈ a.transactions, t.hash = name} := by
      ext n
      constructor
      · rintro ⟨a, ha, hn, ht⟩
        rcases List.mem_append.1 ha with ha | ha
        · exact ⟨a, ha, hn, ht⟩
        · obtain rfl := List.mem_singleton.1 ha
          exact absurd ht hnew
      · rintro ⟨a, ha, hn, ht⟩
        exact ⟨a, List.mem_append_left _ ha, hn, ht⟩
    rw [if_neg hnew, hsame]
    exact h.included name k

theorem Consistent.change (h : l.Consistent genesis) (hc : Change l l') :
    l'.Consistent genesis := by
  cases hc with
  | kept storage switches => exact ⟨h.first, h.height, h.linked, h.taken, h.included⟩
  | taken hdecode =>
    refine ⟨h.first, h.height, h.linked, ?_, h.included⟩
    simp only [List.map_append, List.map_cons, List.map_nil, h.taken, hdecode, List.append_assoc]
    rfl
  | sealed hsealed =>
    -- the pending transactions move into the last block, and stay where they were in the order
    obtain ⟨b, hnext, hts, rfl⟩ := sealBlock_eq_ok hsealed
    rw [← hts]
    constructor
    case first =>
      show (l.blocks ++ [b]).head? = _
      rw [List.head?_append, h.first]
      rfl
    case height => exact h.height_next hnext
    case linked =>
      show (l.earlier ++ [l.tip] ++ [b]).IsChain Block.Next
      rw [List.append_assoc]
      exact List.isChain_split.2 ⟨h.linked, List.isChain_pair.2 hnext⟩
    case taken =>
      have hall : (l.blocks ++ [b]).flatMap (·.transactions) ++ [] =
          l.blocks.flatMap (·.transactions) ++ l.pending := by
        rw [List.flatMap_append, List.append_nil, List.flatMap_singleton, hts]
      exact h.taken.trans (congrArg (List.map Except.ok) hall.symm)
    case included => exact h.included_next hnext

theorem Consistent.after {moves : List Move} (h : l.Consistent genesis)
    (hl : l.after moves = .ok l') : l'.Consistent genesis := by
  induction moves generalizing l with
  | nil =>
    obtain rfl := Except.ok.inj hl
    exact h
  | cons m moves ih =>
    obtain ⟨l₁, hm, hl⟩ := bind_eq_ok_iff.1 ((List.foldlM_cons ..).symm.trans hl)
    exact ih (h.change (change_of_move hm)) hl

/-- **Nothing is lost.** After every history that had room for its blocks: the blocks have their
heights and each is sealed on the one before it, down to the first one; all blocks and the pending
transactions are what was sent, in order; transactions are reported at the greatest height of a block
that carries them; and a call that fails or is never answered changes nothing. -/
theorem history_consistent (genesis : UInt32) (moves : List Move) (l : Ledger)
    (hl : (new genesis).after moves = .ok l) :
    l.Consistent genesis ∧
      ∀ (call : Call) (r : Reaction Ledger call.Reply), respond call l = .ok r →
        (∀ v, r.answer ≠ .value v) → r.state = l := by
  refine ⟨(consistent_new genesis).after hl, ?_⟩
  intro call r hr hanswer
  rcases respond_cases hr with hstate | ⟨⟨v, hv⟩, -⟩
  · exact hstate
  · exact absurd hv (hanswer v)

/-- A transaction without signatures. -/
def sampleTransaction : Transaction :=
  ⟨⟨0, 7, 0, 20000, .zero, .governance, "blackNode", [[1, 2], []]⟩, []⟩

/-- A transaction is sent, sealed by a query for it, and sent and sealed again; in between, something
is sent that is no transaction. -/
def sampleMoves : List Move :=
  [.call (.sendRawTransaction sampleTransaction.encode), .turn .autoSeal true,
    .call (.transactionHeight sampleTransaction.hash), .call (.sendRawTransaction [0]),
    .call (.sendRawTransaction sampleTransaction.encode), .sealBlock]

theorem history_consistent_sample :
    ∃ l, (new 5).after sampleMoves = .ok l ∧ l.Consistent 5 ∧
      l.included.lookup sampleTransaction.hash = some 2 ∧ l.submitted.length = 2 := by
  have hlookup : ((new 5).after sampleMoves).map (fun l =>
      (l.included.lookup sampleTransaction.hash, l.submitted.length)) = .ok (some 2, 2) := by
    decide +kernel
  obtain ⟨l, hl, hl'⟩ := map_eq_ok_iff.1 hlookup
  obtain ⟨hincluded, hsubmitted⟩ := Prod.mk.inj hl'
  exact ⟨l, hl, (history_consistent 5 sampleMoves l hl).1, hincluded, hsubmitted⟩

end Ledger

end ChainGovernance
