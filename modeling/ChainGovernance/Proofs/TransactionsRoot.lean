import ChainGovernance.Block
import ChainGovernance.Proofs.Drafts
import ChainGovernance.Proofs.Merkle

/-!
The root of transactions commits to all of them.

The leaves below the root are the names of the transactions, and more than sixty-four bytes are hashed
for a name. So no name is a node, as far as the double hash does not collide, and the root determines
the names, their order and their number; and a name determines the unsigned transaction.
-/

namespace ChainGovernance

open Wire

/-- What is hashed for the names of transactions and their root. -/
def rootMessages (ts : List Transaction) : List Bytes :=
  ts.map (fun t => t.unsigned.encode) ++ Merkle.inputs (ts.map Transaction.hash)

/-! ### Formats that take some bytes at least -/

namespace Wire.Format

variable {α β : Type} {f : Format α} {g : Format β} {m n : Nat}

def AtLeast (f : Format α) (n : Nat) : Prop := ∀ v, n ≤ (f.write v).length

theorem atLeast_uint8 : uint8.AtLeast 1 := fun _ => le_refl _

theorem atLeast_word (width : Nat) : (word width).AtLeast width := fun v =>
  (LittleEndian.length_encode width v).ge

theorem atLeast_fixed (n : Nat) : (fixed n).AtLeast n := fun v => v.length_eq.ge

theorem atLeast_compact : compact.AtLeast 1 := by
  intro v
  show 1 ≤ (Compact.write v).length
  unfold Compact.write
  split_ifs <;> simp

theorem AtLeast.iso {parse : α → β} {print : β → α} (hf : f.AtLeast n) :
    (f.iso parse print).AtLeast n :=
  fun v => hf (print v)

theorem AtLeast.refine {parse : α → Except Error β} {print : β → α} (hf : f.AtLeast n) :
    (f.refine parse print).AtLeast n :=
  fun v => hf (print v)

theorem AtLeast.seq (hf : f.AtLeast m) (hg : g.AtLeast n) : (f.seq g).AtLeast (m + n) := by
  intro v
  have hm := hf v.1
  have hn := hg v.2
  show m + n ≤ (f.write v.1 ++ g.write v.2).length
  rw [List.length_append]
  omega

theorem AtLeast.counted {count : Format Nat} {measure : α → Nat} {body : Nat → Format α}
    (hc : count.AtLeast n) : (count.counted measure body).AtLeast n := by
  intro v
  have hn := hc (measure v)
  show n ≤ (count.write (measure v) ++ (body (measure v)).write v).length
  rw [List.length_append]
  omega

theorem atLeast_length (range : LengthRange) : (length range).AtLeast 1 := fun v =>
  atLeast_compact (UInt64.ofNat v)

end Wire.Format

open Format in
/-- Sixty-two bytes have their place, and the method name, the parameters and the number of attributes
take one each at least. -/
theorem UnsignedTransaction.length_encode (t : UnsignedTransaction) : 65 ≤ t.encode.length := by
  have hmethod : (Invocation.methodFormat {}).AtLeast 1 :=
    (atLeast_length _).counted.refine
  have hparams : (list (.upTo 64) (bytes (.upTo 65536))).AtLeast 1 := (atLeast_length _).counted
  have hinvocation : (Invocation.format {}).AtLeast 22 :=
    ((atLeast_fixed 20).iso.seq (hmethod.seq hparams)).iso
  have hformat : (UnsignedTransaction.format {}).AtLeast 65 :=
    (atLeast_uint8.seq (atLeast_uint8.refine.seq ((atLeast_word 4).iso.seq
      ((atLeast_word 8).iso.seq ((atLeast_word 8).iso.seq ((atLeast_fixed 20).iso.seq
        (hinvocation.seq atLeast_compact.refine))))))).iso
  exact hformat t

/-! ### Roots of transactions -/

/-- A transaction as one comes by it: read from some bytes, or with signatures on what was built from
a draft. -/
inductive Transaction.Obtained : Transaction → Prop
  | read {limits : Limits} {b r : Bytes} {t : Transaction}
      (h : (Transaction.format limits).read b = .ok (t, r)) : Obtained t
  | built {d : Draft} {now : Instant} {unsigned : UnsignedTransaction}
      {signatures : List Aggregate} (hd : d.limits.Counted) (h : d.build now = .ok unsigned) :
      Obtained ⟨unsigned, signatures⟩

theorem Transaction.Obtained.readable {t : Transaction} (h : t.Obtained) :
    Record.unsigned.Readable t.unsigned := by
  cases h with
  | read h =>
    obtain ⟨rest, hu⟩ := Transaction.read_unsigned h
    exact Record.readable_of_read (k := .unsigned) hu
  | built hd h => exact Draft.readable_of_build hd h

theorem map_eq_map_of_map_eq_map {α β γ : Type} {f : α → β} {g : α → γ} {xs ys : List α}
    (h : xs.map f = ys.map f) (hg : ∀ x ∈ xs, ∀ y ∈ ys, f x = f y → g x = g y) :
    xs.map g = ys.map g := by
  induction xs generalizing ys with
  | nil =>
    obtain rfl := List.map_eq_nil_iff.1 h.symm
    rfl
  | cons x xs ih =>
    obtain ⟨y, ys, rfl, hxy, hys⟩ := List.map_eq_cons_iff.1 h.symm
    have hhead : g x = g y := hg x List.mem_cons_self y List.mem_cons_self hxy.symm
    have htail : xs.map g = ys.map g := ih hys.symm fun x hx y hy =>
      hg x (List.mem_cons_of_mem _ hx) y (List.mem_cons_of_mem _ hy)
    rw [List.map_cons, List.map_cons, hhead, htail]

section Binding

variable {messages : List Bytes} (hfree : CollisionFree messages) {ts ts' : List Transaction}
include hfree

/-- The name of a transaction is neither zero nor a node. -/
theorem name_apart {t : Transaction} (ht : t.unsigned.encode ∈ messages) :
    t.hash ≠ .zero ∧ Merkle.NoNode messages t.hash := by
  have hlength := t.unsigned.length_encode
  exact ⟨hfree.ne_zero _ ht, Merkle.noNode_doubleHash hfree ht (by omega)⟩

theorem unsigned_eq_of_root_eq (hs : rootMessages ts ⊆ messages) (hs' : rootMessages ts' ⊆ messages)
    (hts : ∀ t ∈ ts, Record.unsigned.Readable t.unsigned)
    (hts' : ∀ t ∈ ts', Record.unsigned.Readable t.unsigned)
    (h : transactionsRoot ts = transactionsRoot ts') :
    ts.map (·.unsigned) = ts'.map (·.unsigned) := by
  obtain ⟨hencoded, hinputs⟩ := List.append_subset.1 hs
  obtain ⟨hencoded', hinputs'⟩ := List.append_subset.1 hs'
  have hmem : ∀ t ∈ ts, t.unsigned.encode ∈ messages := fun t ht =>
    hencoded (List.mem_map_of_mem ht)
  have hmem' : ∀ t ∈ ts', t.unsigned.encode ∈ messages := fun t ht =>
    hencoded' (List.mem_map_of_mem ht)
  have hnames : ts.map Transaction.hash = ts'.map Transaction.hash := by
    refine Merkle.eq_of_root_eq hfree hinputs hinputs' ?_ ?_ h
    · exact List.forall_mem_map.2 fun t ht => name_apart hfree (hmem t ht)
    · exact List.forall_mem_map.2 fun t ht => name_apart hfree (hmem' t ht)
  apply map_eq_map_of_map_eq_map hnames
  intro t ht t' ht' hname
  have hencode : t.unsigned.encode = t'.unsigned.encode :=
    hfree.injective _ (hmem t ht) _ (hmem' t' ht') hname
  exact Record.encode_injective (hts t ht) (hts' t' ht') hencode

end Binding

/-- **The root commits to the transactions.** If two lists of transactions have one root, they have the
same length and the same unsigned transactions in the same order, as long as the double hash neither
collides nor is zero on what is hashed for the two roots. -/
theorem transactionsRoot_commits {ts ts' : List Transaction} (hts : ∀ t ∈ ts, t.Obtained)
    (hts' : ∀ t ∈ ts', t.Obtained) (hfree : CollisionFree (rootMessages ts ++ rootMessages ts'))
    (h : transactionsRoot ts = transactionsRoot ts') :
    ts.length = ts'.length ∧ ts.map (·.unsigned) = ts'.map (·.unsigned) := by
  have hunsigned : ts.map (·.unsigned) = ts'.map (·.unsigned) :=
    unsigned_eq_of_root_eq hfree (List.subset_append_left _ _) (List.subset_append_right _ _)
      (fun t ht => (hts t ht).readable) (fun t ht => (hts' t ht).readable) h
  have hlength := congrArg List.length hunsigned
  rw [List.length_map, List.length_map] at hlength
  exact ⟨hlength, hunsigned⟩

/-- A draft whose parameter is a flag. -/
def sampleDraft : Draft where
  contract := "0x 0000000000000000000000000000000000000007"
  method := "quit"
  payer := .zero
  params := [.flag true]
  nonce := some 1

/-- What is built from that draft. -/
def sampleUnsigned : UnsignedTransaction :=
  ⟨0, 1, 0, 20000, .zero, ⟨.governance, "quit", [[3, 1]]⟩⟩

/-- Two transactions to be read, the second one with an empty signature. -/
def sampleRead : List Transaction :=
  [⟨⟨0, 7, 0, 20000, .zero, .governance, "blackNode", [[1, 2], []]⟩, []⟩,
    ⟨⟨0, 8, 0, 20000, .zero, .governance, "whiteNode", []⟩, [⟨1, []⟩]⟩]

/-- Those two transactions, and one that was built and has some signatures. -/
def sampleTransactions (signatures : List Aggregate) : List Transaction :=
  sampleRead ++ [⟨sampleUnsigned, signatures⟩]

theorem obtained_sampleTransactions (signatures : List Aggregate) :
    ∀ t ∈ sampleTransactions signatures, t.Obtained := by
  have hread : ∀ t ∈ sampleRead, (Transaction.format {}).read t.encode = .ok (t, []) := by
    decide +kernel
  have hbuild : sampleDraft.build .epoch = .ok sampleUnsigned := by decide +kernel
  have hlimits : sampleDraft.limits.Counted := ⟨by decide, by decide, by decide⟩
  refine List.forall_mem_append.2 ⟨fun t ht => .read (hread t ht), ?_⟩
  exact List.forall_mem_singleton.2 (.built hlimits hbuild)

/-- One list with a signature on what was built, and one without: five messages are hashed for either
root, and they are the same. -/
theorem transactionsRoot_commits_sample :
    let signed := sampleTransactions [⟨1, [(.neutral, ⟨.zero 64⟩)]⟩]
    let plain := sampleTransactions []
    signed ≠ plain ∧ transactionsRoot signed = transactionsRoot plain ∧
      signed.length = plain.length ∧ signed.map (·.unsigned) = plain.map (·.unsigned) := by
  intro signed plain
  have hroot : transactionsRoot signed = transactionsRoot plain := rfl
  have hplain : CollisionFree (rootMessages plain) := by decide +kernel
  have hfree : CollisionFree (rootMessages signed ++ rootMessages plain) :=
    hplain.mono (List.append_subset.2 ⟨List.Subset.refl _, List.Subset.refl _⟩)
  exact ⟨by decide +kernel, hroot, transactionsRoot_commits (obtained_sampleTransactions _)
    (obtained_sampleTransactions _) hfree hroot⟩

end ChainGovernance
