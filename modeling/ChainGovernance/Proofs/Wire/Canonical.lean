import ChainGovernance.Proofs.Wire.Compact

/-!
Canonical formats: the bytes that are read are those that would be written for the value, so no
value has a second spelling.

Each way to put formats together keeps this, as long as what the reader checks is enough to find
the written parts again: a parsed value has to print as what it was parsed from, and a counted one
has to have the size that was read in front of it. The second fact is a property of what the body
yields, which is why `Yields` stands beside `Canonical`.
-/

namespace ChainGovernance.Wire.Format

variable {α β : Type} {f : Format α} {g : Format β}

/-- What is read is what is written for the value, and then what is left. -/
def Canonical (f : Format α) : Prop :=
  ∀ ⦃b v r⦄, f.read b = .ok (v, r) → b = f.write v ++ r

/-- All values that are read have a property. -/
def Yields (f : Format α) (P : α → Prop) : Prop :=
  ∀ ⦃b v r⦄, f.read b = .ok (v, r) → P v

/-! ### Bytes and numbers -/

theorem canonical_raw (n : Nat) : (raw n).Canonical :=
  fun _ _ _ h => (read_raw.1 h).2

theorem yields_raw (n : Nat) : (raw n).Yields fun v => v.length = n :=
  fun _ _ _ h => (read_raw.1 h).1

theorem canonical_uint8 : uint8.Canonical :=
  fun _ _ _ h => read_uint8.1 h

theorem canonical_word (width : Nat) : (word width).Canonical :=
  fun _ _ _ h => (read_word.1 h).2

theorem yields_word (width : Nat) : (word width).Yields fun v => v < 256 ^ width :=
  fun _ _ _ h => (read_word.1 h).1

theorem canonical_fixed (n : Nat) : (fixed n).Canonical :=
  fun _ _ _ h => read_fixed.1 h

theorem canonical_compact : compact.Canonical :=
  fun _ _ _ h => Compact.read_eq_ok_iff.1 h

/-! ### Formats from formats -/

theorem Canonical.refine {parse : α → Except Error β} {print : β → α} (hf : f.Canonical)
    (h : ∀ a v, parse a = .ok v → print v = a) : (f.refine parse print).Canonical := by
  intro b v r hb
  obtain ⟨a, ha, hv⟩ := read_refine.1 hb
  rw [hf ha, ← h a v hv]
  rfl

/-- It is enough that those values print as themselves that can be read. -/
theorem Canonical.iso_of_yields {parse : α → β} {print : β → α} (hf : f.Canonical)
    (h : f.Yields fun a => print (parse a) = a) : (f.iso parse print).Canonical := by
  intro b v r hb
  obtain ⟨a, ha, rfl⟩ := read_iso.1 hb
  have hp : print (parse a) = a := h ha
  change b = f.write (print (parse a)) ++ r
  rw [hp, ← hf ha]

theorem Canonical.iso {parse : α → β} {print : β → α} (hf : f.Canonical)
    (h : ∀ a, print (parse a) = a) : (f.iso parse print).Canonical :=
  hf.iso_of_yields fun _ a _ _ => h a

theorem Canonical.seq (hf : f.Canonical) (hg : g.Canonical) : (f.seq g).Canonical := by
  intro b v r h
  obtain ⟨rest, hv, hw⟩ := read_seq.1 h
  rw [hf hv, hg hw, ← List.append_assoc]
  rfl

theorem Yields.seq {P : α → Prop} {Q : β → Prop} (hf : f.Yields P) (hg : g.Yields Q) :
    (f.seq g).Yields fun v => P v.1 ∧ Q v.2 := by
  intro b v r h
  obtain ⟨rest, hv, hw⟩ := read_seq.1 h
  exact ⟨hf hv, hg hw⟩

theorem Yields.iso {parse : α → β} {print : β → α} {P : β → Prop}
    (h : f.Yields fun a => P (parse a)) : (f.iso parse print).Yields P := by
  intro b v r hb
  obtain ⟨a, ha, rfl⟩ := read_iso.1 hb
  exact h ha

theorem Canonical.counted {count : Format Nat} {measure : α → Nat} {body : Nat → Format α}
    (hc : count.Canonical) (hb : ∀ n, (body n).Canonical)
    (hm : ∀ n, (body n).Yields fun v => measure v = n) :
    (count.counted measure body).Canonical := by
  intro b v r h
  obtain ⟨n, rest, hn, hv⟩ := read_counted.1 h
  obtain rfl : measure v = n := hm n hv
  rw [hc hn, hb _ hv, ← List.append_assoc]
  rfl

theorem Canonical.times (hf : f.Canonical) (n : Nat) : (f.times n).Canonical := by
  induction n with
  | zero =>
    intro b vs r h
    obtain ⟨rfl, rfl⟩ := read_times_zero.1 h
    rfl
  | succ n ih =>
    intro b vs r h
    obtain ⟨v, ws, rest, rfl, hv, hws⟩ := read_times_succ.1 h
    rw [hf hv, ih hws, ← List.append_assoc]
    rfl

theorem yields_times (f : Format α) (n : Nat) : (f.times n).Yields fun vs => vs.length = n :=
  fun _ _ _ h => length_of_read_times h

/-! ### Numbers of fixed width, and constants -/

theorem canonical_uint16 : uint16.Canonical :=
  (canonical_word 2).iso_of_yields fun _ _ _ h =>
    UInt16.toNat_ofNat_of_lt' (yields_word 2 h)

theorem canonical_uint32 : uint32.Canonical :=
  (canonical_word 4).iso_of_yields fun _ _ _ h =>
    UInt32.toNat_ofNat_of_lt' (yields_word 4 h)

theorem canonical_uint64 : uint64.Canonical :=
  (canonical_word 8).iso_of_yields fun _ _ _ h =>
    UInt64.toNat_ofNat_of_lt' (yields_word 8 h)

theorem canonical_flag : flag.Canonical := by
  refine canonical_uint8.refine fun a v h => ?_
  split at h
  · obtain rfl := Except.ok.inj h
    exact ‹a = 0›.symm
  split at h
  · obtain rfl := Except.ok.inj h
    exact ‹a = 1›.symm
  · cases h

theorem canonical_constant (context : String) (tag : UInt8) :
    (constant context tag).Canonical := by
  refine canonical_uint8.refine fun a v h => ?_
  by_cases ha : a = tag
  · exact ha.symm
  · rw [if_neg ha] at h
    cases h

/-! ### Lengths, and what they count -/

section Lengths

variable (range : LengthRange)

theorem read_within {count : Format Nat} {b r : Bytes} {n : Nat} :
    (count.within range).read b = .ok (n, r) ↔
      count.read b = .ok (n, r) ∧ range.contains n = true :=
  read_guard (p := fun n => range.contains n = true)

theorem Canonical.guard {p : α → Prop} [DecidablePred p] {e : α → Error} (hf : f.Canonical) :
    (f.refine (fun a => if p a then .ok a else .error (e a)) id).Canonical :=
  fun _ _ _ h => hf (read_guard.1 h).1

theorem Canonical.within {count : Format Nat} (hc : count.Canonical) :
    (count.within range).Canonical :=
  hc.guard (p := fun n => range.contains n = true)

theorem canonical_length : (length range).Canonical :=
  (canonical_compact.iso fun _ => UInt64.ofNat_toNat).within range

theorem canonical_length32 : (length32 range).Canonical :=
  (canonical_uint32.iso fun _ => UInt32.ofNat_toNat).within range

theorem canonical_bytes : (bytes range).Canonical :=
  (canonical_length range).counted canonical_raw yields_raw

theorem Canonical.list (hf : f.Canonical) : (list range f).Canonical :=
  (canonical_length range).counted hf.times (yields_times f)

theorem Canonical.list32 (hf : f.Canonical) : (list32 range f).Canonical :=
  (canonical_length32 range).counted hf.times (yields_times f)

theorem contains_exactly {n m : Nat} : (LengthRange.exactly n).contains m = true ↔ m = n := by
  simp only [LengthRange.contains, LengthRange.exactly, LengthRange.between, Bool.and_eq_true,
    decide_eq_true_eq]
  omega

/-- A length other than `n` is refused, so `n` is what has been read in front. -/
theorem Canonical.sized (n : Nat) (hf : f.Canonical) : (sized n f).Canonical := by
  intro b v r h
  obtain ⟨m, rest, hm, hv⟩ := read_counted.1 h
  obtain rfl : m = n := contains_exactly.1 ((read_within _).1 hm).2
  rw [canonical_length _ hm, hf hv, ← List.append_assoc]
  rfl

/-- The two halves of a list of pairs are read with one length: the second length is refused
unless it is the first. -/
theorem yields_halves (n : Nat) (mismatch : Error) :
    ((f.times n).seq (((length range).refine
      (fun m => if m = n then .ok m else .error mismatch) id).counted List.length
        g.times)).Yields fun v => v.1.length = n ∧ v.2.length = n := by
  refine Yields.seq (yields_times f n) (Q := fun vs : List β => vs.length = n)
    fun b vs r h => ?_
  obtain ⟨m, rest, hm, hvs⟩ := read_counted.1 h
  have hmn : m = n := (read_guard (p := (· = n)).1 hm).2
  rw [length_of_read_times hvs, hmn]

theorem yields_pairs (n : Nat) (mismatch : Error) :
    (((f.times n).seq (((length range).refine
      (fun m => if m = n then .ok m else .error mismatch) id).counted List.length
        g.times)).iso (fun v => v.1.zip v.2) List.unzip).Yields fun ps => ps.length = n := by
  refine Yields.iso fun b v r h => ?_
  obtain ⟨h1, h2⟩ := yields_halves range n mismatch h
  rw [List.length_zip, h1, h2, Nat.min_self]

theorem Canonical.columns (mismatch : Error) (hf : f.Canonical) (hg : g.Canonical) :
    (columns range mismatch f g).Canonical := by
  refine (canonical_length range).counted (fun n => ?_) fun n => ?_
  · have again := (canonical_length range).guard (p := (· = n)) (e := fun _ => mismatch)
    refine ((hf.times n).seq (again.counted hg.times (yields_times g))).iso_of_yields ?_
    intro b v r h
    obtain ⟨h1, h2⟩ := yields_halves range n mismatch h
    exact List.unzip_zip (h1.trans h2.symm)
  · exact yields_pairs range n mismatch

end Lengths

/-! ### Formats that write alike -/

section Writing

variable {f' : Format α} {g' : Format β}

theorem write_seq_congr (hf : f.write = f'.write) (hg : g.write = g'.write) :
    (f.seq g).write = (f'.seq g').write := by
  simp only [seq, hf, hg]

theorem write_iso_congr {parse : α → β} {print : β → α} (hf : f.write = f'.write) :
    (f.iso parse print).write = (f'.iso parse print).write := by
  simp only [iso, hf]

theorem write_refine_congr {parse : α → Except Error β} {print : β → α}
    (hf : f.write = f'.write) :
    (f.refine parse print).write = (f'.refine parse print).write := by
  simp only [refine, hf]

variable (range range' : LengthRange)

theorem write_bytes_congr : (bytes range).write = (bytes range').write := rfl

theorem write_list_congr (hf : f.write = f'.write) :
    (list range f).write = (list range' f').write := by
  simp only [list, counted, times, hf]
  rfl

theorem write_list32_congr (hf : f.write = f'.write) :
    (list32 range f).write = (list32 range' f').write := by
  simp only [list32, counted, times, hf]
  rfl

end Writing

end ChainGovernance.Wire.Format
