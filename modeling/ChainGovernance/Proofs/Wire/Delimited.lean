import ChainGovernance.Proofs.Wire.Extent

/-!
Delimited formats: the bytes of a value tell by themselves where it ends.

`Takes` says what a reader makes of some bytes: it finds the value in them, whatever follows, and
wherever they are cut off it comes to the end of the bytes, before it can find another fault. In a
`Delimited` format all that is read is read so. Every way to put formats together keeps this, whatever
the parts check of their values: a check comes behind the reading of what it looks at, so bytes that are
cut off in front of it never get there, and those that are cut off behind it have passed it.
-/

namespace ChainGovernance.Wire

namespace Format

variable {α β : Type} {f : Format α} {g : Format β} {b c d : Bytes} {n : Nat}

/-- The bytes `c` are read as `v`, with anything behind them and with nothing less. -/
structure Takes (f : Format α) (c : Bytes) (v : α) : Prop where
  read (r : Bytes) : f.read (c ++ r) = .ok (v, r)
  cut (n : Nat) (hn : n < c.length) : f.read (c.take n) = .error .endOfBuffer

/-- What is read is taken from the front of the bytes, up to where it ends. -/
def Delimited (f : Format α) : Prop :=
  ∀ ⦃b v r⦄, f.read b = .ok (v, r) → ∃ c, b = c ++ r ∧ f.Takes c v

/-! ### Bytes and numbers -/

theorem read_raw_short (h : b.length < n) : (raw n).read b = .error .endOfBuffer := by
  simp only [raw]
  rw [if_neg]
  rw [List.length_take]
  omega

theorem takes_raw {v : Bytes} (h : v.length = n) : (raw n).Takes v v where
  read _ := read_raw.2 ⟨h, rfl⟩
  cut m hm := by
    apply read_raw_short
    rw [List.length_take]
    omega

theorem delimited_raw (n : Nat) : (raw n).Delimited := by
  intro b v r h
  obtain ⟨hv, rfl⟩ := read_raw.1 h
  exact ⟨v, rfl, takes_raw hv⟩

theorem takes_uint8 (v : UInt8) : uint8.Takes [v] v where
  read _ := read_uint8.2 rfl
  cut n hn := by
    obtain rfl : n = 0 := Nat.lt_one_iff.1 hn
    rfl

theorem delimited_uint8 : uint8.Delimited := by
  intro b v r h
  obtain rfl := read_uint8.1 h
  exact ⟨[v], rfl, takes_uint8 v⟩

theorem read_word_short {width : Nat} (h : b.length < width) :
    (word width).read b = .error .endOfBuffer := by
  change ((raw width).read b >>= _) = _
  rw [read_raw_short h]
  rfl

theorem delimited_word (width : Nat) : (word width).Delimited := by
  intro b v r h
  obtain ⟨hv, rfl⟩ := read_word.1 h
  refine ⟨_, rfl, fun _ => read_word.2 ⟨hv, rfl⟩, fun n hn => read_word_short ?_⟩
  rw [LittleEndian.length_encode] at hn
  rw [List.length_take]
  omega

theorem delimited_fixed (n : Nat) : (fixed n).Delimited := by
  intro b v r h
  obtain rfl := read_fixed.1 h
  refine ⟨_, rfl, fun _ => read_fixed.2 rfl, fun m hm => ?_⟩
  have hn := v.length_eq
  have hshort : ((v.toBytes.take m).take n).length ≠ n := by
    rw [List.length_take, List.length_take]
    omega
  simp only [fixed, FixedBytes.ofBytes?, dif_neg hshort]

end Format

/-! ### Compact numbers -/

namespace Compact

/-- Behind a marker, `width` bytes are waited for. -/
theorem read_marked_short {marker : UInt8} {width least : Nat} {b : Bytes}
    (hmarker : ∀ rest, read (marker :: rest) = readWide width least rest) (hb : b.length = width)
    {n : Nat} (hn : n < (marker :: b).length) :
    read ((marker :: b).take n) = .error .endOfBuffer := by
  cases n with
  | zero => rfl
  | succ n =>
    rw [List.length_cons] at hn
    have hshort : (b.take n).length < width := by
      rw [List.length_take]
      omega
    rw [List.take_succ_cons, hmarker]
    change ((Format.word width).read (b.take n) >>= _) = _
    rw [Format.read_word_short hshort]
    rfl

theorem read_cut (v : UInt64) {n : Nat} (hn : n < (write v).length) :
    read ((write v).take n) = .error .endOfBuffer := by
  unfold write at hn ⊢
  split_ifs at hn ⊢
  · obtain rfl : n = 0 := Nat.lt_one_iff.1 hn
    rfl
  · exact read_marked_short (fun _ => rfl) (LittleEndian.length_encode 2 _) hn
  · exact read_marked_short (fun _ => rfl) (LittleEndian.length_encode 4 _) hn
  · exact read_marked_short (fun _ => rfl) (LittleEndian.length_encode 8 _) hn

end Compact

namespace Format

variable {α β : Type} {f : Format α} {g : Format β} {b c d : Bytes} {n : Nat}

theorem delimited_compact : compact.Delimited := by
  intro b v r h
  obtain rfl := Compact.read_eq_ok_iff.1 h
  exact ⟨_, rfl, fun _ => Compact.read_eq_ok_iff.2 rfl, fun _ hn => Compact.read_cut v hn⟩

/-! ### Formats from formats -/

/-- What comes behind a value is not reached if its bytes are cut off. -/
theorem Takes.bind_cut {v : α} {k : α × Bytes → Except Error β} (hc : f.Takes c v)
    (hn : n < c.length) : (f.read (c.take n) >>= k) = .error .endOfBuffer := by
  rw [hc.cut n hn]
  rfl

/-- One part after another is cut off in the first part, or behind it in the second. -/
theorem Takes.bind_cut_append {v : α} {k : α × Bytes → Except Error β} (hc : f.Takes c v)
    (hk : ∀ m < d.length, k (v, d.take m) = .error .endOfBuffer) (hn : n < (c ++ d).length) :
    (f.read ((c ++ d).take n) >>= k) = .error .endOfBuffer := by
  rcases Nat.lt_or_ge n c.length with h | h
  · rw [List.take_append_of_le_length (Nat.le_of_lt h)]
    exact hc.bind_cut h
  · obtain ⟨m, rfl⟩ := Nat.exists_eq_add_of_le h
    rw [List.length_append] at hn
    rw [List.take_length_add_append, hc.read]
    exact hk m (Nat.lt_of_add_lt_add_left hn)

theorem Delimited.refine {parse : α → Except Error β} {print : β → α} (hf : f.Delimited) :
    (f.refine parse print).Delimited := by
  intro b v r h
  obtain ⟨a, ha, hv⟩ := read_refine.1 h
  obtain ⟨c, rfl, hc⟩ := hf ha
  exact ⟨c, rfl, fun r => read_refine.2 ⟨a, hc.read r, hv⟩, fun _ hn => hc.bind_cut hn⟩

theorem Delimited.iso {parse : α → β} {print : β → α} (hf : f.Delimited) :
    (f.iso parse print).Delimited := by
  intro b v r h
  obtain ⟨a, ha, hv⟩ := read_iso.1 h
  obtain ⟨c, rfl, hc⟩ := hf ha
  exact ⟨c, rfl, fun r => read_iso.2 ⟨a, hc.read r, hv⟩, fun _ hn => hc.bind_cut hn⟩

theorem Delimited.seq (hf : f.Delimited) (hg : g.Delimited) : (f.seq g).Delimited := by
  intro b v r h
  obtain ⟨rest, hx, hy⟩ := read_seq.1 h
  obtain ⟨c, rfl, hc⟩ := hf hx
  obtain ⟨d, rfl, hd⟩ := hg hy
  refine ⟨c ++ d, (List.append_assoc c d r).symm, fun r => ?_, fun n hn => ?_⟩
  · rw [List.append_assoc]
    exact read_seq.2 ⟨d ++ r, hc.read _, hd.read r⟩
  · exact hc.bind_cut_append (fun _ hm => hd.bind_cut hm) hn

theorem Delimited.counted {count : Format Nat} {measure : α → Nat} {body : Nat → Format α}
    (hc : count.Delimited) (hb : ∀ n, (body n).Delimited) :
    (count.counted measure body).Delimited := by
  intro b v r h
  obtain ⟨k, rest, hk, hv⟩ := read_counted.1 h
  obtain ⟨c, rfl, hc⟩ := hc hk
  obtain ⟨d, rfl, hd⟩ := hb k hv
  refine ⟨c ++ d, (List.append_assoc c d r).symm, fun r => ?_, fun _ hn => hc.bind_cut_append hd.cut hn⟩
  rw [List.append_assoc]
  exact read_counted.2 ⟨k, d ++ r, hc.read _, hd.read r⟩

theorem Delimited.times (hf : f.Delimited) (n : Nat) : (f.times n).Delimited := by
  induction n with
  | zero =>
    intro b vs r h
    obtain ⟨rfl, rfl⟩ := read_times_zero.1 h
    exact ⟨[], rfl, fun _ => rfl, fun n hn => absurd hn (Nat.not_lt_zero n)⟩
  | succ n ih =>
    intro b vs r h
    obtain ⟨v, ws, rest, rfl, hv, hws⟩ := read_times_succ.1 h
    obtain ⟨c, rfl, hc⟩ := hf hv
    obtain ⟨d, rfl, hd⟩ := ih hws
    refine ⟨c ++ d, (List.append_assoc c d r).symm, fun r => ?_, fun m hm => ?_⟩
    · rw [List.append_assoc]
      exact read_times_succ.2 ⟨v, ws, d ++ r, rfl, hc.read _, hd.read r⟩
    · rw [read_times_succ_eq]
      exact hc.bind_cut_append (fun _ hl => hd.bind_cut hl) hm

/-! ### Numbers of fixed width, and constants -/

theorem delimited_uint16 : uint16.Delimited := (delimited_word 2).iso

theorem delimited_uint32 : uint32.Delimited := (delimited_word 4).iso

theorem delimited_uint64 : uint64.Delimited := (delimited_word 8).iso

theorem delimited_constant (context : String) (tag : UInt8) :
    (constant context tag).Delimited :=
  delimited_uint8.refine

/-! ### Lengths, and what they count -/

section Lengths

variable (range : LengthRange)

theorem Delimited.within {count : Format Nat} (hc : count.Delimited) :
    (count.within range).Delimited :=
  hc.refine

theorem delimited_length : (length range).Delimited := delimited_compact.iso.within range

theorem delimited_length32 : (length32 range).Delimited := delimited_uint32.iso.within range

theorem delimited_bytes : (bytes range).Delimited :=
  (delimited_length range).counted delimited_raw

theorem Delimited.list (hf : f.Delimited) : (list range f).Delimited :=
  (delimited_length range).counted hf.times

theorem Delimited.list32 (hf : f.Delimited) : (list32 range f).Delimited :=
  (delimited_length32 range).counted hf.times

theorem Delimited.sized (n : Nat) (hf : f.Delimited) : (sized n f).Delimited :=
  (delimited_length _).counted fun _ => hf

theorem Delimited.columns (mismatch : Error) (hf : f.Delimited) (hg : g.Delimited) :
    (columns range mismatch f g).Delimited :=
  (delimited_length range).counted fun n =>
    ((hf.times n).seq ((delimited_length range).refine.counted hg.times)).iso

end Lengths

end Format

end ChainGovernance.Wire
