import ChainGovernance.Proofs.Wire.Extent

/-!
What a format refuses, and why: for every way to put formats together, in which of its parts reading
fails.

A fault of the whole is a fault of one part, in front of which everything has been read. Only lengths
can be refused as lengths, so the formats of single values are `Lengthless`, and a length is refused
behind its own bytes, before anything that follows them is looked at.
-/

namespace ChainGovernance.Wire.Format

variable {α β : Type} {f : Format α} {b : Bytes} {e : Error}

/-! ### Where reading fails -/

theorem read_refine_error {parse : α → Except Error β} {print : β → α} :
    (f.refine parse print).read b = .error e ↔
      f.read b = .error e ∨ ∃ a r, f.read b = .ok (a, r) ∧ parse a = .error e := by
  simp only [refine, bind_eq_error_iff, Prod.exists]
  refine or_congr_right (exists_congr fun a => exists_congr fun r => and_congr_right fun _ => ?_)
  refine ⟨fun h => h.resolve_right ?_, .inl⟩
  rintro ⟨_, _, h⟩
  cases h

theorem read_iso_error {parse : α → β} {print : β → α} :
    (f.iso parse print).read b = .error e ↔ f.read b = .error e := by
  simp only [iso, bind_eq_error_iff, Prod.exists]
  refine ⟨fun h => h.resolve_right ?_, .inl⟩
  rintro ⟨_, _, _, h⟩
  cases h

theorem read_counted_error {count : Format Nat} {measure : α → Nat} {body : Nat → Format α} :
    (count.counted measure body).read b = .error e ↔ count.read b = .error e ∨
      ∃ n rest, count.read b = .ok (n, rest) ∧ (body n).read rest = .error e := by
  simp only [counted, bind_eq_error_iff, Prod.exists]

/-- Some of the values are read, and then the next one is refused. -/
theorem read_times_error {n : Nat} : (f.times n).read b = .error e ↔
    ∃ vs rest, vs.length < n ∧ (f.times vs.length).read b = .ok (vs, rest) ∧
      f.read rest = .error e := by
  induction n generalizing b with
  | zero =>
    refine ⟨fun h => ?_, fun ⟨_, _, hlt, _⟩ => absurd hlt (Nat.not_lt_zero _)⟩
    cases h
  | succ n ih =>
    rw [read_times_succ_eq]
    simp only [bind_eq_error_iff, Prod.exists]
    constructor
    · rintro (h | ⟨v, rest, hv, h | ⟨vs, rest', -, h⟩⟩)
      · exact ⟨[], b, Nat.succ_pos n, rfl, h⟩
      · obtain ⟨ws, rest', hlt, hws, h⟩ := ih.1 h
        exact ⟨v :: ws, rest', Nat.succ_lt_succ hlt, read_times_succ.2 ⟨v, ws, rest, rfl, hv, hws⟩, h⟩
      · cases h
    · rintro ⟨vs, rest, hlt, hvs, h⟩
      cases vs with
      | nil =>
        obtain ⟨-, rfl⟩ := read_times_zero.1 hvs
        exact .inl h
      | cons v vs =>
        obtain ⟨v', vs', rest', heq, hv, hvs⟩ := read_times_succ.1 hvs
        obtain ⟨rfl, rfl⟩ := List.cons.inj heq
        exact .inr ⟨v, rest', hv, .inl (ih.2 ⟨vs, rest, Nat.lt_of_succ_lt_succ hlt, hvs, h⟩)⟩

/-- All of the bytes are refused for what is wrong with the value, or for what is left behind it. -/
theorem decode_eq_error_iff : f.decode b = .error e ↔ f.read b = .error e ∨
    ∃ v r, f.read b = .ok (v, r) ∧ r ≠ [] ∧ e = .extraData r.length := by
  simp only [decode, bind_eq_error_iff, Prod.exists]
  refine or_congr_right (exists_congr fun v => exists_congr fun r => and_congr_right fun _ => ?_)
  cases r with
  | nil => exact ⟨fun h => (by cases h), fun h => absurd rfl h.1⟩
  | cons x xs => exact ⟨fun h => ⟨List.cons_ne_nil x xs, (Except.error.inj h).symm⟩, fun h => h.2 ▸ rfl⟩

/-! ### Values that have no length -/

/-- Whatever is wrong with the bytes, it is no length that is refused. -/
def Lengthless (f : Format α) : Prop := ∀ b n, f.read b ≠ .error (.invalidLength n)

theorem lengthless_raw (n : Nat) : (raw n).Lengthless := by
  intro b m h
  simp only [raw] at h
  split at h <;> cases h

theorem lengthless_uint8 : uint8.Lengthless := by
  intro b n h
  cases b <;> cases h

theorem lengthless_word (width : Nat) : (word width).Lengthless := by
  intro b n h
  simp only [word, bind_eq_error_iff, Prod.exists] at h
  rcases h with h | ⟨_, _, _, h⟩
  · exact lengthless_raw width b n h
  · cases h

theorem lengthless_fixed (n : Nat) : (fixed n).Lengthless := by
  intro b m h
  simp only [fixed] at h
  split at h <;> cases h

theorem lengthless_readWide (width least : Nat) (b : Bytes) (n : Nat) :
    Compact.readWide width least b ≠ .error (.invalidLength n) := by
  intro h
  simp only [Compact.readWide, bind_eq_error_iff, Prod.exists] at h
  rcases h with h | ⟨_, _, _, h⟩
  · exact lengthless_word width b n h
  · split at h <;> cases h

theorem lengthless_compact : compact.Lengthless := by
  intro b n h
  cases b with
  | nil => cases h
  | cons marker rest =>
    simp only [compact, Compact.read] at h
    split at h
    · exact lengthless_readWide _ _ rest n h
    split at h
    · exact lengthless_readWide _ _ rest n h
    split at h
    · exact lengthless_readWide _ _ rest n h
    · cases h

theorem Lengthless.iso {parse : α → β} {print : β → α} (hf : f.Lengthless) :
    (f.iso parse print).Lengthless :=
  fun b n h => hf b n (read_iso_error.1 h)

theorem lengthless_flag : flag.Lengthless := by
  intro b n h
  rcases read_refine_error.1 h with h | ⟨v, _, _, h⟩
  · exact lengthless_uint8 b n h
  · split at h
    · cases h
    · split at h <;> cases h

/-! ### Lengths -/

variable {range : LengthRange} {n : Nat}

theorem read_within_error {count : Format Nat} : (count.within range).read b = .error e ↔
    count.read b = .error e ∨
      ∃ n r, count.read b = .ok (n, r) ∧ ¬ range.contains n = true ∧ e = .invalidLength n := by
  refine read_refine_error.trans (or_congr_right ?_)
  refine exists_congr fun n => exists_congr fun r => and_congr_right fun _ => ?_
  constructor
  · intro h
    split at h
    · cases h
    · exact ⟨‹_›, (Except.error.inj h).symm⟩
  · rintro ⟨hrange, rfl⟩
    exact if_neg hrange

/-- A length is refused as soon as it has been read. -/
theorem read_length_error : (length range).read b = .error (.invalidLength n) ↔
    n < 2 ^ 64 ∧ ¬ range.contains n = true ∧ ∃ r, b = Compact.write (.ofNat n) ++ r := by
  constructor
  · intro h
    rcases read_within_error.1 h with h | ⟨m, r, hm, hrange, heq⟩
    · exact absurd h (lengthless_compact.iso b n)
    · obtain rfl := Error.invalidLength.inj heq
      obtain ⟨u, hu, rfl⟩ := read_iso.1 hm
      refine ⟨u.toNat_lt, hrange, r, ?_⟩
      rw [UInt64.ofNat_toNat]
      exact Compact.read_eq_ok_iff.1 hu
  · rintro ⟨hlt, hrange, r, rfl⟩
    have hread : (compact.iso UInt64.toNat UInt64.ofNat).read (Compact.write (.ofNat n) ++ r) =
        .ok (n, r) :=
      read_iso.2 ⟨.ofNat n, Compact.read_eq_ok_iff.2 rfl, UInt64.toNat_ofNat_of_lt' hlt⟩
    exact read_within_error.2 (.inr ⟨n, r, hread, hrange, rfl⟩)

end ChainGovernance.Wire.Format
