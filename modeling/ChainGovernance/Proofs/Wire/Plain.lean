import ChainGovernance.Proofs.Wire.Failing
import ChainGovernance.Wire.Schema

/-!
Plain values: for every schema, which bytes are read as which value, and which are refused for a
length.

The laws of the formats are put together by induction on the schema. `Awaits` says where in some bytes
reading comes to a length, at whatever depth; a length that is not allowed there is the fault, and
nothing that follows it matters.
-/

namespace ChainGovernance.Wire.Schema

variable {b r : Bytes} {n : Nat}

/-- The lengths inside a value, in the order in which they are written. -/
def extents : (s : Schema) → s.Value → List Extent
  | bytes range => fun v : Bytes => [⟨v.length, range, 2 ^ 64⟩]
  | list range item => fun vs : List item.Value =>
    ⟨vs.length, range, 2 ^ 64⟩ :: vs.flatMap item.extents
  | _ => fun _ => []

/-! ### The laws of formats -/

theorem canonical (s : Schema) : s.format.Canonical := by
  induction s with
  | uint8 => exact Format.canonical_uint8
  | uint16 => exact Format.canonical_uint16
  | uint32 => exact Format.canonical_uint32
  | uint64 => exact Format.canonical_uint64
  | flag => exact Format.canonical_flag
  | array n => exact Format.canonical_fixed n
  | compact => exact Format.canonical_compact
  | bytes range => exact Format.canonical_bytes range
  | list range item ih => exact ih.list range

theorem restores (s : Schema) (v : s.Value) : s.format.Restores v (s.extents v) := by
  induction s with
  | uint8 => exact Format.restores_uint8 v
  | uint16 => exact Format.restores_uint16 v
  | uint32 => exact Format.restores_uint32 v
  | uint64 => exact Format.restores_uint64 v
  | flag => exact Format.restores_flag v
  | array n => exact Format.restores_fixed v
  | compact => exact Format.restores_compact v
  | bytes range => exact Format.restores_bytes range v
  | list range item ih => exact Format.Restores.list range fun w _ => ih w

theorem measured (s : Schema) : s.format.Measured s.extents := by
  induction s with
  | bytes range => exact Format.measured_bytes range
  | list range item ih => exact ih.list range
  | _ => exact Format.measured_nil

/-- What is read is what is written for a value whose lengths can be written, and are allowed. -/
theorem read_eq_ok_iff {s : Schema} {v : s.Value} : s.format.read b = .ok (v, r) ↔
    b = s.format.write v ++ r ∧ ∀ e ∈ s.extents v, e.Writable ∧ e.Fits := by
  constructor
  · exact fun h => ⟨s.canonical h, s.measured h⟩
  · rintro ⟨rfl, hes⟩
    exact (s.restores v).read_of_fits hes r

/-! ### Lengths that are refused -/

/-- Reading comes, behind some bytes, to a length that has to lie in a range. It is the length of the
value itself, or one in an item, behind the number of items and the items in front. -/
inductive Awaits : Schema → Bytes → LengthRange → Prop
  | bytes (range : LengthRange) : Awaits (.bytes range) [] range
  | list (range : LengthRange) (item : Schema) : Awaits (.list range item) [] range
  | item {range range' : LengthRange} {item : Schema} {k : Nat} {vs : List item.Value} {c : Bytes}
      (hk : k < 2 ^ 64 ∧ range.contains k = true)
      (hvs : ∀ e ∈ vs.flatMap item.extents, e.Writable ∧ e.Fits) (hlt : vs.length < k)
      (hc : Awaits item c range') :
      Awaits (.list range item)
        (Compact.write (.ofNat k) ++ vs.flatMap item.format.write ++ c) range'

/-- The bytes come to a length `n` at a place where it is not allowed. -/
def Oversteps (s : Schema) (b : Bytes) (n : Nat) : Prop :=
  ∃ c range, s.Awaits c range ∧ n < 2 ^ 64 ∧ ¬ range.contains n = true ∧
    ∃ r, b = c ++ Compact.write (.ofNat n) ++ r

theorem oversteps_of_read_error {s : Schema} (h : s.format.read b = .error (.invalidLength n)) :
    s.Oversteps b n := by
  induction s generalizing b with
  | uint8 => exact absurd h (Format.lengthless_uint8 b n)
  | uint16 => exact absurd h ((Format.lengthless_word 2).iso b n)
  | uint32 => exact absurd h ((Format.lengthless_word 4).iso b n)
  | uint64 => exact absurd h ((Format.lengthless_word 8).iso b n)
  | flag => exact absurd h (Format.lengthless_flag b n)
  | array m => exact absurd h (Format.lengthless_fixed m b n)
  | compact => exact absurd h (Format.lengthless_compact b n)
  | bytes range =>
    rcases Format.read_counted_error.1 h with h | ⟨m, rest, -, h⟩
    · exact ⟨[], range, .bytes range, Format.read_length_error.1 h⟩
    · exact absurd h (Format.lengthless_raw m rest n)
  | list range item ih =>
    rcases Format.read_counted_error.1 h with h | ⟨k, rest, hk, h⟩
    · exact ⟨[], range, .list range item, Format.read_length_error.1 h⟩
    · -- some items are read, and the next one oversteps
      obtain ⟨vs, rest', hlt, hvs, h⟩ := Format.read_times_error.1 h
      obtain ⟨c, range', hc, hn, hrange, r, rfl⟩ := ih h
      have hfits := List.forall_mem_singleton.1 (Format.measured_length range hk)
      have hitems := (item.measured.times vs.length) hvs
      refine ⟨_, range', .item hfits hitems hlt hc, hn, hrange, r, ?_⟩
      rw [Format.canonical_length range hk, (item.canonical.times vs.length) hvs]
      simp only [List.append_assoc]
      rfl

theorem read_error_of_awaits {s : Schema} {c : Bytes} {range : LengthRange} (hc : s.Awaits c range)
    (hn : n < 2 ^ 64) (hrange : ¬ range.contains n = true) (r : Bytes) :
    s.format.read (c ++ Compact.write (.ofNat n) ++ r) = .error (.invalidLength n) := by
  induction hc with
  | bytes range | list range item =>
    exact Format.read_counted_error.2 (.inl (Format.read_length_error.2 ⟨hn, hrange, r, rfl⟩))
  | @item range range' item k vs c hk hvs hlt hc ih =>
    let tail := c ++ Compact.write (.ofNat n) ++ r
    have hcount : (Format.length range).read
        (Compact.write (.ofNat k) ++ (vs.flatMap item.format.write ++ tail)) =
          .ok (k, vs.flatMap item.format.write ++ tail) :=
      (Format.restores_length range k).read_of_fits (List.forall_mem_singleton.2 hk) _
    have hitems : (item.format.times vs.length).read (vs.flatMap item.format.write ++ tail) =
        .ok (vs, tail) :=
      (Format.Restores.times fun v _ => item.restores v).read_of_fits hvs tail
    have hnext : (item.format.times k).read (vs.flatMap item.format.write ++ tail) =
        .error (.invalidLength n) :=
      Format.read_times_error.2 ⟨vs, tail, hlt, hitems, ih hrange⟩
    have hwhole : (Format.list range item.format).read
        (Compact.write (.ofNat k) ++ (vs.flatMap item.format.write ++ tail)) =
          .error (.invalidLength n) :=
      Format.read_counted_error.2 (.inr ⟨k, _, hcount, hnext⟩)
    simp only [tail, List.append_assoc] at hwhole
    simp only [List.append_assoc]
    exact hwhole

theorem read_eq_invalidLength_iff {s : Schema} :
    s.format.read b = .error (.invalidLength n) ↔ s.Oversteps b n := by
  refine ⟨oversteps_of_read_error, ?_⟩
  rintro ⟨c, range, hc, hn, hrange, r, rfl⟩
  exact read_error_of_awaits hc hn hrange r

/-- **Plain values have one spelling each, within their ranges.** What is read of a schema is what is
written for a value all of whose lengths have a written form and lie in their ranges, and just what
follows it is left; so all of the bytes are such a value exactly if they are what is written for it. A
length is refused exactly where reading comes to it and it lies outside its range, whatever bytes come
behind it. -/
theorem plain_exact (s : Schema) :
    (∀ b v, s.format.decode b = .ok v ↔
      b = s.format.write v ∧ ∀ e ∈ s.extents v, e.Writable ∧ e.Fits) ∧
    (∀ b v r, s.format.read b = .ok (v, r) ↔
      b = s.format.write v ++ r ∧ ∀ e ∈ s.extents v, e.Writable ∧ e.Fits) ∧
    (∀ b n, s.format.read b = .error (.invalidLength n) ↔ s.Oversteps b n) ∧
    ∀ b n, s.format.decode b = .error (.invalidLength n) ↔ s.Oversteps b n := by
  refine ⟨fun b v => ?_, fun b v r => read_eq_ok_iff, fun b n => read_eq_invalidLength_iff,
    fun b n => ?_⟩
  · rw [Format.decode_eq_ok_iff, read_eq_ok_iff, List.append_nil]
  · rw [Format.decode_eq_error_iff, ← read_eq_invalidLength_iff]
    refine ⟨fun h => h.resolve_right ?_, .inl⟩
    rintro ⟨_, _, -, -, h⟩
    cases h

/-- One or two byte strings of at most two bytes each: two of them are read, and the second of two is
refused if its length is three. -/
theorem plain_exact_pair :
    let s := list ⟨.included 1, .excluded 3⟩ (bytes (.upTo 2))
    let pair : List Bytes := [[0x61, 0x62], [0x63]]
    (∀ e ∈ s.extents pair, e.Writable ∧ e.Fits) ∧
      s.format.decode [2, 2, 0x61, 0x62, 1, 0x63] = .ok pair ∧
      s.format.read [2, 2, 0x61, 0x62, 1, 0x63, 9] = .ok (pair, [9]) ∧
      ∀ r, s.format.read ([2, 2, 0x61, 0x62] ++ [3] ++ r) = .error (.invalidLength 3) := by
  intro s pair
  have hpair : ∀ e ∈ s.extents pair, e.Writable ∧ e.Fits := by decide
  have hawaits : s.Awaits [2, 2, 0x61, 0x62] (.upTo 2) :=
    @Awaits.item _ _ (bytes (.upTo 2)) 2 [([0x61, 0x62] : Bytes)] _ (by decide) (by decide)
      (by decide) (.bytes (.upTo 2))
  obtain ⟨hdecode, hread, hrefused, -⟩ := plain_exact s
  refine ⟨hpair, (hdecode _ _).2 ⟨by decide, hpair⟩, (hread _ _ _).2 ⟨by decide, hpair⟩, fun r => ?_⟩
  exact (hrefused _ _).2 ⟨_, _, hawaits, by decide, by decide, r, rfl⟩

end ChainGovernance.Wire.Schema
