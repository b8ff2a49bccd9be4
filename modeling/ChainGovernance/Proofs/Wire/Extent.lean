import Mathlib.Tactic
import ChainGovernance.Proofs.Wire.Canonical

/-!
Lengths in front of what they count, and which values come back from their bytes.

An `Extent` is a length that is written, beside the range that its place allows. The extents of a
value are listed in the order in which they are written, and `survey` goes through them up to the
first that does not fit. `Restores` says what reading makes of the bytes of a value, whatever follows
them: the value, if all its extents fit, and otherwise the first that does not is the fault.
`Measured` is the way back: the extents of every value that is read fit. Both are kept by every way
to put formats together.
-/

namespace ChainGovernance.Wire

/-- A length that is written, and the lengths that are allowed at its place. -/
structure Extent where
  length : Nat
  range : LengthRange
  /-- The first length that has no written form. -/
  capacity : Nat

namespace Extent

/-- The length is allowed at its place. -/
def Fits (e : Extent) : Prop := e.range.contains e.length = true

/-- The length has a written form. -/
def Writable (e : Extent) : Prop := e.length < e.capacity

instance : DecidablePred Fits := fun _ => inferInstanceAs (Decidable (_ = true))

instance : DecidablePred Writable := fun _ => inferInstanceAs (Decidable (_ < _))

variable {n m c : Nat}

@[simp] theorem fits_upTo : Fits ⟨n, .upTo m, c⟩ ↔ n ≤ m := by
  simp [Fits, LengthRange.contains, LengthRange.upTo]

@[simp] theorem fits_between {a : Nat} : Fits ⟨n, .between a m, c⟩ ↔ a ≤ n ∧ n ≤ m := by
  simp [Fits, LengthRange.contains, LengthRange.between]

/-! ### The first that does not fit -/

/-- Goes through extents in their order, up to the first that does not fit. -/
def survey : List Extent → Except Error Unit
  | [] => .ok ()
  | e :: es => if e.Fits then survey es else .error (.invalidLength e.length)

variable {es fs : List Extent}

theorem survey_append : survey (es ++ fs) = survey es >>= fun _ => survey fs := by
  induction es with
  | nil => rfl
  | cons e es ih =>
    rw [List.cons_append, survey, survey]
    split
    · exact ih
    · rfl

theorem survey_eq_ok (h : ∀ e ∈ es, e.Fits) : survey es = .ok () := by
  induction es with
  | nil => rfl
  | cons e es ih =>
    obtain ⟨he, hes⟩ := List.forall_mem_cons.1 h
    rw [survey, if_pos he, ih hes]

theorem survey_eq_error (h : ¬ ∀ e ∈ es, e.Fits) :
    ∃ before e after, es = before ++ e :: after ∧ (∀ d ∈ before, d.Fits) ∧ ¬ e.Fits ∧
      survey es = .error (.invalidLength e.length) := by
  induction es with
  | nil => exact absurd (List.forall_mem_nil _) h
  | cons e es ih =>
    by_cases he : e.Fits
    · obtain ⟨before, d, after, rfl, hb, hd, hs⟩ := ih fun hes => h (List.forall_mem_cons.2 ⟨he, hes⟩)
      refine ⟨e :: before, d, after, rfl, List.forall_mem_cons.2 ⟨he, hb⟩, hd, ?_⟩
      rw [survey, if_pos he, hs]
    · exact ⟨[], e, es, rfl, List.forall_mem_nil _, he, by rw [survey, if_neg he]⟩

end Extent

namespace Format

open Extent (survey survey_append)

variable {α β : Type} {f : Format α} {g : Format β} {es fs : List Extent}

/-- What reading makes of the bytes of `v`, whatever follows them. -/
def Restores (f : Format α) (v : α) (es : List Extent) : Prop :=
  (∀ e ∈ es, e.Writable) → ∀ r, f.read (f.write v ++ r) = (survey es).map fun _ => (v, r)

/-- The extents of what is read can be written, and fit. -/
def Measured (f : Format α) (extents : α → List Extent) : Prop :=
  f.Yields fun v => ∀ e ∈ extents v, e.Writable ∧ e.Fits

/-! ### Values without lengths -/

theorem restores_nil {v : α} (h : ∀ r, f.read (f.write v ++ r) = .ok (v, r)) : f.Restores v [] :=
  fun _ => h

theorem Restores.read {v : α} (h : f.Restores v []) (r : Bytes) :
    f.read (f.write v ++ r) = .ok (v, r) :=
  h (List.forall_mem_nil _) r

theorem Restores.read_of_fits {v : α} (h : f.Restores v es) (hes : ∀ e ∈ es, e.Writable ∧ e.Fits)
    (r : Bytes) : f.read (f.write v ++ r) = .ok (v, r) := by
  rw [h fun e he => (hes e he).1, Extent.survey_eq_ok fun e he => (hes e he).2]
  rfl

theorem measured_nil : f.Measured fun _ => [] :=
  fun _ _ _ _ => List.forall_mem_nil _

/-- No two values have one spelling, and none has a spelling that starts with that of another. It is
enough that one of the two comes back when it is read. -/
theorem Restores.unique {v w : α} {x y : Bytes} (hv : f.Restores v es) (hw : f.Restores w fs)
    (hes : ∀ e ∈ es, e.Writable ∧ e.Fits) (hfs : ∀ e ∈ fs, e.Writable)
    (h : f.write v ++ x = f.write w ++ y) : v = w ∧ x = y := by
  have hread := hv.read_of_fits hes x
  rw [h, hw hfs] at hread
  cases hs : survey fs with
  | error e =>
    rw [hs] at hread
    cases hread
  | ok u =>
    rw [hs] at hread
    obtain ⟨hwv, hyx⟩ := Prod.mk.inj (Except.ok.inj hread)
    exact ⟨hwv.symm, hyx.symm⟩

theorem Restores.unique_nil {v w : α} {x y : Bytes} (hv : f.Restores v []) (hw : f.Restores w [])
    (h : f.write v ++ x = f.write w ++ y) : v = w ∧ x = y :=
  hv.unique hw (List.forall_mem_nil _) (List.forall_mem_nil _) h

theorem restores_raw (v : Bytes) : (raw v.length).Restores v [] :=
  restores_nil fun _ => read_raw.2 ⟨rfl, rfl⟩

theorem restores_uint8 (v : UInt8) : uint8.Restores v [] :=
  restores_nil fun _ => read_uint8.2 rfl

theorem restores_word {width v : Nat} (h : v < 256 ^ width) : (word width).Restores v [] :=
  restores_nil fun _ => read_word.2 ⟨h, rfl⟩

theorem restores_fixed {n : Nat} (v : FixedBytes n) : (fixed n).Restores v [] :=
  restores_nil fun _ => read_fixed.2 rfl

theorem restores_compact (v : UInt64) : compact.Restores v [] :=
  restores_nil fun _ => Compact.read_eq_ok_iff.2 rfl

/-! ### Formats from formats -/

theorem Restores.refine {parse : α → Except Error β} {print : β → α} {v : β}
    (hf : f.Restores (print v) es) (h : parse (print v) = .ok v) :
    (f.refine parse print).Restores v es := by
  intro hw r
  change (f.read (f.write (print v) ++ r) >>= _) = _
  rw [hf hw]
  cases survey es with
  | error e => rfl
  | ok u =>
    change (parse (print v) >>= fun v => pure (v, r)) = _
    rw [h]
    rfl

theorem Restores.iso {parse : α → β} {print : β → α} {v : β} (hf : f.Restores (print v) es)
    (h : parse (print v) = v) : (f.iso parse print).Restores v es := by
  intro hw r
  change (f.read (f.write (print v) ++ r) >>= _) = _
  rw [hf hw]
  cases survey es with
  | error e => rfl
  | ok u =>
    change Except.ok (parse (print v), r) = _
    rw [h]
    rfl

theorem Restores.guard {p : α → Prop} [DecidablePred p] {e : α → Error} {v : α}
    (hf : f.Restores v es) (hv : p v) :
    (f.refine (fun a => if p a then .ok a else .error (e a)) id).Restores v es :=
  Restores.refine hf (if_pos hv)

/-- What is read behind a value that was written. -/
theorem Restores.bind {v : α} {k : α × Bytes → Except Error β} {b : Bytes} {w : β}
    (hf : f.Restores v es) (hw : ∀ e ∈ es, e.Writable)
    (hk : k (v, b) = (survey fs).map fun _ => w) :
    (f.read (f.write v ++ b) >>= k) = (survey (es ++ fs)).map fun _ => w := by
  rw [hf hw, survey_append]
  cases survey es with
  | error e => rfl
  | ok u => exact hk

theorem Restores.seq {x : α} {y : β} (hf : f.Restores x es) (hg : g.Restores y fs) :
    (f.seq g).Restores (x, y) (es ++ fs) := by
  intro hw r
  obtain ⟨hes, hfs⟩ := List.forall_mem_append.1 hw
  change (f.read (f.write x ++ g.write y ++ r) >>= _) = _
  rw [List.append_assoc]
  refine hf.bind hes ?_
  change (g.read (g.write y ++ r) >>= _) = _
  rw [← List.append_nil fs]
  exact hg.bind hfs rfl

theorem Restores.counted {count : Format Nat} {measure : α → Nat} {body : Nat → Format α} {v : α}
    (hc : count.Restores (measure v) es) (hb : (body (measure v)).Restores v fs) :
    (count.counted measure body).Restores v (es ++ fs) := by
  intro hw r
  obtain ⟨hes, hfs⟩ := List.forall_mem_append.1 hw
  change (count.read (count.write (measure v) ++ (body (measure v)).write v ++ r) >>= _) = _
  rw [List.append_assoc]
  exact hc.bind hes (hb hfs r)

theorem read_times_succ_eq (n : Nat) (b : Bytes) :
    (f.times (n + 1)).read b = (do
      let (v, rest) ← f.read b
      let (vs, rest) ← (f.times n).read rest
      pure (v :: vs, rest)) := by
  simp only [times, readTimes]
  cases f.read b with
  | error e => rfl
  | ok p => exact readTimes_eq_map f.read n [p.1] p.2

theorem Restores.times {extents : α → List Extent} {vs : List α}
    (h : ∀ v ∈ vs, f.Restores v (extents v)) :
    (f.times vs.length).Restores vs (vs.flatMap extents) := by
  induction vs with
  | nil => exact restores_nil fun _ => rfl
  | cons v vs ih =>
    intro hw r
    obtain ⟨hv, hvs⟩ := List.forall_mem_cons.1 h
    rw [List.flatMap_cons] at hw ⊢
    obtain ⟨hes, hfs⟩ := List.forall_mem_append.1 hw
    -- what follows the first value is the rest of the list, and behind it `r`
    rw [List.length_cons, read_times_succ_eq]
    change (f.read (f.write v ++ (f.times vs.length).write vs ++ r) >>= _) = _
    rw [List.append_assoc]
    refine hv.bind hes ?_
    change ((f.times vs.length).read ((f.times vs.length).write vs ++ r) >>= _) = _
    rw [← List.append_nil (vs.flatMap extents)]
    exact (ih hvs).bind hfs rfl

theorem Yields.refine {parse : α → Except Error β} {print : β → α} {P : α → Prop} {Q : β → Prop}
    (hf : f.Yields P) (h : ∀ a v, parse a = .ok v → P a → Q v) :
    (f.refine parse print).Yields Q := by
  intro b v r hb
  obtain ⟨a, ha, hv⟩ := read_refine.1 hb
  exact h a v hv (hf ha)

theorem Measured.iso {parse : α → β} {print : β → α} {extents : β → List Extent}
    (hf : f.Measured fun a => extents (parse a)) : (f.iso parse print).Measured extents :=
  Yields.iso hf

theorem Measured.seq {l : α → List Extent} {m : β → List Extent} (hf : f.Measured l)
    (hg : g.Measured m) : (f.seq g).Measured fun v => l v.1 ++ m v.2 :=
  fun _ _ _ h => List.forall_mem_append.2 (Yields.seq hf hg h)

theorem Measured.counted {count : Format Nat} {measure : α → Nat} {body : Nat → Format α}
    {l : Nat → List Extent} {m : α → List Extent} (hc : count.Measured l)
    (hb : ∀ n, (body n).Measured m) (hm : ∀ n, (body n).Yields fun v => measure v = n) :
    (count.counted measure body).Measured fun v => l (measure v) ++ m v := by
  intro b v r h
  obtain ⟨n, rest, hn, hv⟩ := read_counted.1 h
  obtain rfl : measure v = n := hm n hv
  exact List.forall_mem_append.2 ⟨hc hn, hb _ hv⟩

theorem Measured.times {extents : α → List Extent} (hf : f.Measured extents) (n : Nat) :
    (f.times n).Measured fun vs => vs.flatMap extents := by
  induction n with
  | zero =>
    intro b vs r h
    obtain ⟨rfl, -⟩ := read_times_zero.1 h
    exact List.forall_mem_nil _
  | succ n ih =>
    intro b vs r h
    obtain ⟨v, ws, rest, rfl, hv, hws⟩ := read_times_succ.1 h
    exact List.forall_mem_append.2 ⟨hf hv, ih hws⟩

/-! ### Numbers of fixed width, and constants -/

theorem restores_uint16 (v : UInt16) : uint16.Restores v [] :=
  (restores_word v.toNat_lt).iso UInt16.ofNat_toNat

theorem restores_uint32 (v : UInt32) : uint32.Restores v [] :=
  (restores_word v.toNat_lt).iso UInt32.ofNat_toNat

theorem restores_uint64 (v : UInt64) : uint64.Restores v [] :=
  (restores_word v.toNat_lt).iso UInt64.ofNat_toNat

theorem restores_flag (v : Bool) : flag.Restores v [] := by
  refine (restores_uint8 _).refine ?_
  cases v <;> rfl

theorem restores_constant (context : String) (tag : UInt8) :
    (constant context tag).Restores () [] :=
  (restores_uint8 tag).refine (if_pos rfl)

/-! ### Lengths, and what they count -/

section Lengths

variable (range : LengthRange)

theorem Restores.within {count : Format Nat} {n c : Nat} (h : n < c → count.Restores n []) :
    (count.within range).Restores n [⟨n, range, c⟩] := by
  intro hw r
  have hn : n < c := hw _ (List.mem_singleton_self _)
  change (count.read (count.write n ++ r) >>= _) = _
  rw [(h hn).read]
  change ((if range.contains n = true then .ok n else .error (.invalidLength n) :
      Except Error Nat) >>= fun m => pure (m, r)) =
    (if range.contains n = true then .ok () else .error (.invalidLength n) :
      Except Error Unit).map fun _ => (n, r)
  split <;> rfl

theorem restores_length (n : Nat) : (length range).Restores n [⟨n, range, 2 ^ 64⟩] :=
  .within range fun hn => (restores_compact _).iso (UInt64.toNat_ofNat_of_lt' hn)

theorem restores_length32 (n : Nat) : (length32 range).Restores n [⟨n, range, 2 ^ 32⟩] :=
  .within range fun hn => (restores_uint32 _).iso (UInt32.toNat_ofNat_of_lt' hn)

theorem Measured.within {count : Format Nat} {c : Nat} (h : count.Yields fun n => n < c) :
    (count.within range).Measured fun n => [⟨n, range, c⟩] := by
  intro b n r hb
  obtain ⟨hn, hr⟩ := (read_within range).1 hb
  exact List.forall_mem_singleton.2 ⟨h hn, hr⟩

theorem measured_length : (length range).Measured fun n => [⟨n, range, 2 ^ 64⟩] :=
  .within range (.iso fun _ v _ _ => v.toNat_lt)

theorem measured_length32 : (length32 range).Measured fun n => [⟨n, range, 2 ^ 32⟩] :=
  .within range (.iso fun _ v _ _ => v.toNat_lt)

theorem restores_bytes (v : Bytes) : (bytes range).Restores v [⟨v.length, range, 2 ^ 64⟩] :=
  (restores_length range v.length).counted (restores_raw v)

theorem measured_bytes : (bytes range).Measured fun v => [⟨v.length, range, 2 ^ 64⟩] :=
  (measured_length range).counted (fun _ => measured_nil) yields_raw

/-- Values without lengths come back, however many there are. -/
theorem Restores.times_nil {vs : List α} (h : ∀ v ∈ vs, f.Restores v []) :
    (f.times vs.length).Restores vs [] := by
  have hnil : vs.flatMap (fun _ => ([] : List Extent)) = [] :=
    List.flatMap_eq_nil_iff.2 fun _ _ => rfl
  exact hnil ▸ Restores.times h

theorem Restores.list_nil {vs : List α} (h : ∀ v ∈ vs, f.Restores v []) :
    (list range f).Restores vs [⟨vs.length, range, 2 ^ 64⟩] :=
  (restores_length range vs.length).counted (.times_nil h)

theorem Restores.list {extents : α → List Extent} {vs : List α}
    (h : ∀ v ∈ vs, f.Restores v (extents v)) :
    (list range f).Restores vs (⟨vs.length, range, 2 ^ 64⟩ :: vs.flatMap extents) :=
  (restores_length range vs.length).counted (.times h)

theorem Restores.list32 {extents : α → List Extent} {vs : List α}
    (h : ∀ v ∈ vs, f.Restores v (extents v)) :
    (list32 range f).Restores vs (⟨vs.length, range, 2 ^ 32⟩ :: vs.flatMap extents) :=
  (restores_length32 range vs.length).counted (.times h)

theorem Measured.list_nil : (list range f).Measured fun vs => [⟨vs.length, range, 2 ^ 64⟩] :=
  (measured_length range).counted (fun _ => measured_nil) (yields_times f)

theorem Measured.list {extents : α → List Extent} (hf : f.Measured extents) :
    (list range f).Measured fun vs => ⟨vs.length, range, 2 ^ 64⟩ :: vs.flatMap extents :=
  (measured_length range).counted hf.times (yields_times f)

theorem Measured.list32 {extents : α → List Extent} (hf : f.Measured extents) :
    (list32 range f).Measured fun vs => ⟨vs.length, range, 2 ^ 32⟩ :: vs.flatMap extents :=
  (measured_length32 range).counted hf.times (yields_times f)

/-- The length in front of a value of `n` bytes fits, since it is `n`. -/
theorem Restores.sized {n : Nat} {v : α} (hn : n < 2 ^ 64) (hf : f.Restores v []) :
    (sized n f).Restores v [] := by
  have hfits : Extent.Fits ⟨n, .exactly n, 2 ^ 64⟩ := contains_exactly.2 rfl
  refine restores_nil fun r => read_counted.2 ⟨n, f.write v ++ r, ?_, hf.read r⟩
  change (length (.exactly n)).read ((length (.exactly n)).write n ++ f.write v ++ r) = _
  rw [List.append_assoc, restores_length _ _ (List.forall_mem_singleton.2 hn),
    Extent.survey_eq_ok (List.forall_mem_singleton.2 hfits)]
  rfl

/-- The length of a list of pairs stands before its left halves, and again before its right
halves. -/
theorem Restores.columns (mismatch : Error) {ps : List (α × β)}
    (hf : ∀ p ∈ ps, f.Restores p.1 []) (hg : ∀ p ∈ ps, g.Restores p.2 []) :
    (columns range mismatch f g).Restores ps
      [⟨ps.length, range, 2 ^ 64⟩, ⟨ps.length, range, 2 ^ 64⟩] := by
  let again : Format Nat :=
    (length range).refine (fun m => if m = ps.length then .ok m else .error mismatch) id
  have hcount := restores_length range ps.length
  have hagain : again.Restores (ps.map Prod.snd).length [⟨ps.length, range, 2 ^ 64⟩] := by
    rw [List.length_map]
    exact hcount.guard (p := (· = ps.length)) rfl
  have hleft : (f.times ps.length).Restores (ps.map Prod.fst) [] := by
    have h := Restores.times_nil (List.forall_mem_map.2 hf)
    rwa [List.length_map] at h
  have hright : (g.times (ps.map Prod.snd).length).Restores (ps.map Prod.snd) [] :=
    Restores.times_nil (List.forall_mem_map.2 hg)
  have hhalves : ((f.times ps.length).seq (again.counted List.length g.times)).Restores ps.unzip
      ([] ++ ([⟨ps.length, range, 2 ^ 64⟩] ++ [])) := by
    rw [List.unzip_eq_map]
    exact hleft.seq (Restores.counted hagain hright)
  have hpairs : (Format.columns range mismatch f g).Restores ps
      ([⟨ps.length, range, 2 ^ 64⟩] ++ ([] ++ ([⟨ps.length, range, 2 ^ 64⟩] ++ []))) :=
    Restores.counted hcount (Restores.iso hhalves (List.zip_unzip ps))
  exact hpairs

theorem Measured.columns (mismatch : Error) :
    (columns range mismatch f g).Measured fun ps =>
      [⟨ps.length, range, 2 ^ 64⟩, ⟨ps.length, range, 2 ^ 64⟩] := by
  have hpairs : (Format.columns range mismatch f g).Measured fun ps =>
      [⟨ps.length, range, 2 ^ 64⟩] ++ [] :=
    (measured_length range).counted (fun _ => measured_nil) fun n => yields_pairs range n mismatch
  intro b ps r h
  have hlength := List.forall_mem_singleton.1 (hpairs h)
  exact List.forall_mem_cons.2 ⟨hlength, List.forall_mem_singleton.2 hlength⟩

end Lengths

end Format

end ChainGovernance.Wire
