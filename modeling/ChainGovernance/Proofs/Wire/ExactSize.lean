import Mathlib.Tactic
import ChainGovernance.ByteSize
import ChainGovernance.Wire.Schema

/-!
Sizes that are exact: as many bytes are written for a value as its size announces.

The size of a format and its writer are two functions. `ExactSize` says that they agree on every value,
and every way to put formats together keeps it; for numbers in their shortest form the two make the same
choice among the four forms. An exact size is the only one, so a size that is summed in some other way is
exact if it is the same.
-/

namespace ChainGovernance.Wire

namespace Compact

theorem length_write (v : UInt64) : (write v).length = size v := by
  unfold write size
  split_ifs <;> simp

end Compact

namespace Format

variable {α β : Type} {f : Format α} {g : Format β}

/-- As many bytes are written as announced. -/
def ExactSize (f : Format α) : Prop := ∀ v, f.size v = (f.write v).length

theorem ExactSize.encode?_eq (hf : f.ExactSize) (v : α) : f.encode? v = some (f.write v) :=
  if_pos (hf v).symm

theorem ExactSize.announcing {size : α → Nat} (hf : f.ExactSize) (h : ∀ v, f.size v = size v) :
    (f.announcing size).ExactSize :=
  fun v => (h v).symm.trans (hf v)

/-! ### Bytes and numbers -/

theorem exactSize_raw (n : Nat) : (raw n).ExactSize := fun _ => rfl

theorem exactSize_uint8 : uint8.ExactSize := fun _ => rfl

theorem exactSize_word (width : Nat) : (word width).ExactSize := fun v =>
  (LittleEndian.length_encode width v).symm

theorem exactSize_fixed (n : Nat) : (fixed n).ExactSize := fun v => v.length_eq.symm

theorem exactSize_compact : compact.ExactSize := fun v => (Compact.length_write v).symm

/-! ### Formats from formats -/

theorem ExactSize.refine {parse : α → Except Error β} {print : β → α} (hf : f.ExactSize) :
    (f.refine parse print).ExactSize :=
  fun v => hf (print v)

theorem ExactSize.iso {parse : α → β} {print : β → α} (hf : f.ExactSize) :
    (f.iso parse print).ExactSize :=
  fun v => hf (print v)

theorem ExactSize.seq (hf : f.ExactSize) (hg : g.ExactSize) : (f.seq g).ExactSize := by
  intro v
  change f.size v.1 + g.size v.2 = (f.write v.1 ++ g.write v.2).length
  rw [hf, hg, List.length_append]

theorem ExactSize.counted {count : Format Nat} {measure : α → Nat} {body : Nat → Format α}
    (hc : count.ExactSize) (hb : ∀ n, (body n).ExactSize) :
    (count.counted measure body).ExactSize := by
  intro v
  change count.size (measure v) + (body (measure v)).size v =
    (count.write (measure v) ++ (body (measure v)).write v).length
  rw [hc, hb, List.length_append]

theorem ExactSize.times (hf : f.ExactSize) (n : Nat) : (f.times n).ExactSize := by
  intro vs
  change timesSize f.size vs = (vs.flatMap f.write).length
  induction vs with
  | nil => rfl
  | cons v vs ih =>
    rw [List.flatMap_cons, List.length_append, ← ih, ← hf]
    rfl

theorem exactSize_uint16 : uint16.ExactSize := (exactSize_word 2).iso

theorem exactSize_uint32 : uint32.ExactSize := (exactSize_word 4).iso

theorem exactSize_uint64 : uint64.ExactSize := (exactSize_word 8).iso

theorem exactSize_flag : flag.ExactSize := exactSize_uint8.refine

theorem exactSize_constant (context : String) (tag : UInt8) :
    (constant context tag).ExactSize :=
  exactSize_uint8.refine

/-! ### Lengths, and what they count -/

section Lengths

variable (range : LengthRange)

theorem ExactSize.within {count : Format Nat} (hc : count.ExactSize) :
    (count.within range).ExactSize :=
  hc.refine

theorem exactSize_length : (length range).ExactSize := exactSize_compact.iso.within range

theorem exactSize_length32 : (length32 range).ExactSize := exactSize_uint32.iso.within range

theorem exactSize_bytes : (bytes range).ExactSize :=
  (exactSize_length range).counted exactSize_raw

theorem ExactSize.list (hf : f.ExactSize) : (list range f).ExactSize :=
  (exactSize_length range).counted hf.times

theorem ExactSize.list32 (hf : f.ExactSize) : (list32 range f).ExactSize :=
  (exactSize_length32 range).counted hf.times

theorem ExactSize.sized (n : Nat) (hf : f.ExactSize) : (sized n f).ExactSize :=
  (exactSize_length _).counted fun _ => hf

theorem ExactSize.columns (mismatch : Error) (hf : f.ExactSize) (hg : g.ExactSize) :
    (columns range mismatch f g).ExactSize :=
  (exactSize_length range).counted fun n =>
    ((hf.times n).seq ((exactSize_length range).refine.counted hg.times)).iso

end Lengths

end Format

/-! ### Plain values -/

namespace Schema

theorem exactSize (s : Schema) : s.format.ExactSize := by
  induction s with
  | uint8 => exact Format.exactSize_uint8
  | uint16 => exact Format.exactSize_uint16
  | uint32 => exact Format.exactSize_uint32
  | uint64 => exact Format.exactSize_uint64
  | flag => exact Format.exactSize_flag
  | array n => exact Format.exactSize_fixed n
  | compact => exact Format.exactSize_compact
  | bytes range => exact Format.exactSize_bytes range
  | list range item ih => exact ih.list range

end Schema

/-! ### Sizes of lists -/

section Lists

variable {α : Type}

theorem timesSize_const (n : Nat) (vs : List α) : timesSize (fun _ => n) vs = vs.length * n := by
  induction vs with
  | nil => rw [List.length_nil, Nat.zero_mul]; rfl
  | cons v vs ih =>
    rw [List.length_cons, Nat.succ_mul, ← ih, Nat.add_comm]
    rfl

end Lists

end ChainGovernance.Wire
