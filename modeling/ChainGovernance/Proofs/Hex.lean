import Mathlib.Tactic
import ChainGovernance.Address

/-!
Hexadecimal text comes back as the bytes it was made from.

The digits that are written are no blanks, no plus signs and no `x`, so nothing is dropped from the
text of bytes (`encode_kept`) and each pair of digits is read as the byte that it was made from.
-/

namespace ChainGovernance

namespace Hex

/-! ### Digits -/

/-- What is written for a number below sixteen is one of the sixteen digits. -/
theorem digit_cases {n : Nat} (hn : n < 16) :
    value? (digit n) = some n ∧ digit n ≠ '+' ∧ digit n ≠ 'x' ∧ isLayout (digit n) = false := by
  have hall : ∀ n < 16, value? (digit n) = some n ∧ digit n ≠ '+' ∧ digit n ≠ 'x' ∧
      isLayout (digit n) = false := by decide
  exact hall n hn

theorem high_lt (b : UInt8) : b.toNat / 16 < 16 := by
  have := b.toNat_lt
  omega

theorem low_lt (b : UInt8) : b.toNat % 16 < 16 := Nat.mod_lt _ (by norm_num)

theorem byte?_digits (b : UInt8) :
    byte? (digit (b.toNat / 16)) (digit (b.toNat % 16)) = some b := by
  obtain ⟨hhigh, hplus, -, -⟩ := digit_cases (high_lt b)
  obtain ⟨hlow, -, -, -⟩ := digit_cases (low_lt b)
  rw [byte?, if_neg hplus, hhigh, hlow]
  simp only [Nat.div_add_mod, UInt8.ofNat_toNat]

/-! ### Texts -/

theorem bytesAfter?_digits (done b : Bytes) :
    bytesAfter? done (b.flatMap digits) = some (done.reverse ++ b) := by
  induction b generalizing done with
  | nil => rw [List.flatMap_nil, bytesAfter?, List.append_nil]
  | cons x b ih =>
    rw [List.flatMap_cons, digits, List.cons_append, List.cons_append, List.nil_append, bytesAfter?,
      byte?_digits]
    simp only [ih, List.reverse_cons, List.append_assoc, List.singleton_append]

theorem dropMarker_of_ne {c d : Char} {cs : List Char} (hd : d ≠ 'x') :
    dropMarker (c :: d :: cs) = c :: d :: cs := by
  unfold dropMarker
  split
  · rename_i heq
    exact absurd (List.cons.inj (List.cons.inj heq).2).1 hd
  · rfl

/-- The text of bytes is read as it stands. -/
theorem encode_kept (b : Bytes) :
    dropMarker ((encode b).toList.filter fun c => !isLayout c) = b.flatMap digits := by
  have hblanks : ∀ c ∈ b.flatMap digits, (!isLayout c) = true := by
    intro c hc
    obtain ⟨x, -, hc⟩ := List.mem_flatMap.1 hc
    rcases List.mem_pair.1 hc with rfl | rfl
    · rw [(digit_cases (high_lt x)).2.2.2, Bool.not_false]
    · rw [(digit_cases (low_lt x)).2.2.2, Bool.not_false]
  rw [encode, String.toList_ofList, List.filter_eq_self.2 hblanks]
  cases b with
  | nil => rfl
  | cons x b => exact dropMarker_of_ne (digit_cases (low_lt x)).2.2.1

theorem decodeFormatted?_encode (b : Bytes) : decodeFormatted? (encode b) = some b := by
  rw [decodeFormatted?, encode_kept, bytesAfter?_digits, List.reverse_nil, List.nil_append]

end Hex

/-- The text of an address denotes it. -/
theorem Address.ofText?_text (a : Address) : ofText? a.text = .ok a := by
  rw [ofText?, text, Hex.decodeFormatted?_encode]
  simp only [FixedBytes.ofBytes?_toBytes]

end ChainGovernance
