import ChainGovernance.Proofs.Hex

/-!
Which texts denote bytes, and which denote addresses.

A text denotes bytes if it is made of pairs of hexadecimal digits, where a plus sign may stand in the
place of the first digit of a pair and counts as a zero. So texts are described with those plus signs
replaced (`plusToZero`): what is then there has to be digits throughout, and in lower case it is the
text that is written for the bytes. The reader is opened once, in `bytesAfter?_eq_some_iff`.
-/

namespace ChainGovernance

namespace Hex

/-- The hexadecimal digits, in both cases. -/
def alphabet : List Char := "0123456789abcdefABCDEF".toList

/-- The digit that the first character of a pair counts as. -/
def highDigit (c : Char) : Char := if c = '+' then '0' else c

/-- The characters with every plus sign that is the first of a pair replaced by a zero. -/
def plusToZero : List Char → List Char
  | hi :: lo :: rest => highDigit hi :: lo :: plusToZero rest
  | cs => cs

/-- The characters of a pasted text that count: tabs, line feeds, carriage returns and spaces are
left out, and then one `0x` in front. -/
def kept (text : String) : List Char :=
  let cs := text.toList.filter (· ∉ ['\t', '\n', '\r', ' '])
  if ['0', 'x'] <+: cs then cs.drop 2 else cs

/-! ### Digits -/

theorem value?_of_mem {c : Char} (h : c ∈ alphabet) :
    ∃ n < 16, value? c = some n ∧ c.toLower = digit n := by
  have hall : alphabet.all fun c => (value? c).any fun n => n < 16 && c.toLower = digit n := by decide
  obtain ⟨n, hvalue, hn⟩ := (Option.any_eq_true _ _).1 (List.all_eq_true.1 hall c h)
  obtain ⟨hlt, hlower⟩ := Bool.and_eq_true_iff.1 hn
  exact ⟨n, of_decide_eq_true hlt, hvalue, of_decide_eq_true hlower⟩

theorem mem_of_value? {c : Char} {n : Nat} (h : value? c = some n) : c ∈ alphabet := by
  have hascii : c.toNat < 128 := by
    by_contra hlarge
    simp only [value?] at h
    split_ifs at h <;> omega
  have hall : ∀ m < 128, (value? (Char.ofNat m)).isSome → Char.ofNat m ∈ alphabet := by decide
  have hc := hall c.toNat hascii
  rw [Char.ofNat_toNat] at hc
  exact hc (Option.isSome_of_eq_some h)

theorem digits_ofNat {h l : Nat} (hh : h < 16) (hl : l < 16) :
    digits (UInt8.ofNat (16 * h + l)) = [digit h, digit l] := by
  have hn : (UInt8.ofNat (16 * h + l)).toNat = 16 * h + l := by
    rw [UInt8.toNat_ofNat']
    omega
  have hhigh : (16 * h + l) / 16 = h := by omega
  have hlow : (16 * h + l) % 16 = l := by omega
  rw [digits, hn, hhigh, hlow]

theorem digits_injective : Function.Injective digits := by
  intro b c h
  obtain ⟨hhigh, hlow⟩ : digit (b.toNat / 16) = digit (c.toNat / 16) ∧
      digit (b.toNat % 16) = digit (c.toNat % 16) := by simpa [digits] using h
  have hb := byte?_digits b
  rw [hhigh, hlow, byte?_digits c] at hb
  exact (Option.some.inj hb).symm

/-- A pair of characters denotes a byte if both are digits, the first after its replacement, and then
these are the digits that are written for the byte. -/
theorem byte?_eq_some_iff {hi lo : Char} {b : UInt8} :
    byte? hi lo = some b ↔ highDigit hi ∈ alphabet ∧ lo ∈ alphabet ∧
      digits b = [(highDigit hi).toLower, lo.toLower] := by
  have hplus : (if hi = '+' then some 0 else value? hi) = value? (highDigit hi) := by
    unfold highDigit
    split <;> rfl
  rw [byte?, hplus]
  constructor
  · intro hb
    split at hb
    · rename_i h l hhi hlo
      have hmem := mem_of_value? hhi
      have hmem' := mem_of_value? hlo
      obtain ⟨h', hh, hhi', hlower⟩ := value?_of_mem hmem
      obtain ⟨l', hl, hlo', hlower'⟩ := value?_of_mem hmem'
      obtain rfl : h = h' := Option.some.inj (hhi.symm.trans hhi')
      obtain rfl : l = l' := Option.some.inj (hlo.symm.trans hlo')
      refine ⟨hmem, hmem', ?_⟩
      rw [← Option.some.inj hb, digits_ofNat hh hl, hlower, hlower']
    · cases hb
  · rintro ⟨hmem, hmem', hb⟩
    obtain ⟨h, hh, hhi, hlower⟩ := value?_of_mem hmem
    obtain ⟨l, hl, hlo, hlower'⟩ := value?_of_mem hmem'
    rw [hlower, hlower', ← digits_ofNat hh hl] at hb
    rw [hhi, hlo, digits_injective hb]

/-! ### Texts of digits -/

theorem length_flatMap_digits (b : Bytes) : (b.flatMap digits).length = 2 * b.length := by
  induction b with
  | nil => rfl
  | cons x b ih =>
    rw [List.flatMap_cons, List.length_append, ih, List.length_cons]
    simp only [digits, List.length_cons, List.length_nil]
    omega

theorem length_plusToZero (cs : List Char) : (plusToZero cs).length = cs.length := by
  induction cs using plusToZero.induct with
  | case1 hi lo rest ih => simp only [plusToZero, List.length_cons, ih]
  | case2 cs hshort =>
    rw [plusToZero]
    exact hshort

theorem plusToZero_of_not_mem {cs : List Char} (h : '+' ∉ cs) : plusToZero cs = cs := by
  induction cs using plusToZero.induct with
  | case1 hi lo rest ih =>
    simp only [List.mem_cons, not_or] at h
    obtain ⟨hhi, -, hrest⟩ := h
    rw [plusToZero, ih hrest, highDigit, if_neg (Ne.symm hhi)]
  | case2 cs hshort =>
    rw [plusToZero]
    exact hshort

theorem toList_encode (b : Bytes) : (encode b).toList = b.flatMap digits := by
  rw [encode, String.toList_ofList]

/-- What is left when no pair is. -/
theorem eq_nil_or_singleton {cs : List Char} (h : ∀ hi lo rest, cs ≠ hi :: lo :: rest) :
    cs = [] ∨ ∃ c, cs = [c] := by
  cases cs with
  | nil => exact .inl rfl
  | cons c cs =>
    cases cs with
    | nil => exact .inr ⟨c, rfl⟩
    | cons lo rest => exact absurd rfl (h c lo rest)

/-- Digits are, in lower case, those of some bytes, if there is an even number of them. -/
theorem exists_digits_iff {cs : List Char} (h : ∀ c ∈ cs, c ∈ alphabet) :
    (∃ b : Bytes, b.flatMap digits = cs.map Char.toLower) ↔ Even cs.length := by
  constructor
  · rintro ⟨b, hb⟩
    have hlength := congrArg List.length hb
    rw [length_flatMap_digits, List.length_map] at hlength
    exact ⟨b.length, by omega⟩
  · intro heven
    induction cs using plusToZero.induct with
    | case1 hi lo rest ih =>
      obtain ⟨hhi, h⟩ := List.forall_mem_cons.1 h
      obtain ⟨hlo, hrest⟩ := List.forall_mem_cons.1 h
      have heven' : Even rest.length := by simpa [Nat.even_add_one] using heven
      obtain ⟨b, hb⟩ := ih hrest heven'
      obtain ⟨n, hn, -, hlower⟩ := value?_of_mem hhi
      obtain ⟨m, hm, -, hlower'⟩ := value?_of_mem hlo
      refine ⟨UInt8.ofNat (16 * n + m) :: b, ?_⟩
      rw [List.flatMap_cons, digits_ofNat hn hm, hb, ← hlower, ← hlower']
      rfl
    | case2 cs hshort =>
      obtain rfl | ⟨c, rfl⟩ := eq_nil_or_singleton hshort
      · exact ⟨[], rfl⟩
      · simp at heven

theorem bytesAfter?_pair {done b : Bytes} {hi lo : Char} {rest : List Char} :
    bytesAfter? done (hi :: lo :: rest) = some b ↔
      ∃ x, byte? hi lo = some x ∧ bytesAfter? (x :: done) rest = some b := by
  rw [bytesAfter?]
  cases byte? hi lo with
  | none => simp
  | some x => simp

/-- The bytes that are read have the digits that are there when the plus signs are replaced. -/
theorem bytesAfter?_eq_some_iff {done b : Bytes} {cs : List Char} :
    bytesAfter? done cs = some b ↔ (∀ c ∈ plusToZero cs, c ∈ alphabet) ∧
      ∃ read, b = done.reverse ++ read ∧ read.flatMap digits = (plusToZero cs).map Char.toLower := by
  induction cs using plusToZero.induct generalizing done with
  | case1 hi lo rest ih =>
    rw [bytesAfter?_pair, plusToZero, List.forall_mem_cons, List.forall_mem_cons, List.map_cons, List.map_cons]
    constructor
    · rintro ⟨x, hx, hb⟩
      obtain ⟨hhi, hlo, hdigits⟩ := byte?_eq_some_iff.1 hx
      obtain ⟨hrest, read, rfl, hread⟩ := ih.1 hb
      refine ⟨⟨hhi, hlo, hrest⟩, x :: read, ?_, ?_⟩
      · rw [List.reverse_cons, List.append_assoc, List.singleton_append]
      · rw [List.flatMap_cons, hdigits, hread]
        rfl
    · rintro ⟨⟨hhi, hlo, hrest⟩, read, rfl, hread⟩
      cases read with
      | nil => cases hread
      | cons x read =>
        have happend : digits x ++ read.flatMap digits =
            [(highDigit hi).toLower, lo.toLower] ++ (plusToZero rest).map Char.toLower := hread
        obtain ⟨hx, hread⟩ := List.append_inj happend rfl
        refine ⟨x, byte?_eq_some_iff.2 ⟨hhi, hlo, hx⟩, ih.2 ⟨hrest, read, ?_, hread⟩⟩
        rw [List.reverse_cons, List.append_assoc, List.singleton_append]
  | case2 cs hshort =>
    obtain rfl | ⟨c, rfl⟩ := eq_nil_or_singleton hshort
    · constructor
      · intro hb
        obtain rfl := Option.some.inj hb
        exact ⟨List.forall_mem_nil _, [], (List.append_nil _).symm, rfl⟩
      · rintro ⟨-, read, rfl, hread⟩
        have hlength := congrArg List.length hread
        rw [length_flatMap_digits] at hlength
        obtain rfl : read = [] := List.length_eq_zero_iff.1 (by simpa [plusToZero] using hlength)
        rw [List.append_nil]
        rfl
    · -- one character is no pair, and no bytes have one digit
      simp only [bytesAfter?, reduceCtorEq, false_iff, not_and, not_exists]
      rintro - read - hread
      have hlength := congrArg List.length hread
      rw [length_flatMap_digits, List.length_map, length_plusToZero, List.length_singleton] at hlength
      omega

theorem decode?_eq_some_iff {text : String} {b : Bytes} :
    decode? text = some b ↔ (∀ c ∈ plusToZero text.toList, c ∈ alphabet) ∧
      (encode b).toList = (plusToZero text.toList).map Char.toLower := by
  rw [decode?, bytesAfter?_eq_some_iff, toList_encode]
  simp only [List.reverse_nil, List.nil_append, exists_eq_left']

theorem exists_decode?_iff {text : String} :
    (∃ b, decode? text = some b) ↔
      Even text.length ∧ ∀ c ∈ plusToZero text.toList, c ∈ alphabet := by
  have hlength : (plusToZero text.toList).length = text.length := by
    rw [length_plusToZero, String.length_toList]
  constructor
  · rintro ⟨b, hb⟩
    obtain ⟨hdigits, hb⟩ := decode?_eq_some_iff.1 hb
    refine ⟨hlength ▸ (exists_digits_iff hdigits).1 ⟨b, ?_⟩, hdigits⟩
    rw [← toList_encode, hb]
  · rintro ⟨heven, hdigits⟩
    obtain ⟨b, hb⟩ := (exists_digits_iff hdigits).2 (hlength ▸ heven)
    exact ⟨b, decode?_eq_some_iff.2 ⟨hdigits, by rw [toList_encode, hb]⟩⟩

/-! ### Pasted texts -/

theorem dropMarker_eq (cs : List Char) :
    dropMarker cs = if ['0', 'x'] <+: cs then cs.drop 2 else cs := by
  unfold dropMarker
  split
  · rename_i rest
    have hprefix : ['0', 'x'] <+: '0' :: 'x' :: rest := ⟨rest, rfl⟩
    rw [if_pos hprefix]
    rfl
  · rename_i hmarker
    rw [if_neg]
    rintro ⟨rest, rfl⟩
    exact hmarker rest rfl

theorem kept_eq (text : String) :
    dropMarker (text.toList.filter fun c => !isLayout c) = kept text := by
  have hblanks : (fun c => !isLayout c) = fun c => decide (c ∉ ['\t', '\n', '\r', ' ']) := by
    funext c
    rw [Bool.eq_iff_iff]
    simp [isLayout, and_assoc]
  rw [hblanks, dropMarker_eq, kept]

theorem mem_of_mem_kept {text : String} {c : Char} (h : c ∈ kept text) : c ∈ text.toList := by
  have hfilter : c ∈ text.toList.filter (· ∉ ['\t', '\n', '\r', ' ']) := by
    simp only [kept] at h
    split at h
    · exact List.mem_of_mem_drop h
    · exact h
  exact List.mem_of_mem_filter hfilter

theorem decodeFormatted?_eq_some_iff {text : String} {b : Bytes} :
    decodeFormatted? text = some b ↔ (∀ c ∈ plusToZero (kept text), c ∈ alphabet) ∧
      (encode b).toList = (plusToZero (kept text)).map Char.toLower := by
  rw [decodeFormatted?, kept_eq, bytesAfter?_eq_some_iff, toList_encode]
  simp only [List.reverse_nil, List.nil_append, exists_eq_left']

end Hex

/-! ### Addresses -/

namespace Address

theorem ofText?_eq_ok_iff {text : String} {a : Address} :
    ofText? text = .ok a ↔ Hex.decodeFormatted? text = some a.toBytes := by
  unfold ofText?
  cases Hex.decodeFormatted? text with
  | none => simp
  | some b =>
    simp only [Option.some.injEq]
    constructor
    · intro h
      split at h
      · rename_i f hf
        rw [← Except.ok.inj h, FixedBytes.toBytes_of_ofBytes? hf]
      · cases h
    · rintro rfl
      rw [FixedBytes.ofBytes?_toBytes]

theorem ofText?_spelled {text : String} {a : Address} (h : ofText? text = .ok a) :
    (∀ c ∈ Hex.plusToZero (Hex.kept text), c ∈ Hex.alphabet) ∧
      a.text.toList = (Hex.plusToZero (Hex.kept text)).map Char.toLower :=
  Hex.decodeFormatted?_eq_some_iff.1 (ofText?_eq_ok_iff.1 h)

/-- The twenty bytes of an address have forty digits. -/
theorem exists_ofText?_iff {text : String} :
    (∃ a, ofText? text = .ok a) ↔ (Hex.kept text).length = 40 ∧
      ∀ c ∈ Hex.plusToZero (Hex.kept text), c ∈ Hex.alphabet := by
  have hlength : (Hex.plusToZero (Hex.kept text)).length = (Hex.kept text).length :=
    Hex.length_plusToZero _
  constructor
  · rintro ⟨a, ha⟩
    obtain ⟨hdigits, htext⟩ := ofText?_spelled ha
    have hcount := congrArg List.length htext
    rw [Address.text, Hex.toList_encode, Hex.length_flatMap_digits, a.length_eq, List.length_map,
      hlength] at hcount
    exact ⟨hcount.symm, hdigits⟩
  · rintro ⟨hforty, hdigits⟩
    have heven : Even (Hex.plusToZero (Hex.kept text)).length := ⟨20, by omega⟩
    obtain ⟨b, hb⟩ := (Hex.exists_digits_iff hdigits).2 heven
    have hcount := congrArg List.length hb
    rw [Hex.length_flatMap_digits, List.length_map, hlength, hforty] at hcount
    have htwenty : b.length = 20 := by omega
    refine ⟨⟨b, htwenty⟩, ofText?_eq_ok_iff.2 (Hex.decodeFormatted?_eq_some_iff.2 ⟨hdigits, ?_⟩)⟩
    rw [Hex.toList_encode, hb]

end Address

/-! ### Which texts denote -/

namespace Hex

/-- **The texts that denote bytes, and those that denote addresses.** Bytes are denoted by an even
number of digits, addresses by forty once a pasted text is cleared; a plus sign that is the first of a
pair counts as a zero in both. In lower case the digits are the text of what is denoted. In texts
without a plus sign there is nothing to replace. -/
theorem denotes_exact (text : String) :
    ((∃ b, decode? text = some b) ↔
        Even text.length ∧ ∀ c ∈ plusToZero text.toList, c ∈ alphabet) ∧
      (∀ b, decode? text = some b →
        (encode b).toList = (plusToZero text.toList).map Char.toLower) ∧
      ((∃ a, Address.ofText? text = .ok a) ↔
        (kept text).length = 40 ∧ ∀ c ∈ plusToZero (kept text), c ∈ alphabet) ∧
      (∀ a, Address.ofText? text = .ok a →
        a.text.toList = (plusToZero (kept text)).map Char.toLower) ∧
      ('+' ∉ text.toList →
        plusToZero text.toList = text.toList ∧ plusToZero (kept text) = kept text) := by
  refine ⟨exists_decode?_iff, fun b hb => (decode?_eq_some_iff.1 hb).2,
    Address.exists_ofText?_iff, fun a ha => (Address.ofText?_spelled ha).2, fun hplus => ?_⟩
  exact ⟨plusToZero_of_not_mem hplus, plusToZero_of_not_mem (mt mem_of_mem_kept hplus)⟩

/-- A pasted text of an address, without a plus sign. -/
theorem denotes_exact_pasted :
    '+' ∉ " 0xABCDEF0123456789abcd ef0123456789ABCDEF01\n".toList ∧
      ∃ a, Address.ofText? " 0xABCDEF0123456789abcd ef0123456789ABCDEF01\n" = .ok a ∧
        a.text = "abcdef0123456789abcdef0123456789abcdef01" := by
  have hplus : '+' ∉ " 0xABCDEF0123456789abcd ef0123456789ABCDEF01\n".toList := by decide
  obtain ⟨-, -, hexists, hvalue, hplain⟩ :=
    denotes_exact " 0xABCDEF0123456789abcd ef0123456789ABCDEF01\n"
  have hdigits : (plusToZero (kept " 0xABCDEF0123456789abcd ef0123456789ABCDEF01\n")).all
      (· ∈ alphabet) := by decide
  obtain ⟨a, ha⟩ := hexists.2
    ⟨by decide, fun c hc => of_decide_eq_true (List.all_eq_true.1 hdigits c hc)⟩
  refine ⟨hplus, a, ha, ?_⟩
  have htext := hvalue a ha
  rw [(hplain hplus).2] at htext
  rw [← String.toList_inj, htext]
  decide

/-- A plus sign is no digit, but texts with one denote bytes and addresses. -/
theorem plus_denotes :
    decode? "+f" = some [15] ∧ '+' ∉ alphabet ∧
      Address.ofText? "+7+7+7+7+7+7+7+7+7+7+7+7+7+7+7+7+7+7+7+7" =
        .ok ⟨List.replicate 20 7, rfl⟩ := by
  refine ⟨by decide, by decide, by decide +kernel⟩

end Hex

end ChainGovernance
