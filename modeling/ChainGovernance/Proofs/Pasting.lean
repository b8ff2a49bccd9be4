import ChainGovernance.Proofs.Param.Parts
import ChainGovernance.Proofs.RoundTrip
import ChainGovernance.Proofs.Spelling

/-!
Hexadecimal text that was pasted.

Between the text of some bytes and what arrives of it, digits may have changed their case, a `0x` may
have come in front, and blanks may have come in anywhere, also into the `0x` and between the two digits
of a byte (`Pasted`). What is left of such a text when it is cleared are the digits alone
(`kept_of_pasted`), so it denotes the bytes; and but for plus signs no other text does
(`decodeFormatted?_eq_some_iff_pasted`). Addresses and parameters see nothing of a text but what it
denotes.
-/

namespace ChainGovernance

namespace Hex

/-- `text` is `cs` with tabs, line feeds, carriage returns and spaces put in anywhere. -/
inductive Spaced : List Char → List Char → Prop
  | nil : Spaced [] []
  | blank {c : Char} {cs text : List Char} (hc : c ∈ ['\t', '\n', '\r', ' '])
      (h : Spaced cs text) : Spaced cs (c :: text)
  | keep {cs text : List Char} (c : Char) (h : Spaced cs text) : Spaced (c :: cs) (c :: text)

/-- `text` is a text of some bytes as it arrives: their digits, each in either case, perhaps behind a
`0x`, with blanks anywhere. -/
def Pasted (b : Bytes) (text : String) : Prop :=
  ∃ marker cs, (marker = [] ∨ marker = ['0', 'x']) ∧
    List.Forall₂ (fun d c => c = d ∨ c = d.toUpper) (encode b).toList cs ∧
    Spaced (marker ++ cs) text.toList

variable {b : Bytes} {text : String}

/-! ### Blanks -/

theorem Spaced.filter_eq {cs text : List Char} (h : Spaced cs text)
    (hcs : ∀ c ∈ cs, c ∉ ['\t', '\n', '\r', ' ']) :
    text.filter (· ∉ ['\t', '\n', '\r', ' ']) = cs := by
  induction h with
  | nil => rfl
  | blank hc h ih =>
    simp only [List.filter_cons, hc, not_true_eq_false, decide_false, Bool.false_eq_true, if_false]
    exact ih hcs
  | keep c h ih =>
    obtain ⟨hc, hcs⟩ := List.forall_mem_cons.1 hcs
    simp only [List.filter_cons, hc, not_false_eq_true, decide_true, if_true, ih hcs]

theorem spaced_filter (text : List Char) :
    Spaced (text.filter (· ∉ ['\t', '\n', '\r', ' '])) text := by
  induction text with
  | nil => exact .nil
  | cons c text ih =>
    by_cases hc : c ∈ ['\t', '\n', '\r', ' ']
    · simp only [List.filter_cons, hc, not_true_eq_false, decide_false, Bool.false_eq_true, if_false]
      exact .blank hc ih
    · simp only [List.filter_cons, hc, not_false_eq_true, decide_true, if_true]
      exact .keep c ih

/-! ### Digits in either case -/

theorem plain_of_mem {c : Char} (h : c ∈ alphabet) :
    c ≠ '+' ∧ c ≠ 'x' ∧ c ∉ ['\t', '\n', '\r', ' '] := by
  have hall : alphabet.all fun c => c ≠ '+' ∧ c ≠ 'x' ∧ c ∉ ['\t', '\n', '\r', ' '] := by decide
  exact of_decide_eq_true (List.all_eq_true.1 hall c h)

/-- What a digit below sixteen may have become. -/
theorem recased_digit_iff {n : Nat} (hn : n < 16) (c : Char) :
    c = digit n ∨ c = (digit n).toUpper ↔ c ∈ alphabet ∧ c.toLower = digit n := by
  have hof : (List.range 16).all fun n => [digit n, (digit n).toUpper].all fun c =>
      c ∈ alphabet ∧ c.toLower = digit n := by decide
  have hto : alphabet.all fun c => c = c.toLower ∨ c = c.toLower.toUpper := by decide
  constructor
  · intro h
    have hn := List.all_eq_true.1 hof n (List.mem_range.2 hn)
    exact of_decide_eq_true (List.all_eq_true.1 hn c (List.mem_pair.2 h))
  · rintro ⟨hc, hlower⟩
    rw [← hlower]
    exact of_decide_eq_true (List.all_eq_true.1 hto c hc)

theorem digit_of_mem_encode (b : Bytes) (d : Char) (h : d ∈ (encode b).toList) :
    ∃ n < 16, d = digit n := by
  rw [toList_encode] at h
  obtain ⟨x, -, hd⟩ := List.mem_flatMap.1 h
  rcases List.mem_pair.1 hd with rfl | rfl
  · exact ⟨_, high_lt x, rfl⟩
  · exact ⟨_, low_lt x, rfl⟩

theorem forall₂_recased_iff {ds cs : List Char} (hds : ∀ d ∈ ds, ∃ n < 16, d = digit n) :
    List.Forall₂ (fun d c => c = d ∨ c = d.toUpper) ds cs ↔
      (∀ c ∈ cs, c ∈ alphabet) ∧ cs.map Char.toLower = ds := by
  induction ds generalizing cs with
  | nil =>
    rw [List.forall₂_nil_left_iff, List.map_eq_nil_iff]
    exact ⟨fun h => ⟨h ▸ List.forall_mem_nil _, h⟩, fun h => h.2⟩
  | cons d ds ih =>
    obtain ⟨⟨n, hn, rfl⟩, htail⟩ := List.forall_mem_cons.1 hds
    cases cs with
    | nil => simp
    | cons c cs =>
      rw [List.forall₂_cons, ih htail, recased_digit_iff hn, List.forall_mem_cons, List.map_cons,
        List.cons.injEq]
      tauto

/-! ### Texts that arrive -/

/-- Blanks are dropped first, so that a `0x` with blanks in it is found. -/
theorem kept_of_pasted {marker cs : List Char} (hmarker : marker = [] ∨ marker = ['0', 'x'])
    (hcs : ∀ c ∈ cs, c ∈ alphabet) (h : Spaced (marker ++ cs) text.toList) : kept text = cs := by
  have hplain : ∀ c ∈ marker ++ cs, c ∉ ['\t', '\n', '\r', ' '] := by
    intro c hc
    rcases List.mem_append.1 hc with hc | hc
    · rcases hmarker with rfl | rfl
      · cases hc
      · rcases List.mem_pair.1 hc with rfl | rfl <;> decide
    · exact (plain_of_mem (hcs c hc)).2.2
  simp only [kept, h.filter_eq hplain]
  rcases hmarker with rfl | rfl
  · rw [List.nil_append, if_neg]
    rintro ⟨rest, rfl⟩
    exact (plain_of_mem (hcs 'x' (by simp))).2.1 rfl
  · rw [if_pos (List.prefix_append _ _)]
    rfl

theorem decodeFormatted?_of_pasted (h : Pasted b text) : decodeFormatted? text = some b := by
  obtain ⟨marker, cs, hmarker, hrecased, hspaced⟩ := h
  obtain ⟨hcs, hlower⟩ := (forall₂_recased_iff (digit_of_mem_encode b)).1 hrecased
  have hplus : '+' ∉ cs := fun hmem => (plain_of_mem (hcs '+' hmem)).1 rfl
  rw [decodeFormatted?_eq_some_iff, kept_of_pasted hmarker hcs hspaced, plusToZero_of_not_mem hplus]
  exact ⟨hcs, hlower.symm⟩

theorem decodeFormatted?_eq_some_iff_pasted (hplus : '+' ∉ text.toList) :
    decodeFormatted? text = some b ↔ Pasted b text := by
  refine ⟨fun h => ?_, decodeFormatted?_of_pasted⟩
  rw [decodeFormatted?_eq_some_iff, plusToZero_of_not_mem (mt mem_of_mem_kept hplus)] at h
  obtain ⟨hdigits, hlower⟩ := h
  have hrecased := (forall₂_recased_iff (digit_of_mem_encode b)).2 ⟨hdigits, hlower.symm⟩
  have hspaced := spaced_filter text.toList
  by_cases hmarker : ['0', 'x'] <+: text.toList.filter (· ∉ ['\t', '\n', '\r', ' '])
  · have hkept : kept text = (text.toList.filter (· ∉ ['\t', '\n', '\r', ' '])).drop 2 := by
      rw [kept, if_pos hmarker]
    obtain ⟨rest, hrest⟩ := hmarker
    rw [← hrest] at hkept hspaced
    obtain rfl : kept text = rest := hkept
    exact ⟨['0', 'x'], _, .inr rfl, hrecased, hspaced⟩
  · have hkept : kept text = text.toList.filter (· ∉ ['\t', '\n', '\r', ' ']) := by
      rw [kept, if_neg hmarker]
    rw [← hkept] at hspaced
    exact ⟨[], _, .inl rfl, hrecased, hspaced⟩

end Hex

/-! ### Addresses and keys -/

theorem Param.keyOfText?_of_toBytes {text : String} {key : PublicKey}
    (h : Hex.decodeFormatted? text = some key.toBytes) : keyOfText? text = .ok key := by
  rw [keyOfText?, h]
  simp only [PublicKey.ofBytes?, FixedBytes.ofBytes?_toBytes, PublicKey.ofFixedBytes?_toFixedBytes]
  rfl

namespace Hex

variable {b : Bytes} {text : String}

/-- **Pasted texts come back.** Whatever digits changed their case, whether `0x` came in front, and
wherever blanks came in, a text of bytes still denotes them, and but for texts with plus signs no other
does. So an address is read from each of its texts, and parameters of addresses and of keys are
written, or refused, alike for all texts of the same bytes. -/
theorem pasted_comes_back (h : Pasted b text) :
    decodeFormatted? text = some b ∧
      (∀ text', '+' ∉ text'.toList → decodeFormatted? text' = some b → Pasted b text') ∧
      (∀ a : Address, a.toBytes = b → Address.ofText? text = .ok a ∧
        (Param.address text).encode = .ok (0x04 :: a.toBytes)) ∧
      (∀ key : PublicKey, key.toBytes = b →
        (Param.publicKey text).encode = .ok (0x05 :: key.toBytes)) ∧
      ∀ text', Pasted b text' →
        Address.ofText? text = Address.ofText? text' ∧
          (Param.address text).encode = (Param.address text').encode ∧
          (Param.publicKey text).encode = (Param.publicKey text').encode := by
  have hb := decodeFormatted?_of_pasted h
  refine ⟨hb, fun text' hplus => (decodeFormatted?_eq_some_iff_pasted hplus).1, ?_, ?_, ?_⟩
  · rintro a rfl
    have ha := Address.ofText?_eq_ok_iff.2 hb
    exact ⟨ha, Param.encode_address_eq_ok_iff.2 ⟨a, ha, rfl⟩⟩
  · rintro key rfl
    exact Param.encode_publicKey_eq_ok_iff.2 ⟨key, Param.keyOfText?_of_toBytes hb, rfl⟩
  · intro text' h'
    have hb' := decodeFormatted?_of_pasted h'
    have haddress : Address.ofText? text = Address.ofText? text' := by
      simp only [Address.ofText?, hb, hb']
    have hkey : Param.keyOfText? text = Param.keyOfText? text' := by
      simp only [Param.keyOfText?, hb, hb']
    refine ⟨haddress, ?_, ?_⟩
    · simp only [Param.encode, haddress]
    · simp only [Param.encode, hkey]

/-- An address with blanks in its `0x` and in a byte, and digits in both cases, is written like its
digits alone. -/
theorem pasted_comes_back_address :
    let a : Address := ⟨(List.range 20).map fun n => UInt8.ofNat (13 * n), rfl⟩
    let text := "\t0 x000D1a2734414e5B68 7582\r\n8F9Ca9B6C3d0DdeAf 7 "
    Pasted a.toBytes text ∧ Address.ofText? text = .ok a ∧
      (Param.address text).encode = (Param.address a.text).encode := by
  intro a text
  have hrecased (cs : List Char) (hcs : cs.all (· ∈ alphabet))
      (hlower : cs.map Char.toLower = (encode a.toBytes).toList) :
      List.Forall₂ (fun d c => c = d ∨ c = d.toUpper) (encode a.toBytes).toList cs := by
    refine (forall₂_recased_iff (digit_of_mem_encode _)).2 ⟨fun c hc => ?_, hlower⟩
    exact of_decide_eq_true (List.all_eq_true.1 hcs c hc)
  have hspaced (cs text : List Char) (h : text.filter (· ∉ ['\t', '\n', '\r', ' ']) = cs) :
      Spaced cs text := h ▸ spaced_filter text
  have hpasted : Pasted a.toBytes text :=
    ⟨['0', 'x'], "000D1a2734414e5B6875828F9Ca9B6C3d0DdeAf7".toList, .inr rfl,
      hrecased _ (by decide) (by decide), hspaced _ _ (by decide)⟩
  have hplain : Pasted a.toBytes a.text :=
    ⟨[], a.text.toList, .inl rfl, hrecased _ (by decide) (by decide), hspaced _ _ (by decide)⟩
  obtain ⟨-, -, haddress, -, halike⟩ := pasted_comes_back hpasted
  exact ⟨hpasted, (haddress a rfl).1, (halike _ hplain).2.1⟩

end Hex

end ChainGovernance
