import ChainGovernance.Proofs.Wire.Delimited
import ChainGovernance.Proofs.Wire.ExactSize

/-!
The forms that a number could be given, and the one that it has.

A byte that is no marker denotes itself, and behind a marker any bytes denote a number, also one that
would need fewer of them. `Denotes` holds of all these forms. Of the forms of one number exactly one is
written and read, and it is shorter than every other (`shortest_form`).
-/

namespace ChainGovernance.Wire.Compact

variable {c r : Bytes} {v : UInt64} {marker : UInt8} {width : Nat}

/-- A marker, and how many bytes it stands in front of. -/
inductive Marks : UInt8 → Nat → Prop
  | two : Marks 0xFD 2
  | four : Marks 0xFE 4
  | eight : Marks 0xFF 8

/-- The complete forms of a number, long ones included. -/
inductive Denotes : Bytes → UInt64 → Prop
  | bare {x : UInt8} (hx : x.toNat < 0xFD) : Denotes [x] x.toUInt64
  | marked {marker : UInt8} {width : Nat} {body : Bytes} (hmarker : Marks marker width)
      (hbody : body.length = width) :
      Denotes (marker :: body) (.ofNat (LittleEndian.decode body))

/-! ### Behind a marker -/

theorem size_eq (v : UInt64) : size v =
    if v.toNat < 0xFD then 1 else if v.toNat < 0x10000 then 3
    else if v.toNat < 0x100000000 then 5 else 9 := by
  simp only [size, UInt64.lt_iff_toNat_lt, UInt64.le_iff_toNat_le, UInt64.reduceToNat]
  split_ifs <;> omega

/-- Each marker asks for a least number, and the numbers below it have a shorter form. -/
theorem Marks.exists_least (h : Marks marker width) :
    256 ^ width ≤ 2 ^ 64 ∧ ∃ least, (∀ rest, read (marker :: rest) = readWide width least rest) ∧
      ∀ v : UInt64, v.toNat < least → size v ≤ width := by
  cases h with
  | two =>
    refine ⟨by decide, 0xFD, fun _ => rfl, fun v hv => ?_⟩
    rw [size_eq, if_pos hv]
    exact Nat.one_le_ofNat
  | four =>
    refine ⟨by decide, 0x10000, fun _ => rfl, fun v hv => ?_⟩
    rw [size_eq]
    split_ifs <;> omega
  | eight =>
    refine ⟨by decide, 0x100000000, fun _ => rfl, fun v hv => ?_⟩
    rw [size_eq]
    split_ifs <;> omega

theorem readWide_append {body : Bytes} {least : Nat} (hbody : body.length = width) :
    readWide width least (body ++ r) =
      if LittleEndian.decode body < least then .error .invalidVarint
      else .ok (.ofNat (LittleEndian.decode body), r) := by
  have hword : (Format.word width).read (body ++ r) = .ok (LittleEndian.decode body, r) := by
    refine Format.read_word.2 ⟨hbody ▸ LittleEndian.decode_lt body, ?_⟩
    rw [← hbody, LittleEndian.encode_decode]
  rw [readWide, hword]
  rfl

/-! ### The forms of a number -/

theorem read_write (v : UInt64) (r : Bytes) : read (write v ++ r) = .ok (v, r) :=
  read_eq_ok_iff.2 rfl

theorem denotes_of_marks (hmarker : Marks marker width) (hv : v.toNat < 256 ^ width) :
    Denotes (marker :: LittleEndian.encode width v.toNat) v := by
  have h := Denotes.marked hmarker (LittleEndian.length_encode width v.toNat)
  rwa [LittleEndian.decode_encode hv, UInt64.ofNat_toNat] at h

/-- What is written for a number is one of its forms. -/
theorem denotes_write (v : UInt64) : Denotes (write v) v := by
  rcases Nat.lt_or_ge v.toNat 0xFD with h1 | h1
  · have hv : v.toUInt8.toUInt64 = v := toUInt64_toUInt8 h1
    have hbare : Denotes [v.toUInt8] v.toUInt8.toUInt64 := .bare (by rwa [← UInt8.toNat_toUInt64, hv])
    rwa [hv, ← write_of_lt h1] at hbare
  rcases Nat.lt_or_ge v.toNat (256 ^ 2) with h2 | h2
  · rw [write_two h1 h2]
    exact denotes_of_marks .two h2
  rcases Nat.lt_or_ge v.toNat (256 ^ 4) with h4 | h4
  · rw [write_four h2 h4]
    exact denotes_of_marks .four h4
  · rw [write_eight h4]
    exact denotes_of_marks .eight v.toNat_lt

/-- Any other form is longer, and refused. -/
theorem Denotes.eq_or_long (h : Denotes c v) :
    c = write v ∨ (write v).length < c.length ∧ ∀ r, read (c ++ r) = .error .invalidVarint := by
  cases h with
  | bare hx =>
    left
    rw [write_of_lt (by rwa [UInt8.toNat_toUInt64]), UInt8.toUInt8_toUInt64]
  | @marked marker width body hmarker hbody =>
    obtain ⟨hwidth, least, hread, hless⟩ := hmarker.exists_least
    have hbehind (r : Bytes) := (hread (body ++ r)).trans (readWide_append hbody)
    have hnumber : (UInt64.ofNat (LittleEndian.decode body)).toNat = LittleEndian.decode body := by
      have hlt := LittleEndian.decode_lt body
      rw [hbody] at hlt
      rw [UInt64.toNat_ofNat']
      exact Nat.mod_eq_of_lt (Nat.lt_of_lt_of_le hlt hwidth)
    by_cases hleast : LittleEndian.decode body < least
    · right
      refine ⟨?_, fun r => (hbehind r).trans (if_pos hleast)⟩
      have hsize := hless (.ofNat (LittleEndian.decode body)) (by rwa [hnumber])
      rw [length_write, List.length_cons, hbody]
      exact Nat.lt_succ_of_le hsize
    · left
      have hok := (hbehind []).trans (if_neg hleast)
      have heq := read_eq_ok_iff.1 hok
      rwa [List.append_nil, List.append_nil] at heq

/-- **Numbers are read from their shortest form and from no other.** What is written for a number is
read back, in front of any bytes, and has the announced size; and what is read is what was written. So
the written form is one of the forms of the number, and all others are longer and refused, with anything
behind them; nothing written is the front of something else that is written; and a form that is cut off
ends too early. -/
theorem shortest_form :
    (∀ v r, read (write v ++ r) = .ok (v, r)) ∧
      (∀ v, size v = (write v).length) ∧
      (∀ b v r, read b = .ok (v, r) → b = write v ++ r) ∧
      (∀ v, Denotes (write v) v) ∧
      (∀ c v, Denotes c v → c ≠ write v →
        (write v).length < c.length ∧ ∀ r, read (c ++ r) = .error .invalidVarint) ∧
      (∀ v w, write v <+: write w → v = w) ∧
      ∀ v p, p <+: write v → p ≠ write v → read p = .error .endOfBuffer := by
  refine ⟨read_write, fun v => (length_write v).symm, fun b v r => read_eq_ok_iff.1, denotes_write,
    fun c v h hne => h.eq_or_long.resolve_left hne, ?_, ?_⟩
  · rintro v w ⟨s, hs⟩
    have hw : read (write w) = .ok (w, []) := read_eq_ok_iff.2 (List.append_nil _).symm
    rw [← hs, read_write] at hw
    exact (Prod.mk.inj (Except.ok.inj hw)).1
  · intro v p hp hne
    have hlength : p.length < (write v).length :=
      lt_of_le_of_ne hp.length_le fun hl => hne (hp.eq_of_length hl)
    rw [List.prefix_iff_eq_take.1 hp]
    exact read_cut v hlength

/-- Sixteen in three bytes, the greatest number of two bytes in five, and the least number of three
without its last two bytes. -/
theorem shortest_form_refusals :
    Denotes [0xFD, 0x10, 0] 0x10 ∧ (∀ r, read ([0xFD, 0x10, 0] ++ r) = .error .invalidVarint) ∧
      Denotes [0xFE, 0xFF, 0xFF, 0, 0] 0xFFFF ∧
      (∀ r, read ([0xFE, 0xFF, 0xFF, 0, 0] ++ r) = .error .invalidVarint) ∧
      [0xFE, 0, 0] <+: write 0x10000 ∧ read [0xFE, 0, 0] = .error .endOfBuffer := by
  have hsixteen : Denotes [0xFD, 0x10, 0] 0x10 := .marked .two rfl
  have hgreatest : Denotes [0xFE, 0xFF, 0xFF, 0, 0] 0xFFFF := .marked .four rfl
  have hcut : [0xFE, 0, 0] <+: write 0x10000 := by decide
  obtain ⟨-, -, -, -, hlong, -, hshort⟩ := shortest_form
  exact ⟨hsixteen, (hlong _ _ hsixteen (by decide)).2, hgreatest, (hlong _ _ hgreatest (by decide)).2,
    hcut, hshort _ _ hcut (by decide)⟩

end ChainGovernance.Wire.Compact
