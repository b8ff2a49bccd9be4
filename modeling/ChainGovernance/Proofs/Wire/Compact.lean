import ChainGovernance.Proofs.Wire.Reading
import ChainGovernance.Wire.Compact

/-!
Compact numbers are read exactly where they are written: of the four forms that a number could be
given, `read` takes the one that `write` chooses.
-/

namespace ChainGovernance.Wire

namespace Compact

variable {b r : Bytes} {v : UInt64}

theorem write_of_lt (h : v.toNat < 0xFD) : write v = [v.toUInt8] := by
  rw [write, if_pos (UInt64.lt_iff_toNat_lt.2 h)]

theorem write_two (h : 0xFD ≤ v.toNat) (h' : v.toNat < 256 ^ 2) :
    write v = 0xFD :: LittleEndian.encode 2 v.toNat := by
  rw [write, if_neg, if_pos]
  · exact UInt64.le_iff_toNat_le.2 (Nat.le_of_lt_succ h')
  · exact fun hv => absurd (UInt64.lt_iff_toNat_lt.1 hv) (Nat.not_lt.2 h)

theorem write_four (h : 0x10000 ≤ v.toNat) (h' : v.toNat < 256 ^ 4) :
    write v = 0xFE :: LittleEndian.encode 4 v.toNat := by
  rw [write, if_neg, if_neg, if_pos]
  · exact UInt64.le_iff_toNat_le.2 (Nat.le_of_lt_succ h')
  · exact fun hv => absurd (UInt64.le_iff_toNat_le.1 hv) (Nat.not_le.2 h)
  · exact fun hv => absurd (UInt64.lt_iff_toNat_lt.1 hv) (Nat.not_lt.2 (Nat.le_trans (by decide) h))

theorem write_eight (h : 0x100000000 ≤ v.toNat) :
    write v = 0xFF :: LittleEndian.encode 8 v.toNat := by
  rw [write, if_neg, if_neg, if_neg]
  · exact fun hv => absurd (UInt64.le_iff_toNat_le.1 hv) (Nat.not_le.2 h)
  · exact fun hv => absurd (UInt64.le_iff_toNat_le.1 hv) (Nat.not_le.2 (Nat.le_trans (by decide) h))
  · exact fun hv => absurd (UInt64.lt_iff_toNat_lt.1 hv) (Nat.not_lt.2 (Nat.le_trans (by decide) h))

theorem toUInt64_toUInt8 (h : v.toNat < 0xFD) : v.toUInt8.toUInt64 = v := by
  rw [← UInt64.toNat_inj, UInt8.toNat_toUInt64, UInt64.toNat_toUInt8]
  exact Nat.mod_eq_of_lt (Nat.lt_trans h (by decide))

theorem readWide_eq_ok_iff {width least : Nat} (hw : 256 ^ width ≤ 2 ^ 64) :
    readWide width least b = .ok (v, r) ↔
      least ≤ v.toNat ∧ v.toNat < 256 ^ width ∧ b = LittleEndian.encode width v.toNat ++ r := by
  simp only [readWide, bind_eq_ok_iff, Prod.exists]
  constructor
  · rintro ⟨n, rest, h, hv⟩
    obtain ⟨hn, rfl⟩ := Format.read_word.1 h
    split at hv
    · cases hv
    · obtain ⟨rfl, rfl⟩ := Prod.mk.inj (pure_eq_ok_iff.1 hv)
      have hto : (UInt64.ofNat n).toNat = n := by
        rw [UInt64.toNat_ofNat']
        exact Nat.mod_eq_of_lt (Nat.lt_of_lt_of_le hn hw)
      rw [hto]
      exact ⟨Nat.le_of_not_lt ‹_›, hn, rfl⟩
  · rintro ⟨hl, hn, rfl⟩
    refine ⟨v.toNat, r, Format.read_word.2 ⟨hn, rfl⟩, ?_⟩
    rw [if_neg (Nat.not_lt.2 hl), UInt64.ofNat_toNat]
    rfl

/-- **A number is read exactly from its shortest form.** -/
theorem read_eq_ok_iff : read b = .ok (v, r) ↔ b = write v ++ r := by
  constructor
  · intro h
    cases b with
    | nil => cases h
    | cons marker rest =>
      simp only [read] at h
      split at h
      · obtain ⟨hl, hn, rfl⟩ := (readWide_eq_ok_iff (by decide)).1 h
        subst marker
        rw [write_two hl hn, List.cons_append]
      split at h
      · obtain ⟨hl, hn, rfl⟩ := (readWide_eq_ok_iff (by decide)).1 h
        subst marker
        rw [write_four hl hn, List.cons_append]
      split at h
      · obtain ⟨hl, hn, rfl⟩ := (readWide_eq_ok_iff (by decide)).1 h
        subst marker
        rw [write_eight hl, List.cons_append]
      · obtain ⟨rfl, rfl⟩ := Prod.mk.inj (Except.ok.inj h)
        have hm : marker.toNat < 0xFD := by
          have := marker.toNat_lt
          simp only [← UInt8.toNat_inj, UInt8.reduceToNat] at *
          omega
        rw [write_of_lt (by rwa [UInt8.toNat_toUInt64]), UInt8.toUInt8_toUInt64]
        rfl
  · rintro rfl
    rcases Nat.lt_or_ge v.toNat 0xFD with h1 | h1
    · have hv : v.toUInt8.toUInt64 = v := toUInt64_toUInt8 h1
      have hm : v.toUInt8.toNat = v.toNat := by
        rw [← UInt8.toNat_toUInt64, hv]
      rw [write_of_lt h1, List.singleton_append, read, if_neg, if_neg, if_neg, hv]
      all_goals simp only [← UInt8.toNat_inj, UInt8.reduceToNat]; omega
    rcases Nat.lt_or_ge v.toNat (256 ^ 2) with h2 | h2
    · rw [write_two h1 h2]
      exact (readWide_eq_ok_iff (by decide)).2 ⟨h1, h2, rfl⟩
    rcases Nat.lt_or_ge v.toNat (256 ^ 4) with h4 | h4
    · rw [write_four h2 h4]
      exact (readWide_eq_ok_iff (by decide)).2 ⟨h2, h4, rfl⟩
    · rw [write_eight h4]
      exact (readWide_eq_ok_iff (by decide)).2 ⟨h4, v.toNat_lt, rfl⟩
end Compact

end ChainGovernance.Wire
