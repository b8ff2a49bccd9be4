import ChainGovernance.Proofs.LittleEndian
import ChainGovernance.Proofs.Results
import ChainGovernance.Wire.Format

/-!
What a format reads: for every way to put formats together, when it reads which value and what it
leaves. The proofs about formats start from these equivalences and never open a reader.
-/

namespace ChainGovernance.Wire.Format

variable {α β : Type} {f : Format α} {g : Format β} {b r : Bytes}

/-! ### Bytes and numbers -/

theorem read_raw {n : Nat} {v : Bytes} :
    (raw n).read b = .ok (v, r) ↔ v.length = n ∧ b = v ++ r := by
  simp only [raw]
  constructor
  · intro h
    split at h
    · obtain ⟨rfl, rfl⟩ := Prod.mk.inj (Except.ok.inj h)
      exact ⟨‹_›, (List.take_append_drop n b).symm⟩
    · cases h
  · rintro ⟨rfl, rfl⟩
    rw [List.take_left, List.drop_left, if_pos rfl]

theorem read_uint8 {v : UInt8} : uint8.read b = .ok (v, r) ↔ b = v :: r := by
  cases b with
  | nil => simp [uint8]
  | cons x xs => simp [uint8]

theorem read_word {width v : Nat} :
    (word width).read b = .ok (v, r) ↔ v < 256 ^ width ∧ b = LittleEndian.encode width v ++ r := by
  simp only [word, bind_eq_ok_iff, Prod.exists, pure_eq_ok_iff, Prod.mk.injEq]
  constructor
  · rintro ⟨front, rest, h, rfl, rfl⟩
    obtain ⟨rfl, rfl⟩ := read_raw.1 h
    exact ⟨LittleEndian.decode_lt front, by rw [LittleEndian.encode_decode]⟩
  · rintro ⟨hv, rfl⟩
    refine ⟨LittleEndian.encode width v, r, read_raw.2 ?_, LittleEndian.decode_encode hv, rfl⟩
    exact ⟨LittleEndian.length_encode width v, rfl⟩

theorem read_fixed {n : Nat} {v : FixedBytes n} :
    (fixed n).read b = .ok (v, r) ↔ b = v.toBytes ++ r := by
  simp only [fixed]
  constructor
  · intro h
    split at h
    · rename_i w hw
      obtain ⟨rfl, rfl⟩ := Prod.mk.inj (Except.ok.inj h)
      rw [FixedBytes.toBytes_of_ofBytes? hw, List.take_append_drop]
    · cases h
  · rintro rfl
    have hn := v.length_eq
    rw [List.take_left' hn, List.drop_left' hn, FixedBytes.ofBytes?_toBytes]

/-! ### Formats from formats -/

theorem read_refine {parse : α → Except Error β} {print : β → α} {v : β} :
    (f.refine parse print).read b = .ok (v, r) ↔
      ∃ a, f.read b = .ok (a, r) ∧ parse a = .ok v := by
  simp only [refine, bind_eq_ok_iff, Prod.exists, pure_eq_ok_iff, Prod.mk.injEq]
  constructor
  · rintro ⟨a, rest, ha, w, hw, rfl, rfl⟩
    exact ⟨a, ha, hw⟩
  · rintro ⟨a, ha, hv⟩
    exact ⟨a, r, ha, v, hv, rfl, rfl⟩

/-- A guard lets the values with a property through. -/
theorem read_guard {p : α → Prop} [DecidablePred p] {e : α → Error} {v : α} :
    (f.refine (fun a => if p a then .ok a else .error (e a)) id).read b = .ok (v, r) ↔
      f.read b = .ok (v, r) ∧ p v := by
  rw [read_refine]
  constructor
  · rintro ⟨a, ha, hv⟩
    split at hv
    · obtain rfl := Except.ok.inj hv
      exact ⟨ha, ‹_›⟩
    · cases hv
  · rintro ⟨ha, hp⟩
    exact ⟨v, ha, if_pos hp⟩

theorem read_iso {parse : α → β} {print : β → α} {v : β} :
    (f.iso parse print).read b = .ok (v, r) ↔ ∃ a, f.read b = .ok (a, r) ∧ parse a = v := by
  simp only [iso, bind_eq_ok_iff, Prod.exists, pure_eq_ok_iff, Prod.mk.injEq]
  constructor
  · rintro ⟨a, rest, ha, rfl, rfl⟩
    exact ⟨a, ha, rfl⟩
  · rintro ⟨a, ha, rfl⟩
    exact ⟨a, r, ha, rfl, rfl⟩

theorem read_seq {v : α × β} :
    (f.seq g).read b = .ok (v, r) ↔
      ∃ rest, f.read b = .ok (v.1, rest) ∧ g.read rest = .ok (v.2, r) := by
  simp only [seq, bind_eq_ok_iff, Prod.exists, pure_eq_ok_iff, Prod.ext_iff]
  constructor
  · rintro ⟨x, rest, hx, y, rest', hy, ⟨rfl, rfl⟩, rfl⟩
    exact ⟨rest, hx, hy⟩
  · rintro ⟨rest, hx, hy⟩
    exact ⟨v.1, rest, hx, v.2, r, hy, ⟨rfl, rfl⟩, rfl⟩

theorem read_counted {count : Format Nat} {measure : α → Nat} {body : Nat → Format α} {v : α} :
    (count.counted measure body).read b = .ok (v, r) ↔
      ∃ n rest, count.read b = .ok (n, rest) ∧ (body n).read rest = .ok (v, r) := by
  simp only [counted, bind_eq_ok_iff, Prod.exists]

/-! ### Values in a row -/

/-- What is done already only stands in front of what is read. -/
theorem readTimes_eq_map (read : Reader α) (n : Nat) (done : List α) (b : Bytes) :
    readTimes read n done b =
      (readTimes read n [] b).map fun p => (done.reverse ++ p.1, p.2) := by
  induction n generalizing done b with
  | zero => simp [readTimes, Except.map]
  | succ n ih =>
    simp only [readTimes]
    cases read b with
    | error e => rfl
    | ok p =>
      obtain ⟨v, rest⟩ := p
      simp only
      rw [ih (v :: done), ih [v]]
      cases readTimes read n [] rest with
      | error e => rfl
      | ok q => simp [Except.map]

theorem read_times_zero {vs : List α} : (f.times 0).read b = .ok (vs, r) ↔ vs = [] ∧ b = r := by
  simp [times, readTimes, eq_comm]

theorem read_times_succ {n : Nat} {vs : List α} :
    (f.times (n + 1)).read b = .ok (vs, r) ↔
      ∃ v ws rest, vs = v :: ws ∧ f.read b = .ok (v, rest) ∧
        (f.times n).read rest = .ok (ws, r) := by
  simp only [times, readTimes]
  cases h : f.read b with
  | error e => simp
  | ok p =>
    obtain ⟨v, rest⟩ := p
    simp only [readTimes_eq_map _ _ [v]]
    cases hr : readTimes f.read n [] rest with
    | error e => simp [Except.map, hr]
    | ok q => simp [Except.map, Prod.ext_iff, hr, eq_comm, and_assoc]

theorem length_of_read_times {n : Nat} {vs : List α} (h : (f.times n).read b = .ok (vs, r)) :
    vs.length = n := by
  induction n generalizing b vs with
  | zero => rw [(read_times_zero.1 h).1, List.length_nil]
  | succ n ih =>
    obtain ⟨v, ws, rest, rfl, _, hws⟩ := read_times_succ.1 h
    rw [List.length_cons, ih hws]

/-! ### All of the bytes -/

theorem decode_eq_ok_iff {v : α} : f.decode b = .ok v ↔ f.read b = .ok (v, []) := by
  simp only [decode, bind_eq_ok_iff, Prod.exists]
  constructor
  · rintro ⟨w, rest, hw, h⟩
    cases rest with
    | nil =>
      obtain rfl := pure_eq_ok_iff.1 h
      exact hw
    | cons x xs => cases h
  · intro h
    exact ⟨v, [], h, rfl⟩

theorem decode_of_read {v : α} (h : f.read b = .ok (v, r)) (hr : r ≠ []) :
    f.decode b = .error (.extraData r.length) := by
  rw [decode, h]
  exact if_neg (mt List.isEmpty_iff.1 hr)

end ChainGovernance.Wire.Format
