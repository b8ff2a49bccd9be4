import Mathlib.Tactic
import ChainGovernance.Proofs.Quorum

/-!
Which keys make a set of signers.

The keys are checked first, whatever the threshold: there has to be one, there must not be too many,
and none may come again (`keysFault?_eq_some_iff`, `keysFault?_eq_none_iff`). The loop over the keys
stops at the first that comes again, so those before it are all different
(`firstRepeat?_eq_some_iff`). The default quorum is a threshold like any other
(`ofKeys_eq_withThreshold`), which never has to be refused, and fits into the words in which it is
reckoned (`quorum?_toNat`).
-/

namespace ChainGovernance

/-! ### The first item that comes again -/

section FirstRepeat

variable {α : Type} [DecidableEq α] {seen xs : List α} {x : α}

/-- The items before the first that comes again are new, and different from each other. -/
theorem firstRepeat?_eq_some_iff : firstRepeat? seen xs = some x ↔
    ∃ before after, xs = before ++ x :: after ∧ before.Nodup ∧ (∀ y ∈ before, y ∉ seen) ∧
      (x ∈ before ∨ x ∈ seen) := by
  induction xs generalizing seen with
  | nil => simp [firstRepeat?]
  | cons y xs ih =>
    unfold firstRepeat?
    by_cases hy : y ∈ seen
    · rw [if_pos hy]
      constructor
      · intro h
        obtain rfl := Option.some.inj h
        exact ⟨[], xs, rfl, List.nodup_nil, List.forall_mem_nil _, .inr hy⟩
      · rintro ⟨before, after, h, -, hnew, -⟩
        cases before with
        | nil => rw [(List.cons.inj h).1]
        | cons z before =>
          obtain rfl := (List.cons.inj h).1
          exact absurd hy (hnew y List.mem_cons_self)
    · rw [if_neg hy, ih]
      constructor
      · rintro ⟨before, after, rfl, hnodup, hnew, hx⟩
        refine ⟨y :: before, after, rfl, List.nodup_cons.2 ⟨fun hmem => ?_, hnodup⟩, ?_, ?_⟩
        · exact hnew y hmem List.mem_cons_self
        · refine List.forall_mem_cons.2 ⟨hy, fun z hz hmem => ?_⟩
          exact hnew z hz (List.mem_cons_of_mem y hmem)
        · simp only [List.mem_cons] at hx ⊢
          tauto
      · rintro ⟨before, after, h, hnodup, hnew, hx⟩
        cases before with
        | nil =>
          obtain ⟨rfl, -⟩ := List.cons.inj h
          rcases hx with hx | hx
          · cases hx
          · exact absurd hx hy
        | cons z before =>
          obtain ⟨rfl, rfl⟩ := List.cons.inj h
          obtain ⟨hz, hnodup⟩ := List.nodup_cons.1 hnodup
          obtain ⟨-, hnew⟩ := List.forall_mem_cons.1 hnew
          refine ⟨before, after, rfl, hnodup, fun w hw hmem => ?_, ?_⟩
          · rcases List.mem_cons.1 hmem with rfl | hmem
            · exact hz hw
            · exact hnew w hw hmem
          · simp only [List.mem_cons] at hx ⊢
            tauto

theorem firstRepeat?_eq_none_iff : firstRepeat? [] xs = none ↔ xs.Nodup := by
  constructor
  · intro h
    exact (nodup_of_firstRepeat? h).1
  · intro h
    cases hx : firstRepeat? [] xs with
    | none => rfl
    | some x =>
      obtain ⟨before, after, rfl, -, -, hmem | hmem⟩ := firstRepeat?_eq_some_iff.1 hx
      · exact absurd rfl ((List.nodup_append.1 h).2.2 x hmem x List.mem_cons_self)
      · cases hmem

end FirstRepeat

/-! ### The default quorum in words -/

/-- The default quorum as it is reckoned: in 64 bits, of which 32 are kept. -/
def quorumWord (n : UInt32) : UInt32 := ((5 * n.toUInt64 + 6) / 7).toUInt32

/-- Nothing is lost of the default quorum of any number in 32 bits. -/
theorem quorum?_toNat {n : UInt32} (hn : n.toNat ≠ 0) :
    quorum? n.toNat = some (quorumWord n).toNat := by
  have hlt := n.toNat_lt
  have hsum : (5 * n.toUInt64 + 6).toNat = 5 * n.toNat + 6 := by
    rw [UInt64.toNat_add, UInt64.toNat_mul, UInt32.toNat_toUInt64]
    show (5 * n.toNat % 2 ^ 64 + 6) % 2 ^ 64 = 5 * n.toNat + 6
    omega
  have hword : (quorumWord n).toNat = (5 * n.toNat + 6) / 7 := by
    rw [quorumWord, UInt64.toNat_toUInt32, UInt64.toNat_div, hsum]
    show (5 * n.toNat + 6) / 7 % 2 ^ 32 = (5 * n.toNat + 6) / 7
    omega
  rw [quorum?, if_neg hn, hword]

namespace SignerSet

/-! ### Checking the keys -/

/-- Keys that make a set. -/
structure Eligible (keys : List PublicKey) : Prop where
  ne_nil : keys ≠ []
  length_le : keys.length ≤ 1024
  nodup : keys.Nodup

/-- The error for the first check that keys fail. -/
inductive Refused (keys : List PublicKey) : Error → Prop
  | empty (h : keys = []) : Refused keys .emptySignerSet
  | tooMany (h : 1024 < keys.length) : Refused keys (.tooManySigners keys.length)
  | duplicate {before after : List PublicKey} {key : PublicKey} (hcount : keys.length ≤ 1024)
      (h : keys = before ++ key :: after) (hbefore : before.Nodup) (hkey : key ∈ before) :
      Refused keys (.duplicateSigner key)

variable {keys : List PublicKey} {t : UInt16} {s : SignerSet} {e : Error}

theorem keysFault?_eq_some_iff : keysFault? keys = some e ↔ Refused keys e := by
  unfold keysFault? maxSigners
  constructor
  · intro h
    split at h
    · next hempty =>
      cases h
      exact .empty (List.isEmpty_iff.1 hempty)
    · split at h
      · next hcount =>
        cases h
        exact .tooMany hcount
      · next hcount =>
        obtain ⟨key, hkey, rfl⟩ := Option.map_eq_some_iff.1 h
        obtain ⟨before, after, hkeys, hnodup, -, hmem | hmem⟩ := firstRepeat?_eq_some_iff.1 hkey
        · exact .duplicate (not_lt.1 hcount) hkeys hnodup hmem
        · cases hmem
  · intro h
    cases h with
    | empty h => rw [h, List.isEmpty_nil, if_pos rfl]
    | tooMany h =>
      have hempty : ¬ keys.isEmpty = true := fun hempty => by
        rw [List.isEmpty_iff.1 hempty] at h
        cases h
      rw [if_neg hempty, if_pos h]
    | @duplicate before after key hcount h hbefore hkey =>
      have hempty : ¬ keys.isEmpty = true := by simp [h]
      have hrepeat : firstRepeat? [] keys = some key :=
        firstRepeat?_eq_some_iff.2 ⟨before, after, h, hbefore, fun _ _ => List.not_mem_nil, .inl hkey⟩
      rw [if_neg hempty, if_neg (not_lt.2 hcount), hrepeat]
      rfl

theorem keysFault?_eq_none_iff : keysFault? keys = none ↔ Eligible keys := by
  constructor
  · intro h
    obtain ⟨hne, hlen, hnodup⟩ := of_keysFault? h
    exact ⟨hne, hlen, hnodup⟩
  · intro h
    have hempty : ¬ keys.isEmpty = true := mt List.isEmpty_iff.1 h.ne_nil
    have hcount : ¬ maxSigners < keys.length := not_lt.2 h.length_le
    rw [keysFault?, if_neg hempty, if_neg hcount, firstRepeat?_eq_none_iff.2 h.nodup]
    rfl

theorem eligible (s : SignerSet) : Eligible s.keys where
  ne_nil := by
    have hpos := s.threshold_pos
    have hle := s.threshold_le
    exact List.ne_nil_of_length_pos (by omega)
  length_le := s.length_le
  nodup := s.nodup

/-! ### Making sets -/

theorem withThreshold_eq_ok_iff : withThreshold keys t = .ok s ↔
    Eligible keys ∧ (1 ≤ t.toNat ∧ t.toNat ≤ keys.length) ∧ s.keys = keys ∧ s.threshold = t := by
  rw [← keysFault?_eq_none_iff]
  constructor
  · intro h
    unfold withThreshold at h
    split at h
    · cases h
    · next hkeys =>
      split at h
      · next ht =>
        obtain rfl := Except.ok.inj h
        exact ⟨hkeys, ht, rfl, rfl⟩
      · cases h
  · rintro ⟨hkeys, ht, rfl, rfl⟩
    unfold withThreshold
    split
    · next e he => cases hkeys.symm.trans he
    · rw [dif_pos ht]

theorem withThreshold_eq_error_iff : withThreshold keys t = .error e ↔
    Refused keys e ∨
      Eligible keys ∧ ¬ (1 ≤ t.toNat ∧ t.toNat ≤ keys.length) ∧
        e = .invalidThreshold t keys.length := by
  rw [← keysFault?_eq_none_iff, ← keysFault?_eq_some_iff]
  unfold withThreshold
  split
  · next e' he => simp [he]
  · next hkeys =>
    by_cases ht : 1 ≤ t.toNat ∧ t.toNat ≤ keys.length
    · simp [hkeys, ht]
    · simp [hkeys, ht, eq_comm]

/-- A set is what is made of its keys and its threshold. -/
theorem withThreshold_self (s : SignerSet) : withThreshold s.keys s.threshold = .ok s :=
  withThreshold_eq_ok_iff.2 ⟨s.eligible, ⟨s.threshold_pos, s.threshold_le⟩, rfl, rfl⟩

/-- The default quorum is not refused. -/
theorem ofKeys_eq_error_iff : ofKeys keys = .error e ↔ Refused keys e := by
  rw [← keysFault?_eq_some_iff]
  unfold ofKeys
  split
  · next e' he => simp [he]
  · next hkeys =>
    split
    · next hquorum =>
      have hne := (keysFault?_eq_none_iff.1 hkeys).ne_nil
      have hnone : ¬ 0 < keys.length := fun hpos => by
        have hsome : quorum? keys.length = some (keys.length - 2 * keys.length / 7) :=
          quorum?_eq_some_iff.2 ⟨hpos, rfl⟩
        cases hquorum.symm.trans hsome
      exact absurd (List.length_pos_iff.2 hne) hnone
    · simp [hkeys]

theorem exists_ofKeys_iff : (∃ s, ofKeys keys = .ok s) ↔ Eligible keys := by
  constructor
  · rintro ⟨s, hs⟩
    obtain ⟨rfl, -⟩ := of_ofKeys hs
    exact s.eligible
  · intro h
    cases hs : ofKeys keys with
    | ok s => exact ⟨s, rfl⟩
    | error e =>
      have hfault := keysFault?_eq_some_iff.2 (ofKeys_eq_error_iff.1 hs)
      cases (keysFault?_eq_none_iff.2 h).symm.trans hfault

theorem ofKeys_eq_withThreshold {q : Nat} (hq : quorum? keys.length = some q) :
    ofKeys keys = withThreshold keys (.ofNat q) := by
  cases hs : ofKeys keys with
  | error e => exact (withThreshold_eq_error_iff.2 (.inl (ofKeys_eq_error_iff.1 hs))).symm
  | ok s =>
    obtain ⟨rfl, hthreshold⟩ := of_ofKeys hs
    obtain rfl := Option.some.inj (hthreshold.symm.trans hq)
    rw [UInt16.ofNat_toNat, withThreshold_self]

/-! ### What a set keeps of its keys -/

/-- What the set of some keys is. -/
structure Keeps (keys : List PublicKey) (s : SignerSet) : Prop where
  keys_eq : s.keys = keys
  threshold_pos : 1 ≤ s.threshold.toNat
  threshold_le : s.threshold.toNat ≤ keys.length
  length_le : keys.length ≤ 1024
  address : s.address = .ofMultisig s.threshold keys
  position : ∀ key i, s.position? key = some i ↔ keys[i]? = some key

/-- No key comes twice, so that there is but one place for each. -/
theorem position?_eq_some_iff {key : PublicKey} {i : Nat} :
    s.position? key = some i ↔ s.keys[i]? = some key := by
  rw [position?, List.idxOf?_eq_some_iff, List.getElem?_eq_some_iff]
  constructor
  · rintro ⟨hi, hkey, -⟩
    exact ⟨hi, hkey⟩
  · rintro ⟨hi, hkey⟩
    refine ⟨hi, hkey, fun j hj hsame => ?_⟩
    have hij := s.nodup.getElem_inj_iff.1 (hsame.trans hkey.symm)
    omega

theorem keeps_keys (s : SignerSet) : s.Keeps s.keys :=
  ⟨rfl, s.threshold_pos, s.threshold_le, s.length_le, rfl, fun _ _ => position?_eq_some_iff⟩

/-- **Which keys make a set.** Keys make a set with the default quorum exactly if there are between one
and 1024 of them, all different, and with a threshold of its own exactly if they can also reach it. The
set keeps them in their order, and its address is made of its threshold and of them. The default
quorum makes the same set if it is given as a threshold; nothing of it is lost where its number of keys
is cut to 32 bits, or it is cut to 32 and then to 16. What is refused is refused for the first check that
fails, and for its keys at the first that comes again. -/
theorem construction_exact (keys : List PublicKey) (t : UInt16) :
    ((∃ s, ofKeys keys = .ok s) ↔ Eligible keys) ∧
      ((∃ s, withThreshold keys t = .ok s) ↔
        Eligible keys ∧ 1 ≤ t.toNat ∧ t.toNat ≤ keys.length) ∧
      (∀ s, ofKeys keys = .ok s → s.Keeps keys ∧ quorum? keys.length = some s.threshold.toNat) ∧
      (∀ s, withThreshold keys t = .ok s → s.Keeps keys ∧ s.threshold = t) ∧
      (∀ q, quorum? keys.length = some q → ofKeys keys = withThreshold keys (.ofNat q)) ∧
      (Eligible keys →
        let n := UInt32.ofNat keys.length
        n.toNat = keys.length ∧ quorum? keys.length = some (quorumWord n).toNat ∧
          (quorumWord n).toUInt16.toNat = (quorumWord n).toNat) ∧
      (∀ e, ofKeys keys = .error e ↔ Refused keys e) ∧
      ∀ e, withThreshold keys t = .error e ↔ Refused keys e ∨
        Eligible keys ∧ ¬ (1 ≤ t.toNat ∧ t.toNat ≤ keys.length) ∧
          e = .invalidThreshold t keys.length := by
  refine ⟨exists_ofKeys_iff, ?_, ?_, ?_, fun q => ofKeys_eq_withThreshold, ?_,
    fun e => ofKeys_eq_error_iff, fun e => withThreshold_eq_error_iff⟩
  · constructor
    · rintro ⟨s, hs⟩
      obtain ⟨heligible, ht, -⟩ := withThreshold_eq_ok_iff.1 hs
      exact ⟨heligible, ht⟩
    · rintro ⟨heligible, ht⟩
      let s : SignerSet := ⟨keys, t, heligible.length_le, heligible.nodup, ht.1, ht.2⟩
      exact ⟨s, s.withThreshold_self⟩
  · intro s hs
    obtain ⟨rfl, hthreshold⟩ := of_ofKeys hs
    exact ⟨s.keeps_keys, hthreshold⟩
  · intro s hs
    obtain ⟨-, -, rfl, rfl⟩ := withThreshold_eq_ok_iff.1 hs
    exact ⟨s.keeps_keys, rfl⟩
  · intro heligible n
    have hlen := heligible.length_le
    have hpos := List.length_pos_iff.2 heligible.ne_nil
    have hn : n.toNat = keys.length := by
      rw [UInt32.toNat_ofNat']
      omega
    have hquorum : quorum? keys.length = some (quorumWord n).toNat := by
      rw [← hn]
      exact quorum?_toNat (by omega)
    refine ⟨hn, hquorum, ?_⟩
    have hword := (quorum?_eq_some_iff.1 hquorum).2
    rw [UInt32.toNat_toUInt16]
    omega

/-- Four keys make a set of which three have to sign; five of them cannot be asked for; and no key may
be added twice. -/
theorem construction_exact_four :
    let keys := Aggregate.smallKeys
    (∃ s, ofKeys keys = .ok s ∧ s.Keeps keys ∧ s.threshold.toNat = 3 ∧
      withThreshold keys 3 = .ok s) ∧
    withThreshold keys 5 = .error (.invalidThreshold 5 4) ∧
    ofKeys (keys ++ [keys[1], keys[0]]) = .error (.duplicateSigner keys[1]) := by
  intro keys
  have heligible : Eligible keys := ⟨by decide, by decide, by decide⟩
  have hthree : quorum? keys.length = some 3 := by decide
  obtain ⟨hexists, -, hkeeps, -, hquorum, -, -, hrefused⟩ := construction_exact keys 5
  obtain ⟨s, hs⟩ := hexists.2 heligible
  obtain ⟨hs', hthreshold⟩ := hkeeps s hs
  refine ⟨⟨s, hs, hs', Option.some.inj (hthreshold.symm.trans hthree), ?_⟩, ?_, ?_⟩
  · exact (hquorum 3 hthree).symm.trans hs
  · exact (hrefused _).2 (.inr ⟨heligible, by decide, rfl⟩)
  · obtain ⟨-, -, -, -, -, -, hrefused, -⟩ := construction_exact (keys ++ [keys[1], keys[0]]) 5
    have hagain : keys ++ [keys[1], keys[0]] = keys ++ keys[1] :: [keys[0]] := rfl
    exact (hrefused _).2
      (.duplicate (by decide) hagain heligible.nodup (List.getElem_mem _))

end SignerSet

end ChainGovernance
