import ChainGovernance.Draft
import ChainGovernance.Proofs.Encoding

/-!
What is built from a draft lies within the limits of the draft, so it can be read under them.
-/

namespace ChainGovernance

open Wire

/-- Lengths that are counted in 64 bits can reach the limits. -/
structure Limits.Counted (limits : Limits) : Prop where
  maxMethod : limits.maxMethod < 2 ^ 64
  maxParams : limits.maxParams < 2 ^ 64
  maxParamSize : limits.maxParamSize < 2 ^ 64

theorem UnsignedTransaction.extents_fit_iff {limits : Limits} {t : UnsignedTransaction}
    (h : limits.Counted) : (∀ e ∈ t.extents limits, e.Writable ∧ e.Fits) ↔
      (1 ≤ t.invocation.method.utf8ByteSize ∧
          t.invocation.method.utf8ByteSize ≤ limits.maxMethod) ∧
        t.invocation.params.length ≤ limits.maxParams ∧
        ∀ b ∈ t.invocation.params, b.length ≤ limits.maxParamSize := by
  have hsize : (Text.utf8 t.invocation.method).length = t.invocation.method.utf8ByteSize := rfl
  simp only [UnsignedTransaction.extents, Invocation.extents, List.forall_mem_cons,
    List.mem_flatMap, List.mem_singleton, Extent.Writable, Extent.fits_between, Extent.fits_upTo,
    hsize]
  -- what fits can be written, because the limits are counted
  constructor
  · rintro ⟨⟨-, hmethod⟩, ⟨-, hcount⟩, hsizes⟩
    exact ⟨hmethod, hcount, fun b hb => Extent.fits_upTo.1 (hsizes _ ⟨b, hb, rfl⟩).2⟩
  · rintro ⟨hmethod, hcount, hsizes⟩
    refine ⟨⟨hmethod.2.trans_lt h.maxMethod, hmethod⟩, ⟨hcount.trans_lt h.maxParams, hcount⟩, ?_⟩
    rintro - ⟨b, hb, rfl⟩
    exact ⟨(hsizes b hb).trans_lt h.maxParamSize, Extent.fits_upTo.2 (hsizes b hb)⟩

namespace Draft

variable {max : Nat}

theorem checkMethod_eq_ok_iff {method : String} :
    checkMethod method max = .ok () ↔ 1 ≤ method.utf8ByteSize ∧ method.utf8ByteSize ≤ max := by
  simp only [checkMethod]
  split
  · simp only [reduceCtorEq, false_iff]
    omega
  · split
    · simp only [reduceCtorEq, false_iff]
      omega
    · simp only [true_iff]
      omega

theorem checkParamCount_eq_ok_iff {count : Nat} :
    checkParamCount count max = .ok () ↔ count ≤ max := by
  unfold checkParamCount
  split
  · simp only [reduceCtorEq, false_iff]
    omega
  · simp only [true_iff]
    omega

theorem encodeParam_eq_ok_iff {index : Nat} {param : Param} {b : Bytes} :
    encodeParam max index param = .ok b ↔ param.encode = .ok b ∧ b.length ≤ max := by
  unfold encodeParam
  cases param.encode with
  | error fault => simp
  | ok b' =>
    simp only [Except.ok.injEq]
    split
    · simp only [reduceCtorEq, false_iff]
      rintro ⟨rfl, h⟩
      omega
    · simp only [Except.ok.injEq]
      constructor
      · rintro rfl
        exact ⟨rfl, by omega⟩
      · exact fun h => h.1

theorem encodeParams_eq_ok_iff {index : Nat} {params : List Param} {bs : List Bytes} :
    encodeParams max index params = .ok bs ↔
      List.Forall₂ (fun param b => param.encode = .ok b ∧ b.length ≤ max) params bs := by
  induction params generalizing index bs with
  | nil => rw [encodeParams, List.forall₂_nil_left_iff, Except.ok.injEq, eq_comm]
  | cons param params ih =>
    simp only [encodeParams, bind_eq_ok_iff, encodeParam_eq_ok_iff, ih, pure_eq_ok_iff,
      List.forall₂_cons_left_iff]
    constructor
    · rintro ⟨b, hb, bs', hbs, rfl⟩
      exact ⟨b, bs', hb, hbs, rfl⟩
    · rintro ⟨b, bs', hb, hbs, rfl⟩
      exact ⟨b, hb, bs', hbs, rfl⟩

theorem build_eq_ok_iff {d : Draft} {now : Instant} {t : UnsignedTransaction} :
    d.build now = .ok t ↔ ∃ contract params, Address.ofText? d.contract = .ok contract ∧
      checkMethod d.method d.limits.maxMethod = .ok () ∧
      checkParamCount d.params.length d.limits.maxParams = .ok () ∧
      encodeParams d.limits.maxParamSize 0 d.params = .ok params ∧
      t = ⟨d.version, d.nonce.getD (nonceAt now), d.gasPrice, d.gasLimit, d.payer,
        ⟨contract, d.method, params⟩⟩ := by
  simp only [build, bind_eq_ok_iff, pure_eq_ok_iff, mapError_eq_ok_iff]
  constructor
  · rintro ⟨contract, hcontract, ⟨⟩, hmethod, ⟨⟩, hcount, params, hparams, rfl⟩
    exact ⟨contract, params, hcontract, hmethod, hcount, hparams, rfl⟩
  · rintro ⟨contract, params, hcontract, hmethod, hcount, hparams, rfl⟩
    exact ⟨contract, hcontract, (), hmethod, (), hcount, params, hparams, rfl⟩

theorem extents_fit_of_build {d : Draft} {now : Instant} {t : UnsignedTransaction}
    (hd : d.limits.Counted) (h : d.build now = .ok t) :
    ∀ e ∈ t.extents d.limits, e.Writable ∧ e.Fits := by
  obtain ⟨contract, params, -, hmethod, hcount, hparams, rfl⟩ := build_eq_ok_iff.1 h
  have hmethod := checkMethod_eq_ok_iff.1 hmethod
  have hparams := encodeParams_eq_ok_iff.1 hparams
  have hcount : params.length ≤ d.limits.maxParams :=
    hparams.length_eq ▸ checkParamCount_eq_ok_iff.1 hcount
  have hsizes : ∀ b ∈ params, b.length ≤ d.limits.maxParamSize := by
    intro b hb
    obtain ⟨param, -, -, hsize⟩ := exists_left_of_forall₂ hparams hb
    exact hsize
  exact (UnsignedTransaction.extents_fit_iff hd).2 ⟨hmethod, hcount, hsizes⟩

theorem readable_of_build {d : Draft} {now : Instant} {t : UnsignedTransaction}
    (hd : d.limits.Counted) (h : d.build now = .ok t) : Record.unsigned.Readable t :=
  ⟨d.limits, Record.decode_encode_eq_ok_iff.2 (extents_fit_of_build hd h)⟩

end Draft

end ChainGovernance
