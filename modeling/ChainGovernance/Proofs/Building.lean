import ChainGovernance.Proofs.Drafts

/-!
When a transaction is built from a draft, and why not.

The checks of a draft bound the same lengths as the format of the transaction does when it is read:
`build_eq_ok_iff_decode` says that what a draft gives is built exactly if it comes back from its bytes
under the limits of the draft. `build_eq_error_iff` goes through the checks in their order.
-/

namespace ChainGovernance

open Wire

namespace Draft

variable {d : Draft} {now : Instant} {t : UnsignedTransaction} {max i : Nat} {e : Error}

/-- The parameter can be written, in at most `max` bytes. -/
def Passes (max : Nat) (param : Param) : Prop := ∃ b, param.encode = .ok b ∧ b.length ≤ max

/-- Why a parameter does not pass. -/
inductive Barred (max : Nat) (param : Param) : ParamFault → Prop
  | encoding {fault : Param.Fault} (h : param.encode = .error fault) :
    Barred max param (.encoding fault)
  | tooLarge {b : Bytes} (h : param.encode = .ok b) (hb : max < b.length) :
    Barred max param (.tooLarge b.length max)

/-- The method has a name, of at most as many bytes as the limits allow. -/
def MethodFits (d : Draft) : Prop :=
  1 ≤ d.method.utf8ByteSize ∧ d.method.utf8ByteSize ≤ d.limits.maxMethod

/-- What a draft needs to be built. -/
structure Admissible (d : Draft) : Prop where
  contract : ∃ a, Address.ofText? d.contract = .ok a
  method : d.MethodFits
  count : d.params.length ≤ d.limits.maxParams
  params : ∀ param ∈ d.params, Passes d.limits.maxParamSize param

/-- Why a draft is refused: the first of its checks that fails, and for the parameters the first that
does not pass. -/
inductive Refused (d : Draft) : Error → Prop
  | contract {fault : Address.Fault} (h : Address.ofText? d.contract = .error fault) :
    Refused d (.address fault)
  | emptyMethod {a : Address} (ha : Address.ofText? d.contract = .ok a)
    (h : d.method.utf8ByteSize = 0) : Refused d (.method .empty)
  | longMethod {a : Address} (ha : Address.ofText? d.contract = .ok a)
    (h : d.limits.maxMethod < d.method.utf8ByteSize) :
    Refused d (.method (.tooLong d.method.utf8ByteSize d.limits.maxMethod))
  | count {a : Address} (ha : Address.ofText? d.contract = .ok a) (hmethod : d.MethodFits)
    (h : d.limits.maxParams < d.params.length) :
    Refused d (.parameter d.limits.maxParams (.tooMany d.limits.maxParams))
  | param {a : Address} (ha : Address.ofText? d.contract = .ok a) (hmethod : d.MethodFits)
    (hcount : d.params.length ≤ d.limits.maxParams) {i : Nat} {param : Param} {fault : ParamFault}
    (hi : d.params[i]? = some param) (h : Barred d.limits.maxParamSize param fault)
    (first : ∀ j < i, ∀ q, d.params[j]? = some q → Passes d.limits.maxParamSize q) :
    Refused d (.parameter i fault)

/-- What a draft gives, whether its limits allow it or not. -/
structure Gives (d : Draft) (now : Instant) (t : UnsignedTransaction) : Prop where
  contract : Address.ofText? d.contract = .ok t.invocation.contract
  method : t.invocation.method = d.method
  params : List.Forall₂ (fun param b => param.encode = .ok b) d.params t.invocation.params
  version : t.version = d.version
  nonce : t.nonce = d.nonce.getD (nonceAt now)
  gasPrice : t.gasPrice = d.gasPrice
  gasLimit : t.gasLimit = d.gasLimit
  payer : t.payer = d.payer

/-! ### Why a check fails -/

theorem checkMethod_eq_error_iff {method : String} : checkMethod method max = .error e ↔
    method.utf8ByteSize = 0 ∧ e = .method .empty ∨
      max < method.utf8ByteSize ∧ e = .method (.tooLong method.utf8ByteSize max) := by
  simp only [checkMethod]
  split
  · next h => simp [h, eq_comm]
  · next h =>
    split
    · next hmax => simp [h, hmax, eq_comm]
    · next hmax => simp [h, hmax]

theorem checkParamCount_eq_error_iff {count : Nat} : checkParamCount count max = .error e ↔
    max < count ∧ e = .parameter max (.tooMany max) := by
  unfold checkParamCount
  split
  · next h => simp [h, eq_comm]
  · next h => simp [h]

theorem encodeParam_eq_error_iff {param : Param} : encodeParam max i param = .error e ↔
    ∃ fault, Barred max param fault ∧ e = .parameter i fault := by
  constructor
  · intro h
    unfold encodeParam at h
    split at h
    · next fault hfault =>
      cases h
      exact ⟨_, .encoding hfault, rfl⟩
    · next b hb =>
      split at h
      · next hmax =>
        cases h
        exact ⟨_, .tooLarge hb hmax, rfl⟩
      · cases h
  · rintro ⟨fault, hfault, rfl⟩
    cases hfault with
    | encoding h =>
      unfold encodeParam
      rw [h]
    | tooLarge h hmax =>
      unfold encodeParam
      rw [h]
      exact if_pos hmax

theorem encodeParams_eq (i : Nat) (params : List Param) :
    encodeParams max i params = (params.zipIdx i).mapM fun q => encodeParam max q.2 q.1 := by
  induction params generalizing i with
  | nil => rfl
  | cons param params ih =>
    rw [encodeParams, List.zipIdx_cons, List.mapM_cons, ih]

/-- The parameters fail with the first that does not pass. -/
theorem encodeParams_eq_error_iff {params : List Param} : encodeParams max 0 params = .error e ↔
    ∃ (i : Nat) (param : Param) (fault : ParamFault), params[i]? = some param ∧
      Barred max param fault ∧ (∀ j < i, ∀ q, params[j]? = some q → Passes max q) ∧
      e = .parameter i fault := by
  rw [encodeParams_eq, mapM_zipIdx_eq_error_iff]
  simp only [encodeParam_eq_error_iff, encodeParam_eq_ok_iff]
  constructor
  · rintro ⟨i, param, hparam, ⟨fault, hfault, rfl⟩, hbefore⟩
    exact ⟨i, param, fault, hparam, hfault, hbefore, rfl⟩
  · rintro ⟨i, param, fault, hparam, hfault, hbefore, rfl⟩
    exact ⟨i, param, hparam, ⟨fault, hfault, rfl⟩, hbefore⟩

/-! ### Building -/

/-- A draft is refused exactly for the first of its checks that fails. -/
theorem build_eq_error_iff : d.build now = .error e ↔ d.Refused e := by
  simp only [build, bind_eq_error_iff, mapError_eq_ok_iff, mapError_eq_error_iff,
    checkMethod_eq_error_iff, checkParamCount_eq_error_iff, encodeParams_eq_error_iff]
  constructor
  · rintro (⟨fault, h, rfl⟩ | ⟨a, ha, (⟨h, rfl⟩ | ⟨h, rfl⟩) | ⟨⟨⟩, hmethod,
      ⟨h, rfl⟩ | ⟨⟨⟩, hcount, ⟨i, param, fault, hi, h, hfirst, rfl⟩ | ⟨bs, -, h⟩⟩⟩⟩)
    · exact .contract h
    · exact .emptyMethod ha h
    · exact .longMethod ha h
    · exact .count ha (checkMethod_eq_ok_iff.1 hmethod) h
    · exact .param ha (checkMethod_eq_ok_iff.1 hmethod) (checkParamCount_eq_ok_iff.1 hcount)
        hi h hfirst
    · cases h
  · intro h
    cases h with
    | contract h => exact .inl ⟨_, h, rfl⟩
    | emptyMethod ha h => exact .inr ⟨_, ha, .inl (.inl ⟨h, rfl⟩)⟩
    | longMethod ha h => exact .inr ⟨_, ha, .inl (.inr ⟨h, rfl⟩)⟩
    | count ha hmethod h =>
      exact .inr ⟨_, ha, .inr ⟨(), checkMethod_eq_ok_iff.2 hmethod, .inl ⟨h, rfl⟩⟩⟩
    | param ha hmethod hcount hi h hfirst =>
      exact .inr ⟨_, ha, .inr ⟨(), checkMethod_eq_ok_iff.2 hmethod, .inr ⟨(),
        checkParamCount_eq_ok_iff.2 hcount, .inl ⟨_, _, _, hi, h, hfirst, rfl⟩⟩⟩⟩

/-- What a draft gives is built exactly within its limits. -/
theorem build_eq_ok_iff_gives : d.build now = .ok t ↔ d.Gives now t ∧ d.MethodFits ∧
    d.params.length ≤ d.limits.maxParams ∧
    ∀ b ∈ t.invocation.params, b.length ≤ d.limits.maxParamSize := by
  rw [build_eq_ok_iff]
  simp only [checkMethod_eq_ok_iff, checkParamCount_eq_ok_iff, encodeParams_eq_ok_iff]
  constructor
  · rintro ⟨contract, params, hcontract, hmethod, hcount, hparams, rfl⟩
    have hwritten := hparams.imp fun _ _ h => h.1
    refine ⟨⟨hcontract, rfl, hwritten, rfl, rfl, rfl, rfl, rfl⟩, hmethod, hcount, ?_⟩
    intro b hb
    obtain ⟨param, -, -, hsize⟩ := exists_left_of_forall₂ hparams hb
    exact hsize
  · obtain ⟨version, nonce, gasPrice, gasLimit, payer, contract, method, params⟩ := t
    rintro ⟨⟨hcontract, rfl, hparams, rfl, rfl, rfl, rfl, rfl⟩, hmethod, hcount, hsizes⟩
    have hsized := (List.forall₂_and_left _ _).2 ⟨hsizes, hparams.flip⟩
    exact ⟨contract, params, hcontract, hmethod, hcount,
      hsized.flip.imp fun _ _ h => ⟨h.2, h.1⟩, rfl⟩

/-- What a draft gives is built exactly if it comes back from its bytes under the same limits. -/
theorem build_eq_ok_iff_decode (hlimits : d.limits.Counted) : d.build now = .ok t ↔
    d.Gives now t ∧ (UnsignedTransaction.format d.limits).decode t.encode = .ok t := by
  have hdecode : (UnsignedTransaction.format d.limits).decode t.encode = .ok t ↔
      ∀ e ∈ t.extents d.limits, e.Writable ∧ e.Fits :=
    Record.decode_encode_eq_ok_iff (k := .unsigned)
  rw [build_eq_ok_iff_gives, hdecode, UnsignedTransaction.extents_fit_iff hlimits]
  refine and_congr_right fun h => ?_
  rw [h.method, h.params.length_eq]
  rfl

theorem Barred.not_passes {param : Param} {fault : ParamFault} (h : Barred max param fault) :
    ¬ Passes max param := by
  rintro ⟨b, hb, hsize⟩
  cases h with
  | encoding h => cases hb.symm.trans h
  | tooLarge h hmax =>
    obtain rfl := Except.ok.inj (hb.symm.trans h)
    omega

theorem Refused.not_admissible (h : d.Refused e) : ¬ d.Admissible := by
  rintro ⟨⟨a, ha⟩, hmethod, hcount, hparams⟩
  cases h with
  | contract h => cases ha.symm.trans h
  | emptyMethod _ h => exact absurd hmethod.1 (by omega)
  | longMethod _ h => exact absurd hmethod.2 (by omega)
  | count _ _ h => omega
  | param _ _ _ hi h => exact h.not_passes (hparams _ (List.mem_of_getElem? hi))

theorem exists_build_iff : (∃ t, d.build now = .ok t) ↔ d.Admissible := by
  constructor
  · rintro ⟨t, h⟩
    obtain ⟨hgives, hmethod, hcount, hsizes⟩ := build_eq_ok_iff_gives.1 h
    refine ⟨⟨_, hgives.contract⟩, hmethod, hcount, fun param hparam => ?_⟩
    obtain ⟨b, hb, hencode⟩ := exists_right_of_forall₂ hgives.params hparam
    exact ⟨b, hencode, hsizes b hb⟩
  · intro h
    cases hbuild : d.build now with
    | ok t => exact ⟨t, rfl⟩
    | error e => exact absurd h (build_eq_error_iff.1 hbuild).not_admissible

/-- **Drafts are built exactly within what can be read.** A draft is built exactly if its contract is
an address, its method has a name of at most as many bytes as are allowed, and its parameters are no
more than are allowed and all pass. What a draft gives is built exactly if it comes back from its bytes
under the limits of the draft; the hash of these bytes is its name. A draft that is not built is refused
for the first check that fails, and for its parameters at the first that does not pass. -/
theorem build_exact (d : Draft) (now : Instant) :
    ((∃ t, d.build now = .ok t) ↔ d.Admissible) ∧
      (d.limits.Counted → ∀ t, d.build now = .ok t ↔
        d.Gives now t ∧ (UnsignedTransaction.format d.limits).decode t.encode = .ok t) ∧
      (∀ t, d.build now = .ok t → t.hash = doubleHash t.encode) ∧
      ∀ e, d.build now = .error e ↔ d.Refused e :=
  ⟨exists_build_iff, fun hlimits _ => build_eq_ok_iff_decode hlimits, fun _ _ => rfl,
    fun _ => build_eq_error_iff⟩

/-- A draft with a method of four bytes, all that are allowed, and one parameter, of nine. -/
def vote (maxParams maxParamSize : Nat) : Draft where
  contract := "0x0000000000000000000000000000000000000007"
  method := "vote"
  payer := .zero
  params := [.int 1]
  limits := { maxMethod := 4, maxParams := maxParams, maxParamSize := maxParamSize }

/-- The draft is built if its parameter just reaches the limits, and refused if there is no room for a
parameter, or one byte too little for this one. -/
theorem build_exact_at_limits :
    (∃ t, (vote 1 9).build .epoch = .ok t ∧
      (UnsignedTransaction.format (vote 1 9).limits).decode t.encode = .ok t ∧
      t.hash = doubleHash t.encode) ∧
    (vote 0 8).build .epoch = .error (.parameter 0 (.tooMany 0)) ∧
    (vote 1 8).build .epoch = .error (.parameter 0 (.tooLarge 9 8)) := by
  obtain ⟨a, ha⟩ : ∃ a, Address.ofText? "0x0000000000000000000000000000000000000007" = .ok a := ⟨_, rfl⟩
  have hvote : 1 ≤ "vote".utf8ByteSize ∧ "vote".utf8ByteSize ≤ 4 := by decide
  have hone : (Param.int 1).encode = .ok (0x02 :: Format.uint64.write 1) := rfl
  have hadmissible : (vote 1 9).Admissible :=
    ⟨⟨a, ha⟩, hvote, le_refl 1, List.forall_mem_singleton.2 ⟨_, hone, by decide⟩⟩
  have hcounted : (vote 1 9).limits.Counted := by constructor <;> norm_num [vote]
  have hlarge : Barred 8 (.int 1) (.tooLarge 9 8) := .tooLarge hone (by decide)
  obtain ⟨hbuilt, hread, hhash, -⟩ := build_exact (vote 1 9) .epoch
  obtain ⟨t, ht⟩ := hbuilt.2 hadmissible
  refine ⟨⟨t, ht, ((hread hcounted t).1 ht).2, hhash t ht⟩, ?_, ?_⟩
  · exact ((build_exact (vote 0 8) .epoch).2.2.2 _).2 (.count ha hvote Nat.zero_lt_one)
  · refine ((build_exact (vote 1 8) .epoch).2.2.2 _).2 ?_
    refine Refused.param (d := vote 1 8) ha hvote (le_refl 1) (i := 0) rfl hlarge ?_
    exact fun j hj => absurd hj (Nat.not_lt_zero j)

end Draft

end ChainGovernance
