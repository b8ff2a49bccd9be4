import Mathlib.Tactic

/-!
Chains of results: when one succeeds, and where one fails.
-/

namespace ChainGovernance

variable {α β ε ε' : Type}

theorem bind_eq_ok_iff {x : Except ε α} {f : α → Except ε β} {y : β} :
    x >>= f = .ok y ↔ ∃ a, x = .ok a ∧ f a = .ok y := by
  cases x <;> simp [bind, Except.bind]

theorem bind_eq_error_iff {x : Except ε α} {f : α → Except ε β} {e : ε} :
    x >>= f = .error e ↔ x = .error e ∨ ∃ a, x = .ok a ∧ f a = .error e := by
  cases x <;> simp [bind, Except.bind]

theorem pure_eq_ok_iff {x y : α} : (pure x : Except ε α) = .ok y ↔ x = y :=
  Except.ok.injEq x y ▸ Iff.rfl

theorem map_eq_ok_iff {x : Except ε α} {f : α → β} {y : β} :
    x.map f = .ok y ↔ ∃ a, x = .ok a ∧ f a = y := by
  cases x <;> simp [Except.map]

theorem map_eq_error_iff {x : Except ε α} {f : α → β} {e : ε} :
    x.map f = .error e ↔ x = .error e := by
  cases x <;> simp [Except.map]

theorem mapError_eq_ok_iff {x : Except ε α} {f : ε → ε'} {y : α} :
    x.mapError f = .ok y ↔ x = .ok y := by
  cases x <;> simp [Except.mapError]

theorem mapError_eq_error_iff {x : Except ε α} {f : ε → ε'} {e : ε'} :
    x.mapError f = .error e ↔ ∃ e', x = .error e' ∧ e = f e' := by
  cases x <;> simp [Except.mapError, eq_comm]

/-! ### Lists of results -/

theorem mapM_eq_ok_iff {f : α → Except ε β} {xs : List α} {ys : List β} :
    xs.mapM f = .ok ys ↔ List.Forall₂ (fun x y => f x = .ok y) xs ys := by
  induction xs generalizing ys with
  | nil => rw [List.mapM_nil, List.forall₂_nil_left_iff, pure_eq_ok_iff, eq_comm]
  | cons x xs ih =>
    rw [List.mapM_cons, List.forall₂_cons_left_iff]
    simp only [bind_eq_ok_iff, ih, pure_eq_ok_iff]
    constructor
    · rintro ⟨y, hy, zs, hzs, rfl⟩
      exact ⟨y, zs, hy, hzs, rfl⟩
    · rintro ⟨y, zs, hy, hzs, rfl⟩
      exact ⟨y, hy, zs, hzs, rfl⟩

/-- A list of results fails with the first that does, and those in front of it succeed. -/
theorem mapM_eq_error_iff {f : α → Except ε β} {xs : List α} {e : ε} :
    xs.mapM f = .error e ↔ ∃ (i : Nat) (x : α), xs[i]? = some x ∧ f x = .error e ∧
      ∀ j < i, ∀ y, xs[j]? = some y → ∃ z, f y = .ok z := by
  induction xs with
  | nil => simp [pure, Except.pure]
  | cons x xs ih =>
    rw [List.mapM_cons, bind_eq_error_iff]
    constructor
    · rintro (hx | ⟨z, hz, h⟩)
      · exact ⟨0, x, rfl, hx, fun j hj => absurd hj (Nat.not_lt_zero j)⟩
      rcases bind_eq_error_iff.1 h with hxs | ⟨zs, -, h⟩
      · obtain ⟨i, y, hi, hy, hbefore⟩ := ih.1 hxs
        refine ⟨i + 1, y, hi, hy, fun j hj w hw => ?_⟩
        cases j with
        | zero =>
          obtain rfl := Option.some.inj hw
          exact ⟨z, hz⟩
        | succ j => exact hbefore j (Nat.lt_of_succ_lt_succ hj) w hw
      · cases h
    · rintro ⟨i, y, hi, hy, hbefore⟩
      cases i with
      | zero =>
        obtain rfl := Option.some.inj hi
        exact .inl hy
      | succ i =>
        obtain ⟨z, hz⟩ := hbefore 0 (Nat.succ_pos i) x rfl
        have hxs : xs.mapM f = .error e :=
          ih.2 ⟨i, y, hi, hy, fun j hj w hw => hbefore (j + 1) (Nat.succ_lt_succ hj) w hw⟩
        exact .inr ⟨z, hz, bind_eq_error_iff.2 (.inl hxs)⟩

theorem exists_of_mapM_eq_error {f : α → Except ε β} {xs : List α} {e : ε}
    (h : xs.mapM f = .error e) : ∃ x ∈ xs, f x = .error e := by
  obtain ⟨i, x, hi, hx, -⟩ := mapM_eq_error_iff.1 h
  exact ⟨x, List.mem_of_getElem? hi, hx⟩

theorem mapM_eq_error_of_first {f : α → Except ε β} {before after : List α} {x : α} {e : ε}
    (hbefore : ∀ y ∈ before, ∃ z, f y = .ok z) (hx : f x = .error e) :
    (before ++ x :: after).mapM f = .error e := by
  have hsplit : (before ++ x :: after)[before.length]? = some x := by
    rw [List.getElem?_append_right (le_refl _), Nat.sub_self, List.getElem?_cons_zero]
  refine mapM_eq_error_iff.2 ⟨before.length, x, hsplit, hx, fun j hj y hy => ?_⟩
  rw [List.getElem?_append_left hj] at hy
  exact hbefore y (List.mem_of_getElem? hy)

/-- The same for results that depend on where their items lie. -/
theorem mapM_zipIdx_eq_error_iff {f : Nat → α → Except ε β} {xs : List α} {e : ε} :
    xs.zipIdx.mapM (fun q => f q.2 q.1) = .error e ↔
      ∃ (i : Nat) (x : α), xs[i]? = some x ∧ f i x = .error e ∧
        ∀ j < i, ∀ y, xs[j]? = some y → ∃ z, f j y = .ok z := by
  rw [mapM_eq_error_iff]
  simp only [List.getElem?_zipIdx, Option.map_eq_some_iff, Nat.zero_add]
  constructor
  · rintro ⟨i, -, ⟨x, hi, rfl⟩, hx, hbefore⟩
    exact ⟨i, x, hi, hx, fun j hj y hy => hbefore j hj _ ⟨y, hy, rfl⟩⟩
  · rintro ⟨i, x, hi, hx, hbefore⟩
    refine ⟨i, _, ⟨x, hi, rfl⟩, hx, ?_⟩
    rintro j hj - ⟨y, hy, rfl⟩
    exact hbefore j hj y hy

theorem exists_left_of_forall₂ {R : α → β → Prop} {xs : List α} {ys : List β}
    (h : List.Forall₂ R xs ys) {y : β} (hy : y ∈ ys) : ∃ x ∈ xs, R x y := by
  induction h with
  | nil => cases hy
  | cons hxy _ ih =>
    rcases List.mem_cons.1 hy with rfl | hy
    · exact ⟨_, List.mem_cons_self, hxy⟩
    · obtain ⟨x, hx, hR⟩ := ih hy
      exact ⟨x, List.mem_cons_of_mem _ hx, hR⟩

theorem exists_right_of_forall₂ {R : α → β → Prop} {xs : List α} {ys : List β}
    (h : List.Forall₂ R xs ys) {x : α} (hx : x ∈ xs) : ∃ y ∈ ys, R x y :=
  exists_left_of_forall₂ h.flip hx

end ChainGovernance
