import ChainGovernance.Param
import ChainGovernance.Proofs.Results

/-!
The parts of a parameter, and when they are written.

A path of indices leads from a parameter to a part of it: every index selects an item of the array
that was reached so far. An array is written item by item up to the first that fails, so it is written
exactly if all its items are (`encode_array_eq_ok_iff`), and otherwise the fault is that of one item,
with its index (`encode_array_eq_error_iff`). Apart from arrays only texts can fail.
-/

namespace ChainGovernance.Param

/-- The part that a path of indices leads to. -/
def part? : Param → List Nat → Option Param
  | p, [] => some p
  | array items, i :: path => items[i]?.bind fun item => part? item path
  | _, _ :: _ => none

/-- A parameter that has no parts but itself. -/
def IsLeaf (p : Param) : Prop := ∀ items, p ≠ array items

variable {p part : Param} {items : List Param} {text : String} {b : Bytes} {fault : Fault} {i : Nat}
  {path : List Nat}

/-- What holds of the leaves, and of an array if it holds of its items, holds of every parameter. -/
@[elab_as_elim]
theorem induct {motive : Param → Prop} (leaf : ∀ p : Param, p.IsLeaf → motive p)
    (array : ∀ items : List Param, (∀ item ∈ items, motive item) → motive (.array items))
    (p : Param) : motive p := by
  refine Param.rec (motive_1 := motive) (motive_2 := fun items => ∀ item ∈ items, motive item)
    ?_ ?_ ?_ ?_ ?_ ?_ array (List.forall_mem_nil _) ?_ p
  case refine_7 => exact fun item items hitem hitems => List.forall_mem_cons.2 ⟨hitem, hitems⟩
  all_goals exact fun value => leaf _ fun items => Param.noConfusion

/-! ### Parts -/

theorem part?_array_cons : (array items).part? (i :: path) = some part ↔
    ∃ item, items[i]? = some item ∧ item.part? path = some part :=
  Option.bind_eq_some_iff

theorem IsLeaf.part?_eq (hp : p.IsLeaf) (h : p.part? path = some part) : path = [] ∧ part = p := by
  cases path with
  | nil => exact ⟨rfl, (Option.some.inj h).symm⟩
  | cons i path =>
    cases p with
    | array items => exact absurd rfl (hp items)
    | _ => cases h

/-! ### Writing texts -/

theorem encode_address_eq_ok_iff : (address text).encode = .ok b ↔
    ∃ a, Address.ofText? text = .ok a ∧ b = 0x04 :: a.toBytes := by
  simp only [encode, bind_eq_ok_iff, mapError_eq_ok_iff, pure_eq_ok_iff, eq_comm (a := b)]

theorem encode_address_eq_error_iff : (address text).encode = .error fault ↔
    ∃ e, Address.ofText? text = .error e ∧ fault = .address e := by
  simp [encode, bind_eq_error_iff, mapError_eq_error_iff, pure, Except.pure]

theorem encode_publicKey_eq_ok_iff : (publicKey text).encode = .ok b ↔
    ∃ key, keyOfText? text = .ok key ∧ b = 0x05 :: key.toBytes := by
  simp only [encode, bind_eq_ok_iff, pure_eq_ok_iff, eq_comm (a := b)]

theorem encode_publicKey_eq_error_iff :
    (publicKey text).encode = .error fault ↔ keyOfText? text = .error fault := by
  simp [encode, bind_eq_error_iff, pure, Except.pure]

/-! ### Writing arrays -/

/-- The items of an array are written in a row, up to the first that fails. -/
theorem encodeItems_eq (i : Nat) (items : List Param) : encodeItems i items =
    ((items.zipIdx i).mapM fun q : Param × Nat => q.1.encode.mapError (.element q.2)).map List.flatten := by
  induction items generalizing i with
  | nil => rfl
  | cons item items ih =>
    rw [encodeItems, ih, List.zipIdx_cons, List.mapM_cons]
    cases item.encode.mapError (Fault.element i) with
    | error fault => rfl
    | ok b =>
      cases (items.zipIdx (i + 1)).mapM fun q : Param × Nat =>
        q.1.encode.mapError (Fault.element q.2) <;> rfl

theorem encodeItems_eq_ok_iff : encodeItems i items = .ok b ↔
    ∃ bs, List.Forall₂ (fun item b => item.encode = .ok b) items bs ∧ b = bs.flatten := by
  induction items generalizing i b with
  | nil => simp [encodeItems, eq_comm]
  | cons item items ih =>
    simp only [encodeItems, bind_eq_ok_iff, mapError_eq_ok_iff, ih, pure_eq_ok_iff,
      List.forall₂_cons_left_iff]
    constructor
    · rintro ⟨c, hc, d, ⟨bs, hbs, rfl⟩, rfl⟩
      exact ⟨c :: bs, ⟨c, bs, hc, hbs, rfl⟩, rfl⟩
    · rintro ⟨bs, ⟨c, bs', hc, hbs, rfl⟩, rfl⟩
      exact ⟨c, hc, bs'.flatten, ⟨bs', hbs, rfl⟩, rfl⟩

theorem encodeItems_eq_error_iff : encodeItems 0 items = .error fault ↔
    ∃ (i : Nat) (item : Param) (e : Fault), items[i]? = some item ∧ item.encode = .error e ∧
      fault = .element i e ∧ ∀ j < i, ∀ y, items[j]? = some y → ∃ b, y.encode = .ok b := by
  rw [encodeItems_eq, map_eq_error_iff,
    mapM_zipIdx_eq_error_iff (f := fun i (item : Param) => item.encode.mapError (Fault.element i))]
  simp only [mapError_eq_error_iff, mapError_eq_ok_iff]
  constructor
  · rintro ⟨i, item, hitem, ⟨e, he, rfl⟩, hbefore⟩
    exact ⟨i, item, e, hitem, he, rfl, hbefore⟩
  · rintro ⟨i, item, e, hitem, he, rfl, hbefore⟩
    exact ⟨i, item, hitem, ⟨e, he, rfl⟩, hbefore⟩

/-- Behind its tag and the number of its items, an array is the items in a row. -/
theorem encode_array_eq_ok_iff : (array items).encode = .ok b ↔
    ∃ bs, List.Forall₂ (fun item b => item.encode = .ok b) items bs ∧
      b = 0x06 :: (Wire.Compact.write (UInt64.ofNat items.length) ++ bs.flatten) := by
  simp only [encode, bind_eq_ok_iff, encodeItems_eq_ok_iff, pure_eq_ok_iff]
  constructor
  · rintro ⟨-, ⟨bs, hbs, rfl⟩, rfl⟩
    exact ⟨bs, hbs, rfl⟩
  · rintro ⟨bs, hbs, rfl⟩
    exact ⟨bs.flatten, ⟨bs, hbs, rfl⟩, rfl⟩

/-- An array fails with the first of its items that does. -/
theorem encode_array_eq_error_iff : (array items).encode = .error fault ↔
    ∃ (i : Nat) (item : Param) (e : Fault), items[i]? = some item ∧ item.encode = .error e ∧
      fault = .element i e ∧ ∀ j < i, ∀ y, items[j]? = some y → ∃ b, y.encode = .ok b := by
  rw [← encodeItems_eq_error_iff, encode]
  cases encodeItems 0 items with
  | error e => rfl
  | ok body => simp [bind, Except.bind, pure, Except.pure]

end ChainGovernance.Param
