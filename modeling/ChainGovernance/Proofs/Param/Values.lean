import ChainGovernance.Proofs.Param.Parts
import ChainGovernance.Proofs.RoundTrip

/-!
The bytes of a parameter tell what it denotes.

A parameter denotes a value, in which the texts of addresses and keys are replaced by what they denote.
Its bytes determine that value and also where they end, so parameters can be written in a row with no
length in front of each (`encode_determines_value`). Every kind of parameter has a tag of its own, which
settles the kind, and then a body that is of one size, counted, or the items of an array in a row. For
the items the statement is the induction hypothesis, with what follows an item as the rest.
-/

namespace ChainGovernance.Param

open Wire

/-- What a parameter denotes. -/
inductive Value
  | bytes (value : Bytes)
  | string (value : String)
  | int (value : UInt64)
  | flag (value : Bool)
  | address (value : Address)
  | publicKey (value : PublicKey)
  | array (items : List Value)

mutual

/-- The value that a parameter denotes, if all the texts in it denote something. -/
def value? : Param → Option Value
  | bytes value => some (.bytes value)
  | string value => some (.string value)
  | int value => some (.int value)
  | flag value => some (.flag value)
  | address text => (Address.ofText? text).toOption.map .address
  | publicKey text => (keyOfText? text).toOption.map .publicKey
  | array items => (values? items).map .array

/-- The values of the items of an array. -/
def values? : List Param → Option (List Value)
  | [] => some []
  | item :: items => do
    let v ← value? item
    let vs ← values? items
    pure (v :: vs)

end

/-- The length that is written for a parameter, apart from those of its parts. -/
def length : Param → Nat
  | bytes value => value.length
  | string value => (Text.utf8 value).length
  | array items => items.length
  | _ => 0

/-- All lengths inside a parameter can be counted in 64 bits. -/
def Counted (p : Param) : Prop := ∀ path part, p.part? path = some part → part.length < 2 ^ 64

/-- The byte that names the type of a parameter. -/
def tag : Param → UInt8
  | bytes _ => 0x00
  | string _ => 0x01
  | int _ => 0x02
  | flag _ => 0x03
  | address _ => 0x04
  | publicKey _ => 0x05
  | array _ => 0x06

variable {p q : Param} {items items' : List Param} {text : String} {a b x y : Bytes}

/-! ### Values -/

theorem value?_address {a : Address} (h : Address.ofText? text = .ok a) :
    (address text).value? = some (.address a) := by
  rw [value?, h]
  rfl

theorem value?_publicKey {key : PublicKey} (h : keyOfText? text = .ok key) :
    (publicKey text).value? = some (.publicKey key) := by
  rw [value?, h]
  rfl

theorem value?_array {vs : List Value} (h : values? items = some vs) :
    (array items).value? = some (.array vs) := by
  rw [value?, h]
  rfl

theorem values?_cons {v : Value} {vs : List Value} (hv : p.value? = some v)
    (hvs : values? items = some vs) : values? (p :: items) = some (v :: vs) := by
  rw [values?, hv, hvs]
  rfl

/-! ### What is written -/

theorem exists_body (h : p.encode = .ok b) : ∃ body, b = p.tag :: body := by
  cases p with
  | address text =>
    obtain ⟨a, -, rfl⟩ := encode_address_eq_ok_iff.1 h
    exact ⟨a.toBytes, rfl⟩
  | publicKey text =>
    obtain ⟨key, -, rfl⟩ := encode_publicKey_eq_ok_iff.1 h
    exact ⟨key.toBytes, rfl⟩
  | array items =>
    obtain ⟨bs, -, rfl⟩ := encode_array_eq_ok_iff.1 h
    exact ⟨_, rfl⟩
  | _ => exact ⟨_, (Except.ok.inj h).symm⟩

theorem tag_eq (ha : p.encode = .ok a) (hb : q.encode = .ok b) (h : a ++ x = b ++ y) :
    p.tag = q.tag := by
  obtain ⟨body, rfl⟩ := exists_body ha
  obtain ⟨body', rfl⟩ := exists_body hb
  exact (List.cons.inj h).1

/-! ### Lengths -/

theorem Counted.length_lt (h : p.Counted) : p.length < 2 ^ 64 := h [] p rfl

theorem IsLeaf.counted (hp : p.IsLeaf) (h : p.length < 2 ^ 64) : p.Counted := by
  intro path part hpart
  obtain ⟨-, rfl⟩ := hp.part?_eq hpart
  exact h

theorem counted_array_iff : (array items).Counted ↔
    items.length < 2 ^ 64 ∧ ∀ item ∈ items, item.Counted := by
  constructor
  · intro h
    refine ⟨h.length_lt, fun item hitem path part hpart => ?_⟩
    obtain ⟨i, hi⟩ := List.mem_iff_getElem?.1 hitem
    exact h (i :: path) part (part?_array_cons.2 ⟨item, hi, hpart⟩)
  · rintro ⟨hlength, hitems⟩ path part hpart
    cases path with
    | nil =>
      obtain rfl := Option.some.inj hpart
      exact hlength
    | cons i path =>
      obtain ⟨item, hitem, hpart⟩ := part?_array_cons.1 hpart
      exact hitems item (List.mem_of_getElem? hitem) path part hpart

theorem lengthAndBytes_unique {v w : Bytes} (hv : v.length < 2 ^ 64) (hw : w.length < 2 ^ 64)
    (h : lengthAndBytes v ++ x = lengthAndBytes w ++ y) : v = w ∧ x = y := by
  refine (Format.restores_bytes {} v).unique (Format.restores_bytes {} w) ?_ ?_ h
  · exact List.forall_mem_singleton.2 ⟨hv, rfl⟩
  · exact List.forall_mem_singleton.2 hw

theorem count_unique {n m : Nat} (hn : n < 2 ^ 64) (hm : m < 2 ^ 64)
    (h : Compact.write (UInt64.ofNat n) ++ x = Compact.write (UInt64.ofNat m) ++ y) :
    n = m ∧ x = y := by
  obtain ⟨hnm, hxy⟩ :=
    (Format.restores_compact (UInt64.ofNat n)).unique_nil (Format.restores_compact _) h
  have hto := congrArg UInt64.toNat hnm
  rw [UInt64.toNat_ofNat_of_lt' hn, UInt64.toNat_ofNat_of_lt' hm] at hto
  exact ⟨hto, hxy⟩

/-! ### What the bytes tell -/

/-- The bytes of a parameter, in front of whatever follows, are those of no parameter that denotes
another value, and of none that ends elsewhere. -/
def Recoverable (p : Param) : Prop :=
  ∀ ⦃q : Param⦄ ⦃a b x y : Bytes⦄, p.Counted → q.Counted → p.encode = .ok a → q.encode = .ok b →
    a ++ x = b ++ y → (∃ v, p.value? = some v ∧ q.value? = some v) ∧ x = y

theorem recoverable_bytes (v : Bytes) : (bytes v).Recoverable := by
  intro q a b x y hcounted hcounted' ha hb h
  have htag : (bytes v).tag = q.tag := tag_eq ha hb h
  cases q with
  | bytes w =>
    cases ha
    cases hb
    obtain ⟨rfl, hxy⟩ := lengthAndBytes_unique hcounted.length_lt hcounted'.length_lt
      (List.cons.inj h).2
    exact ⟨⟨_, rfl, rfl⟩, hxy⟩
  | _ => cases htag

theorem recoverable_string (s : String) : (string s).Recoverable := by
  intro q a b x y hcounted hcounted' ha hb h
  have htag : (string s).tag = q.tag := tag_eq ha hb h
  cases q with
  | string t =>
    cases ha
    cases hb
    obtain ⟨hutf8, hxy⟩ := lengthAndBytes_unique hcounted.length_lt hcounted'.length_lt
      (List.cons.inj h).2
    obtain rfl := Text.utf8_injective hutf8
    exact ⟨⟨_, rfl, rfl⟩, hxy⟩
  | _ => cases htag

theorem recoverable_int (n : UInt64) : (int n).Recoverable := by
  intro q a b x y _ _ ha hb h
  have htag : (int n).tag = q.tag := tag_eq ha hb h
  cases q with
  | int m =>
    cases ha
    cases hb
    obtain ⟨rfl, hxy⟩ := (Format.restores_uint64 n).unique_nil (Format.restores_uint64 m)
      (List.cons.inj h).2
    exact ⟨⟨_, rfl, rfl⟩, hxy⟩
  | _ => cases htag

theorem recoverable_flag (c : Bool) : (flag c).Recoverable := by
  intro q a b x y _ _ ha hb h
  have htag : (flag c).tag = q.tag := tag_eq ha hb h
  cases q with
  | flag d =>
    cases ha
    cases hb
    obtain ⟨rfl, hxy⟩ := (Format.restores_flag c).unique_nil (Format.restores_flag d)
      (List.cons.inj h).2
    exact ⟨⟨_, rfl, rfl⟩, hxy⟩
  | _ => cases htag

theorem recoverable_address (text : String) : (address text).Recoverable := by
  intro q a b x y _ _ ha hb h
  have htag : (address text).tag = q.tag := tag_eq ha hb h
  cases q with
  | address text' =>
    obtain ⟨c, hc, rfl⟩ := encode_address_eq_ok_iff.1 ha
    obtain ⟨d, hd, rfl⟩ := encode_address_eq_ok_iff.1 hb
    obtain ⟨rfl, hxy⟩ := (Address.restores c).unique_nil (Address.restores d) (List.cons.inj h).2
    exact ⟨⟨_, value?_address hc, value?_address hd⟩, hxy⟩
  | _ => cases htag

theorem recoverable_publicKey (text : String) : (publicKey text).Recoverable := by
  intro q a b x y _ _ ha hb h
  have htag : (publicKey text).tag = q.tag := tag_eq ha hb h
  cases q with
  | publicKey text' =>
    obtain ⟨key, hkey, rfl⟩ := encode_publicKey_eq_ok_iff.1 ha
    obtain ⟨key', hkey', rfl⟩ := encode_publicKey_eq_ok_iff.1 hb
    obtain ⟨rfl, hxy⟩ := key.restores_format.unique_nil key'.restores_format (List.cons.inj h).2
    exact ⟨⟨_, value?_publicKey hkey, value?_publicKey hkey'⟩, hxy⟩
  | _ => cases htag

/-- Items in a row, each of which is recovered in front of all that comes behind it. -/
theorem recover_items {bs cs : List Bytes} (ih : ∀ item ∈ items, item.Recoverable)
    (hcounted : ∀ item ∈ items, item.Counted) (hcounted' : ∀ item ∈ items', item.Counted)
    (hbs : List.Forall₂ (fun item b => item.encode = .ok b) items bs)
    (hcs : List.Forall₂ (fun item b => item.encode = .ok b) items' cs)
    (hlength : items.length = items'.length) (h : bs.flatten ++ x = cs.flatten ++ y) :
    (∃ vs, values? items = some vs ∧ values? items' = some vs) ∧ x = y := by
  induction hbs generalizing items' cs with
  | nil =>
    obtain rfl := List.length_eq_zero_iff.1 hlength.symm
    cases hcs
    exact ⟨⟨[], rfl, rfl⟩, h⟩
  | @cons item b items bs hb hbs ihs =>
    cases hcs with
    | nil => cases hlength
    | @cons item' c items' cs hc hcs =>
      obtain ⟨hitem, ih⟩ := List.forall_mem_cons.1 ih
      obtain ⟨hcount, hcounted⟩ := List.forall_mem_cons.1 hcounted
      obtain ⟨hcount', hcounted'⟩ := List.forall_mem_cons.1 hcounted'
      have hrow : b ++ (bs.flatten ++ x) = c ++ (cs.flatten ++ y) := by
        simpa only [List.flatten_cons, List.append_assoc] using h
      obtain ⟨⟨v, hv, hv'⟩, hrest⟩ := hitem hcount hcount' hb hc hrow
      obtain ⟨⟨vs, hvs, hvs'⟩, hxy⟩ :=
        ihs ih hcounted hcounted' hcs (Nat.succ.inj hlength) hrest
      exact ⟨⟨_, values?_cons hv hvs, values?_cons hv' hvs'⟩, hxy⟩

theorem recoverable_array (ih : ∀ item ∈ items, item.Recoverable) : (array items).Recoverable := by
  intro q a b x y hcounted hcounted' ha hb h
  have htag : (array items).tag = q.tag := tag_eq ha hb h
  cases q with
  | array items' =>
    obtain ⟨bs, hbs, rfl⟩ := encode_array_eq_ok_iff.1 ha
    obtain ⟨cs, hcs, rfl⟩ := encode_array_eq_ok_iff.1 hb
    rw [List.cons_append, List.cons_append, List.append_assoc, List.append_assoc] at h
    obtain ⟨hlength, hrow⟩ := count_unique hcounted.length_lt hcounted'.length_lt
      (List.cons.inj h).2
    obtain ⟨⟨vs, hvs, hvs'⟩, hxy⟩ := recover_items ih (counted_array_iff.1 hcounted).2
      (counted_array_iff.1 hcounted').2 hbs hcs hlength hrow
    exact ⟨⟨_, value?_array hvs, value?_array hvs'⟩, hxy⟩
  | _ => cases htag

theorem recoverable (p : Param) : p.Recoverable := by
  induction p using induct with
  | leaf p hp =>
    cases p with
    | bytes v => exact recoverable_bytes v
    | string s => exact recoverable_string s
    | int n => exact recoverable_int n
    | flag c => exact recoverable_flag c
    | address text => exact recoverable_address text
    | publicKey text => exact recoverable_publicKey text
    | array items => exact absurd rfl (hp items)
  | array items ih => exact recoverable_array ih

/-- **Parameters are uniquely decodable.** If two parameters are written, and what follows them makes
the bytes the same, then the same follows them, and they denote the same value. So parameters that
denote different values have different bytes, and no parameter's bytes are the beginning of those of
another. -/
theorem encode_determines_value {p q : Param} {a b : Bytes} (hp : p.Counted) (hq : q.Counted)
    (ha : p.encode = .ok a) (hb : q.encode = .ok b) :
    (∀ x y, a ++ x = b ++ y → x = y ∧ ∃ v, p.value? = some v ∧ q.value? = some v) ∧
      (p.value? ≠ q.value? → a ≠ b) ∧ (a <+: b → a = b) := by
  have hrow : ∀ x y, a ++ x = b ++ y → x = y ∧ ∃ v, p.value? = some v ∧ q.value? = some v := by
    intro x y h
    obtain ⟨hvalue, hxy⟩ := recoverable p hp hq ha hb h
    exact ⟨hxy, hvalue⟩
  refine ⟨hrow, fun hne hab => ?_, ?_⟩
  · obtain ⟨-, v, hv, hv'⟩ := hrow [] [] (congrArg (· ++ []) hab)
    exact hne (hv.trans hv'.symm)
  · rintro ⟨r, hr⟩
    obtain ⟨rfl, -⟩ := hrow r [] (hr.trans (List.append_nil b).symm)
    rw [← hr, List.append_nil]

/-- An address inside an array inside an array. -/
def nestedAddress (text : String) : Param := array [array [address text], flag true]

theorem counted_nestedAddress (text : String) : (nestedAddress text).Counted := by
  have haddress : (address text).Counted :=
    IsLeaf.counted (fun _ => Param.noConfusion) (Nat.two_pow_pos 64)
  have hflag : (flag true).Counted :=
    IsLeaf.counted (fun _ => Param.noConfusion) (Nat.two_pow_pos 64)
  have hinner : (array [address text]).Counted :=
    counted_array_iff.2 ⟨by norm_num, List.forall_mem_singleton.2 haddress⟩
  exact counted_array_iff.2
    ⟨by norm_num, List.forall_mem_cons.2 ⟨hinner, List.forall_mem_singleton.2 hflag⟩⟩

/-- Two spellings of an address are written alike, and denote the same. -/
theorem encode_determines_value_spellings :
    ∃ a, (nestedAddress "0x0000000000000000000000000000000000000007").encode = .ok a ∧
      (nestedAddress " 0000000000000000000000000000000000000007").encode = .ok a ∧
      ∃ v, (nestedAddress "0x0000000000000000000000000000000000000007").value? = some v ∧
        (nestedAddress " 0000000000000000000000000000000000000007").value? = some v := by
  obtain ⟨a, ha⟩ : ∃ a, (nestedAddress "0x0000000000000000000000000000000000000007").encode = .ok a :=
    ⟨_, rfl⟩
  have hb : (nestedAddress " 0000000000000000000000000000000000000007").encode = .ok a := by
    rw [← ha]
    decide +kernel
  refine ⟨a, ha, hb, ?_⟩
  have hunique := encode_determines_value (counted_nestedAddress _) (counted_nestedAddress _) ha hb
  exact (hunique.1 [9] [9] rfl).2

end ChainGovernance.Param
