import ChainGovernance.Proofs.Param.Parts

/-!
Where a parameter that cannot be written is at fault.

Only texts can be refused: those of addresses and of keys. A parameter cannot be written exactly if
one of its parts is refused, and the fault is that of the first such part in the order of reading,
which is the order of the paths as words: an array is read item by item, each with all its parts. On
the way out every array that encloses the part puts the index of its item in front.
-/

namespace ChainGovernance.Param

variable {p leaf : Param} {fault reason : Fault} {path : List Nat} {b : Bytes}

/-- A text that denotes no address, or no key, and why. -/
inductive Refused : Param → Fault → Prop
  | address {text : String} {fault : Address.Fault} (h : Address.ofText? text = .error fault) :
    Refused (.address text) (.address fault)
  | publicKey {text : String} {fault : Fault} (h : keyOfText? text = .error fault) :
    Refused (.publicKey text) fault

/-- The fault of the part at a path, as it is reported for the whole. -/
def Fault.under (path : List Nat) (fault : Fault) : Fault := path.foldr .element fault

/-- The part at `path` is refused for a `reason`, and none is refused at an earlier path. -/
structure FirstRefused (p : Param) (path : List Nat) (reason : Fault) : Prop where
  refused : ∃ leaf, p.part? path = some leaf ∧ leaf.Refused reason
  first : ∀ earlier < path, ∀ leaf fault, p.part? earlier = some leaf → ¬ leaf.Refused fault

/-! ### Leaves -/

theorem Refused.isLeaf (h : leaf.Refused reason) : leaf.IsLeaf := by
  cases h <;> exact fun items => Param.noConfusion

/-- A leaf that cannot be written is refused for the reason that writing gives. -/
theorem IsLeaf.encode_eq_error_iff (hp : p.IsLeaf) : p.encode = .error fault ↔ p.Refused fault := by
  constructor
  · intro h
    cases p with
    | address text =>
      obtain ⟨e, he, rfl⟩ := encode_address_eq_error_iff.1 h
      exact .address he
    | publicKey text => exact .publicKey (encode_publicKey_eq_error_iff.1 h)
    | array items => exact absurd rfl (hp items)
    | _ => cases h
  · intro h
    cases h with
    | address h => exact encode_address_eq_error_iff.2 ⟨_, h, rfl⟩
    | publicKey h => exact encode_publicKey_eq_error_iff.2 h

theorem Refused.unique {fault' : Fault} (h : leaf.Refused fault) (h' : leaf.Refused fault') :
    fault = fault' := by
  have herror := h.isLeaf.encode_eq_error_iff.2 h
  have herror' := h.isLeaf.encode_eq_error_iff.2 h'
  exact Except.error.inj (herror.symm.trans herror')

theorem Refused.firstRefused (h : p.Refused reason) : p.FirstRefused [] reason where
  refused := ⟨p, rfl, h⟩
  first earlier he := absurd he (List.not_lt_nil earlier)

/-! ### The first that is refused -/

theorem FirstRefused.unique {path' : List Nat} {reason' : Fault} (h : p.FirstRefused path reason)
    (h' : p.FirstRefused path' reason') : path = path' ∧ reason = reason' := by
  obtain ⟨leaf, hleaf, hreason⟩ := h.refused
  obtain ⟨leaf', hleaf', hreason'⟩ := h'.refused
  rcases lt_trichotomy path path' with hlt | rfl | hlt
  · exact absurd hreason (h'.first path hlt leaf reason hleaf)
  · obtain rfl := Option.some.inj (hleaf.symm.trans hleaf')
    exact ⟨rfl, hreason.unique hreason'⟩
  · exact absurd hreason' (h.first path' hlt leaf' reason' hleaf')

/-- In a parameter that is written, no part is refused. -/
theorem not_refused_of_encode (h : p.encode = .ok b) (hleaf : p.part? path = some leaf) :
    ¬ leaf.Refused reason := by
  intro hreason
  induction p using induct generalizing path b with
  | leaf p hp =>
    obtain ⟨-, rfl⟩ := hp.part?_eq hleaf
    have herror := hp.encode_eq_error_iff.2 hreason
    rw [h] at herror
    cases herror
  | array items ih =>
    cases path with
    | nil =>
      obtain rfl := Option.some.inj hleaf
      exact hreason.isLeaf items rfl
    | cons i path =>
      obtain ⟨item, hitem, hpart⟩ := part?_array_cons.1 hleaf
      have hmem : item ∈ items := List.mem_of_getElem? hitem
      obtain ⟨bs, hbs, -⟩ := encode_array_eq_ok_iff.1 h
      obtain ⟨c, -, hc⟩ := exists_right_of_forall₂ hbs hmem
      exact ih item hmem hc hpart

/-- A parameter that cannot be written names the first part that is refused. -/
theorem firstRefused_of_encode (h : p.encode = .error fault) :
    ∃ path reason, p.FirstRefused path reason ∧ fault = reason.under path := by
  induction p using induct generalizing fault with
  | leaf p hp => exact ⟨[], fault, (hp.encode_eq_error_iff.1 h).firstRefused, rfl⟩
  | array items ih =>
    obtain ⟨i, item, e, hitem, he, rfl, hbefore⟩ := encode_array_eq_error_iff.1 h
    obtain ⟨path, reason, hfirst, rfl⟩ := ih item (List.mem_of_getElem? hitem) he
    refine ⟨i :: path, reason, ⟨?_, ?_⟩, rfl⟩
    · obtain ⟨leaf, hleaf, hreason⟩ := hfirst.refused
      exact ⟨leaf, part?_array_cons.2 ⟨item, hitem, hleaf⟩, hreason⟩
    · intro earlier hearlier leaf fault hleaf hrefused
      cases earlier with
      | nil =>
        obtain rfl := Option.some.inj hleaf
        exact hrefused.isLeaf items rfl
      | cons j rest =>
        obtain ⟨other, hother, hpart⟩ := part?_array_cons.1 hleaf
        -- an earlier path leads into an item in front, which is written, or stays in the same item
        rcases List.cons_lt_cons_iff.1 hearlier with hj | ⟨rfl, hrest⟩
        · obtain ⟨c, hc⟩ := hbefore j hj other hother
          exact not_refused_of_encode hc hpart hrefused
        · obtain rfl := Option.some.inj (hitem.symm.trans hother)
          exact hfirst.first rest hrest leaf fault hpart hrefused

theorem encode_eq_error_iff : p.encode = .error fault ↔
    ∃ path reason, p.FirstRefused path reason ∧ fault = reason.under path := by
  constructor
  · exact firstRefused_of_encode
  · rintro ⟨path, reason, hfirst, rfl⟩
    cases h : p.encode with
    | ok b =>
      obtain ⟨leaf, hleaf, hreason⟩ := hfirst.refused
      exact absurd hreason (not_refused_of_encode h hleaf)
    | error fault =>
      obtain ⟨path', reason', hfirst', rfl⟩ := firstRefused_of_encode h
      obtain ⟨rfl, rfl⟩ := hfirst.unique hfirst'
      rfl

/-! ### Messages -/

/-- The message of the whole is that of the part, behind the index at every array on the way. -/
theorem Fault.message_under (path : List Nat) (reason : Fault) :
    (reason.under path).message =
      String.join (path.map fun i => "element " ++ toString i ++ ": ") ++ reason.message := by
  induction path with
  | nil => rfl
  | cons i path ih =>
    rw [List.map_cons, String.join_cons, String.append_assoc, ← ih]
    rfl

/-- **Faults name the first part that is refused.** A parameter cannot be written exactly if a text of
an address or of a key somewhere inside it is refused. The fault is then that of the first such text
in the order of reading, under the indices on the path to it, and its message gives these indices,
from the outermost on, and then the message of that text alone. -/
theorem encode_names_first (p : Param) :
    ((∃ fault, p.encode = .error fault) ↔
        ∃ path leaf reason, p.part? path = some leaf ∧ leaf.Refused reason) ∧
      ∀ fault, p.encode = .error fault ↔ ∃ path reason, p.FirstRefused path reason ∧
        fault = reason.under path ∧ fault.message =
          String.join (path.map fun i => "element " ++ toString i ++ ": ") ++ reason.message := by
  constructor
  · constructor
    · rintro ⟨fault, h⟩
      obtain ⟨path, reason, hfirst, -⟩ := firstRefused_of_encode h
      obtain ⟨leaf, hleaf, hreason⟩ := hfirst.refused
      exact ⟨path, leaf, reason, hleaf, hreason⟩
    · rintro ⟨path, leaf, reason, hleaf, hreason⟩
      cases h : p.encode with
      | ok b => exact absurd hreason (not_refused_of_encode h hleaf)
      | error fault => exact ⟨fault, rfl⟩
  · intro fault
    rw [encode_eq_error_iff]
    constructor
    · rintro ⟨path, reason, hfirst, rfl⟩
      exact ⟨path, reason, hfirst, rfl, Fault.message_under path reason⟩
    · rintro ⟨path, reason, hfirst, hfault, -⟩
      exact ⟨path, reason, hfirst, hfault⟩

/-- Of two texts that are refused, the one inside the earlier item is named. -/
example : (array [int 1, array [flag true, address "07"], publicKey "zz"]).encode =
    .error (.element 1 (.element 1 (.address (.length 1)))) := by
  rfl

end ChainGovernance.Param
