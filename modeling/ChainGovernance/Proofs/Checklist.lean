import Mathlib.Tactic
import ChainGovernance.Error

/-!
Checks that are made one after another, up to the first that fails.

A `Check` is what is asked, and the error of not finding it so. A result `Follows` a list of checks
if it is `ok` when all of them hold, and otherwise the error of the first that does not
(`FirstFault`). There is exactly one such error (`firstFault_unique`), so the list determines the
result: `Follows.eq_ok_iff` and `Follows.eq_error_iff`. Programs that check one thing after another
follow the lists of their parts, put together (`Follows.cons`, `Follows.bind`).
-/

namespace ChainGovernance

/-- What is asked, and the error if it does not hold. -/
structure Check where
  asks : Prop
  error : Error

namespace Check

/-- `e` is the error of the first of some checks that fails. -/
def FirstFault (checks : List Check) (e : Error) : Prop :=
  ∃ before c after, checks = before ++ c :: after ∧ (∀ d ∈ before, d.asks) ∧ ¬ c.asks ∧ c.error = e

/-- The result of making some checks in order. -/
def Follows (checks : List Check) : Except Error Unit → Prop
  | .ok () => ∀ c ∈ checks, c.asks
  | .error e => FirstFault checks e

variable {c : Check} {cs ds : List Check} {e e' : Error} {x y : Except Error Unit}

/-! ### The first fault -/

theorem not_firstFault_nil : ¬ FirstFault [] e := by
  rintro ⟨before, c, after, h, -⟩
  simp at h

theorem firstFault_cons :
    FirstFault (c :: cs) e ↔ ¬ c.asks ∧ c.error = e ∨ c.asks ∧ FirstFault cs e := by
  constructor
  · rintro ⟨before, d, after, h, hb, hd, he⟩
    cases before with
    | nil =>
      obtain ⟨rfl, rfl⟩ := List.cons.inj h
      exact .inl ⟨hd, he⟩
    | cons b before =>
      obtain ⟨rfl, rfl⟩ := List.cons.inj h
      obtain ⟨hc, hb⟩ := List.forall_mem_cons.1 hb
      exact .inr ⟨hc, before, d, after, rfl, hb, hd, he⟩
  · rintro (⟨hc, he⟩ | ⟨hc, before, d, after, rfl, hb, hd, he⟩)
    · exact ⟨[], c, cs, rfl, by simp, hc, he⟩
    · exact ⟨c :: before, d, after, rfl, List.forall_mem_cons.2 ⟨hc, hb⟩, hd, he⟩

theorem FirstFault.append (h : FirstFault cs e) : FirstFault (cs ++ ds) e := by
  obtain ⟨before, c, after, rfl, hb, hc, he⟩ := h
  exact ⟨before, c, after ++ ds, by simp, hb, hc, he⟩

theorem not_firstFault_of_all (h : ∀ c ∈ cs, c.asks) : ¬ FirstFault cs e := by
  rintro ⟨before, c, after, rfl, -, hc, -⟩
  exact hc (h c (by simp))

theorem firstFault_unique (h : FirstFault cs e) (h' : FirstFault cs e') : e = e' := by
  induction cs with
  | nil => exact absurd h not_firstFault_nil
  | cons c cs ih =>
    rcases firstFault_cons.1 h with ⟨hc, he⟩ | ⟨hc, h⟩ <;>
      rcases firstFault_cons.1 h' with ⟨hc', he'⟩ | ⟨hc', h'⟩
    · exact he.symm.trans he'
    · exact absurd hc' hc
    · exact absurd hc hc'
    · exact ih h h'

/-! ### Results that follow a list -/

theorem follows_nil : Follows [] (.ok ()) := by simp [Follows]

theorem Follows.fail (h : ¬ c.asks) : Follows (c :: cs) (.error c.error) :=
  firstFault_cons.2 (.inl ⟨h, rfl⟩)

theorem Follows.cons (h : c.asks) (hx : Follows cs x) : Follows (c :: cs) x := by
  cases x with
  | ok u => exact List.forall_mem_cons.2 ⟨h, hx⟩
  | error e => exact firstFault_cons.2 (.inr ⟨h, hx⟩)

/-- A check in front of a program. -/
theorem Follows.guard {p : Prop} [Decidable p] (hp : p ↔ ¬ c.asks) (hx : c.asks → Follows cs x) :
    Follows (c :: cs) (if p then .error c.error else x) := by
  by_cases h : c.asks
  · rw [if_neg fun hn => hp.1 hn h]
    exact .cons h (hx h)
  · rw [if_pos (hp.2 h)]
    exact .fail h

/-- The checks of two programs of which the second runs if the first succeeds. -/
theorem Follows.bind (hx : Follows cs x) (hy : Follows ds y) :
    Follows (cs ++ ds) (x >>= fun _ => y) := by
  cases x with
  | error e => exact FirstFault.append hx
  | ok u =>
    induction cs with
    | nil => exact hy
    | cons c cs ih =>
      obtain ⟨hc, hx⟩ := List.forall_mem_cons.1 hx
      exact .cons hc (ih hx)

theorem Follows.eq_ok_iff (hx : Follows cs x) : x = .ok () ↔ ∀ c ∈ cs, c.asks := by
  cases x with
  | ok u => exact ⟨fun _ => hx, fun _ => rfl⟩
  | error e => exact ⟨nofun, fun h => absurd hx (not_firstFault_of_all h)⟩

theorem Follows.eq_error_iff (hx : Follows cs x) : x = .error e ↔ FirstFault cs e := by
  cases x with
  | ok u => exact ⟨nofun, fun h => absurd h (not_firstFault_of_all hx)⟩
  | error e' =>
    constructor
    · intro h
      cases h
      exact hx
    · intro h
      rw [firstFault_unique hx h]

end Check

end ChainGovernance
