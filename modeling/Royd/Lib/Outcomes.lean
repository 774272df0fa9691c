/-
Royd.Lib.Outcomes — two computations that may raise, side by side.

`Outcomes R x y` says that `x` and `y` raise the same exception, or both
return and `R` relates what they return. The rules follow the shape of a
`do` block: two blocks are related when their lines are, one by one.
-/
import Mathlib.Tactic.Common

namespace Royd

/-- Both raise the same, or both return related values. -/
inductive Outcomes {ε α β : Type} (R : α → β → Prop) : Except ε α → Except ε β → Prop
  | ok {a : α} {b : β} (related : R a b) : Outcomes R (.ok a) (.ok b)
  | error (e : ε) : Outcomes R (.error e) (.error e)

namespace Outcomes

variable {ε α β γ δ : Type} {R : α → β → Prop} {S : γ → δ → Prop}

theorem same {R : α → α → Prop} (h : ∀ a, R a a) (x : Except ε α) : Outcomes R x x := by
  cases x with
  | error e => exact .error e
  | ok a => exact .ok (h a)

theorem mono {R' : α → β → Prop} {x : Except ε α} {y : Except ε β} (h : Outcomes R x y)
    (himp : ∀ a b, R a b → R' a b) : Outcomes R' x y := by
  cases h with
  | ok related => exact .ok (himp _ _ related)
  | error e => exact .error e

/-- The next line of two blocks whose first lines are related. -/
theorem bind {x : Except ε α} {y : Except ε β} {f : α → Except ε γ} {g : β → Except ε δ}
    (h : Outcomes R x y) (hnext : ∀ a b, R a b → Outcomes S (f a) (g b)) :
    Outcomes S (x >>= f) (y >>= g) := by
  cases h with
  | ok related => exact hnext _ _ related
  | error e => exact .error e

/-- The next line of two blocks that begin with the same one. -/
theorem check (x : Except ε α) {f : α → Except ε γ} {g : α → Except ε δ}
    (hnext : ∀ a, Outcomes S (f a) (g a)) : Outcomes S (x >>= f) (x >>= g) := by
  cases x with
  | error e => exact .error e
  | ok a => exact hnext a

/-- Two loops over the same list. -/
theorem foldlM {ι : Type} {f : α → ι → Except ε α} {g : β → ι → Except ε β}
    (hbody : ∀ a b i, R a b → Outcomes R (f a i) (g b i)) (is : List ι) {a : α} {b : β}
    (h : R a b) : Outcomes R (is.foldlM f a) (is.foldlM g b) := by
  induction is generalizing a b with
  | nil => exact .ok h
  | cons i is ih =>
    rw [List.foldlM_cons, List.foldlM_cons]
    exact (hbody a b i h).bind fun a' b' h' => ih h'

/-- What is returned, with where it came from. -/
theorem attach {x : Except ε α} {y : Except ε β} (h : Outcomes R x y) :
    Outcomes (fun a b => x = .ok a ∧ y = .ok b ∧ R a b) x y := by
  cases h with
  | ok related => exact .ok ⟨rfl, rfl, related⟩
  | error e => exact .error e

/-- Related blocks return together. -/
theorem ok_left {x : Except ε α} {y : Except ε β} {a : α} (h : Outcomes R x y) (hx : x = .ok a) :
    ∃ b, y = .ok b ∧ R a b := by
  subst hx
  cases h with
  | ok related => exact ⟨_, rfl, related⟩

/-- Related blocks raise together. -/
theorem error_left {x : Except ε α} {y : Except ε β} {e : ε} (h : Outcomes R x y)
    (hx : x = .error e) : y = .error e := by
  subst hx
  cases h with
  | error => rfl

/-- Blocks are related through a function of what they return exactly if
they agree on it. -/
theorem map_eq_iff {f : α → γ} {g : β → γ} {x : Except ε α} {y : Except ε β} :
    x.map f = y.map g ↔ Outcomes (fun a b => f a = g b) x y := by
  constructor
  · intro h
    cases x with
    | error e =>
      cases y with
      | error e' =>
        cases h
        exact .error e
      | ok b => cases h
    | ok a =>
      cases y with
      | error e => cases h
      | ok b => exact .ok (Except.ok.inj h)
  · intro h
    cases h with
    | ok related => exact congrArg Except.ok related
    | error e => rfl

/-- One block returns what the other does, put through a function. -/
theorem eq_map_iff {g : β → α} {x : Except ε α} {y : Except ε β} :
    x = y.map g ↔ Outcomes (fun a b => a = g b) x y := by
  rw [← map_eq_iff]
  cases x <;> rfl

/-- Two blocks wrapped the same way, one of them put through a function. -/
theorem map_eq_map {f : α → γ} {F : γ → γ} {x y : Except ε α}
    (h : Outcomes (fun a b => f a = F (f b)) x y) : x.map f = (y.map f).map F := by
  cases h with
  | ok related => exact congrArg Except.ok related
  | error e => rfl

theorem eq_of {x y : Except ε α} (h : Outcomes (· = ·) x y) : x = y := by
  cases h with
  | ok related => rw [related]
  | error e => rfl

end Outcomes

end Royd
