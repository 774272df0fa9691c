/-
Royd.Lib.Columns — the columns of a row as a function to nullable values,
and what a migration does with them: copy some to another row, drop some,
write some back.

`assign_project_drop` is the round trip: it gives back every value exactly
if what was dropped and not copied was null.
-/
import Mathlib.Logic.Function.Basic

namespace Columns

universe u v

variable {C : Type u} {V : Type v} [DecidableEq C]

/-- A copy of some columns; the others are null. -/
def project (cs : List C) (cells : C → Option V) : C → Option V :=
  fun c => if c ∈ cs then cells c else none

/-- A row without the values of a column. -/
def clear (cells : C → Option V) (c : C) : C → Option V := Function.update cells c none

/-- `SET c = source.c` for some columns. -/
def assign (cs : List C) (source cells : C → Option V) : C → Option V :=
  fun c => if c ∈ cs then source c else cells c

theorem clear_all (cells : C → Option V) (ds : List C) (c : C) :
    ds.foldl clear cells c = if c ∈ ds then none else cells c := by
  induction ds generalizing cells with
  | nil => simp
  | cons d ds ih =>
    rw [List.foldl_cons, ih]
    by_cases hd : c = d
    · simp [hd, clear]
    · simp [hd, clear]

/-- Clearing what is cleared already changes nothing. -/
theorem clear_all_twice (cells : C → Option V) {ds es : List C} (h : ∀ e ∈ es, e ∈ ds) :
    es.foldl clear (ds.foldl clear cells) = ds.foldl clear cells := by
  funext c
  rw [clear_all, clear_all]
  by_cases hc : c ∈ es
  · rw [if_pos hc, if_pos (h c hc)]
  · rw [if_neg hc]

/-- A copy written back over what was dropped. -/
theorem assign_project_drop (cells : C → Option V) (cs ds : List C) :
    assign cs (project cs cells) (ds.foldl clear cells) = cells ↔
      ∀ c ∈ ds, c ∉ cs → cells c = none := by
  constructor
  · intro h c hd hc
    have hcell := congrFun h c
    rw [assign, if_neg hc, clear_all, if_pos hd] at hcell
    exact hcell.symm
  · intro h
    funext c
    by_cases hc : c ∈ cs
    · rw [assign, if_pos hc, project, if_pos hc]
    · rw [assign, if_neg hc, clear_all]
      split
      · rename_i hd
        exact (h c hd hc).symm
      · rfl

end Columns
