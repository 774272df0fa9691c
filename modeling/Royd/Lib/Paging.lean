/-
Royd.Lib.Paging — lists read page by page, by limit and offset, while they
grow.

A row of a list keeps its place or moves back when rows are added anywhere
(`place_le`), so it cannot slip from a page that is still to be read to one
that has been (`walk_finds`).
-/
import Mathlib.Data.List.Nodup

namespace Paging

universe u

variable {α : Type u}

/-- The `k`-th page of a list. -/
def page (limit k : ℕ) (rows : List α) : List α := (rows.drop (k * limit)).take limit

/-- The rows of a page are those whose place is in its window. -/
theorem mem_page {limit k : ℕ} {rows : List α} {x : α} :
    x ∈ page limit k rows ↔ ∃ i, k * limit ≤ i ∧ i < (k + 1) * limit ∧ rows[i]? = some x := by
  unfold page
  rw [List.mem_iff_getElem?]
  constructor
  · rintro ⟨i, hi⟩
    rw [List.getElem?_take] at hi
    split at hi
    · rename_i hlt
      rw [List.getElem?_drop] at hi
      refine ⟨k * limit + i, Nat.le_add_right _ _, ?_, hi⟩
      rw [Nat.succ_mul]
      omega
    · cases hi
  · rintro ⟨i, hle, hlt, hi⟩
    rw [Nat.succ_mul] at hlt
    refine ⟨i - k * limit, ?_⟩
    rw [List.getElem?_take, if_pos (by omega), List.getElem?_drop, Nat.add_sub_cancel' hle]
    exact hi

/-- Among more rows, a row comes no earlier. -/
theorem place_le {l m : List α} (h : l.Sublist m) (hm : m.Nodup) {x : α} {i j : ℕ}
    (hi : l[i]? = some x) (hj : m[j]? = some x) : i ≤ j := by
  induction h generalizing i j with
  | slnil => cases hi
  | cons a hsub ih =>
    rw [List.nodup_cons] at hm
    cases j with
    | zero =>
      cases hj
      exact absurd (hsub.subset (List.mem_of_getElem? hi)) hm.1
    | succ j => exact Nat.le_succ_of_le (ih hm.2 hi (by simpa using hj))
  | cons_cons a hsub ih =>
    rw [List.nodup_cons] at hm
    cases i with
    | zero => exact Nat.zero_le _
    | succ i =>
      have hi' := (List.getElem?_cons_succ).symm.trans hi
      cases j with
      | zero =>
        cases hj
        exact absurd (hsub.subset (List.mem_of_getElem? hi')) hm.1
      | succ j => exact Nat.succ_le_succ (ih hm.2 hi' (by simpa using hj))

/-- A client reads the pages of a list one after the other, and rows may be
added anywhere in between. If the last page it reads reaches the end of the
list, it has seen every row that was there at first. -/
theorem walk_finds {limit n : ℕ} {rows : ℕ → List α} (hnodup : ∀ k ≤ n, (rows k).Nodup)
    (hgrows : ∀ k < n, (rows k).Sublist (rows (k + 1)))
    (hend : (rows n).length ≤ (n + 1) * limit) {x : α} (hx : x ∈ rows 0) :
    ∃ k ≤ n, x ∈ page limit k (rows k) := by
  have hmem : ∀ k ≤ n, x ∈ rows k := by
    intro k
    induction k with
    | zero => exact fun _ => hx
    | succ k ih => exact fun hk => (hgrows k hk).subset (ih (Nat.le_of_succ_le hk))
  -- Until it is found, the row is on a page that is still to be read.
  have hahead : ∀ k ≤ n, (∃ j ≤ n, x ∈ page limit j (rows j)) ∨
      ∃ i, (k + 1) * limit ≤ i ∧ (rows k)[i]? = some x := by
    intro k
    induction k with
    | zero =>
      intro _
      obtain ⟨i, hi⟩ := List.mem_iff_getElem?.mp hx
      by_cases hlt : i < (0 + 1) * limit
      · exact .inl ⟨0, Nat.zero_le n, mem_page.mpr ⟨i, by simp, hlt, hi⟩⟩
      · exact .inr ⟨i, Nat.le_of_not_lt hlt, hi⟩
    | succ k ih =>
      intro hk
      rcases ih (Nat.le_of_succ_le hk) with hfound | ⟨i, hle, hi⟩
      · exact .inl hfound
      · obtain ⟨j, hj⟩ := List.mem_iff_getElem?.mp (hmem (k + 1) hk)
        have hij := place_le (hgrows k hk) (hnodup (k + 1) hk) hi hj
        by_cases hlt : j < (k + 1 + 1) * limit
        · exact .inl ⟨k + 1, hk, mem_page.mpr ⟨j, Nat.le_trans hle hij, hlt, hj⟩⟩
        · exact .inr ⟨j, Nat.le_of_not_lt hlt, hj⟩
  rcases hahead n (Nat.le_refl n) with hfound | ⟨i, hle, hi⟩
  · exact hfound
  · have hlt := (List.getElem?_eq_some_iff.mp hi).1
    exact absurd (Nat.lt_of_lt_of_le hlt hend) (Nat.not_lt.mpr hle)

end Paging
