/-
Royd.Lib.Grouping — accumulating rows under their keys, one row at a time.

`groups` is the loop over the rows with a table from keys to accumulators.
`groups_grouped` says what it ends with: a key for each key of a row, once,
and under it what the rows of the key accumulate to on their own. A figure
that is additive in the rows then adds up over the groups (`sum_groups`), and what
is counted under some key is at most the sum over the keys (`countP_le_sum_keys`).
-/
import Mathlib.Algebra.BigOperators.Group.List.Basic
import Mathlib.Algebra.GroupWithZero.Nat
import Mathlib.Data.List.Induction
import Mathlib.Data.List.Nodup

namespace Grouping

variable {ρ κ A : Type*} [DecidableEq κ] (start : A) (add : A → ρ → A) (key : ρ → κ)

/-- The table with a row added under the key. -/
def put (k : κ) (row : ρ) : List (κ × A) → List (κ × A)
  | [] => [(k, add start row)]
  | (k', acc) :: rest =>
    if k' = k then (k', add acc row) :: rest else (k', acc) :: put k row rest

/-- The table after all rows. -/
def groups (rows : List ρ) : List (κ × A) :=
  rows.foldl (fun table row => put start add (key row) row table) []

variable {start add key} {k : κ} {row : ρ} {rows : List ρ} {table : List (κ × A)}

/-! ## One row -/

/-- A key that is new goes to the end. -/
theorem keys_put : (put start add k row table).map Prod.fst =
    if k ∈ table.map Prod.fst then table.map Prod.fst else table.map Prod.fst ++ [k] := by
  induction table with
  | nil => simp [put]
  | cons entry rest ih =>
    obtain ⟨k', acc⟩ := entry
    by_cases heq : k' = k
    · simp [put, heq]
    · rw [put, if_neg heq, List.map_cons, ih]
      by_cases hin : k ∈ rest.map Prod.fst
      · rw [if_pos hin, if_pos (by simp [hin])]
        rfl
      · rw [if_neg hin, if_neg (by simp [Ne.symm heq, hin])]
        rfl

/-- What stands under the keys afterwards. -/
theorem mem_put (hkeys : (table.map Prod.fst).Nodup) {entry : κ × A}
    (h : entry ∈ put start add k row table) :
    (entry.1 ≠ k ∧ entry ∈ table) ∨ (∃ acc, (k, acc) ∈ table ∧ entry = (k, add acc row)) ∨
      (k ∉ table.map Prod.fst ∧ entry = (k, add start row)) := by
  induction table with
  | nil => exact .inr (.inr ⟨List.not_mem_nil, List.mem_singleton.mp h⟩)
  | cons first rest ih =>
    obtain ⟨k', acc⟩ := first
    rw [List.map_cons, List.nodup_cons] at hkeys
    by_cases heq : k' = k
    · subst heq
      rw [put, if_pos rfl] at h
      rcases List.mem_cons.mp h with rfl | hrest
      · exact .inr (.inl ⟨acc, List.mem_cons_self, rfl⟩)
      · refine .inl ⟨fun heq => hkeys.1 ?_, List.mem_cons_of_mem _ hrest⟩
        exact List.mem_map.mpr ⟨entry, hrest, heq⟩
    · rw [put, if_neg heq] at h
      rcases List.mem_cons.mp h with rfl | hrest
      · exact .inl ⟨heq, List.mem_cons_self⟩
      · rcases ih hkeys.2 hrest with ⟨hne, hin⟩ | ⟨acc', hin, hentry⟩ | ⟨hnew, hentry⟩
        · exact .inl ⟨hne, List.mem_cons_of_mem _ hin⟩
        · exact .inr (.inl ⟨acc', List.mem_cons_of_mem _ hin, hentry⟩)
        · refine .inr (.inr ⟨?_, hentry⟩)
          rw [List.map_cons, List.mem_cons, not_or]
          exact ⟨Ne.symm heq, hnew⟩

/-! ## All rows -/

/-- The table is what the rows make of it. -/
structure Grouped (start : A) (add : A → ρ → A) (key : ρ → κ) (rows : List ρ)
    (table : List (κ × A)) : Prop where
  nodup : (table.map Prod.fst).Nodup
  keys : ∀ k, k ∈ table.map Prod.fst ↔ ∃ row ∈ rows, key row = k
  accs : ∀ entry ∈ table, entry.2 = (rows.filter (key · = entry.1)).foldl add start

theorem Grouped.put (h : Grouped start add key rows table) :
    Grouped start add key (rows ++ [row]) (put start add (key row) row table) where
  nodup := by
    rw [keys_put]
    split
    · exact h.nodup
    · rename_i hnew
      rw [List.nodup_append_comm]
      exact List.nodup_cons.mpr ⟨hnew, h.nodup⟩
  keys := by
    intro k
    have hsame : k ∈ (Grouping.put start add (key row) row table).map Prod.fst ↔
        k ∈ table.map Prod.fst ∨ k = key row := by
      rw [keys_put]
      split
      · rename_i hin
        constructor
        · exact .inl
        · rintro (hk | rfl)
          · exact hk
          · exact hin
      · rw [List.mem_append, List.mem_singleton]
    rw [hsame, h.keys]
    simp only [List.mem_append, List.mem_singleton, or_and_right, exists_or, exists_eq_left]
    exact or_congr Iff.rfl eq_comm
  accs := by
    intro entry hentry
    rw [List.filter_append, List.foldl_append]
    rcases mem_put h.nodup hentry with ⟨hne, hin⟩ | ⟨acc, hin, rfl⟩ | ⟨hnew, rfl⟩
    · simp [h.accs entry hin, Ne.symm hne]
    · have hacc := h.accs _ hin
      dsimp only at hacc ⊢
      simp [hacc]
    · have hnone : rows.filter (key · = key row) = [] := by
        rw [List.filter_eq_nil_iff]
        intro r hr hkey
        exact hnew ((h.keys _).mpr ⟨r, hr, of_decide_eq_true hkey⟩)
      simp [hnone]

theorem groups_grouped (rows : List ρ) : Grouped start add key rows (groups start add key rows) := by
  induction rows using List.reverseRecOn with
  | nil => exact ⟨List.nodup_nil, by simp [groups], by simp [groups]⟩
  | append_singleton rows row ih =>
    rw [groups, List.foldl_append]
    exact ih.put

/-- Under each key of a row there is one accumulator. -/
theorem Grouped.existsUnique (h : Grouped start add key rows table) (hrow : row ∈ rows) :
    ∃! entry, entry ∈ table ∧ entry.1 = key row := by
  obtain ⟨entry, hentry, hkey⟩ := List.mem_map.mp ((h.keys _).mpr ⟨row, hrow, rfl⟩)
  refine ⟨entry, ⟨hentry, hkey⟩, ?_⟩
  rintro other ⟨hother, hsame⟩
  exact List.inj_on_of_nodup_map h.nodup hother hentry (hsame.trans hkey.symm)

/-! ## Additive figures -/

section Figures

variable {M : Type*} [AddCommMonoid M] {figure : A → M} {part : ρ → M}

theorem foldl_figure (hadd : ∀ acc row, figure (add acc row) = figure acc + part row)
    (rows : List ρ) (acc : A) : figure (rows.foldl add acc) = figure acc + (rows.map part).sum := by
  induction rows generalizing acc with
  | nil => simp
  | cons row rows ih => rw [List.foldl_cons, ih, hadd, List.map_cons, List.sum_cons, add_assoc]

theorem sum_put (hstart : figure start = 0)
    (hadd : ∀ acc row, figure (add acc row) = figure acc + part row) :
    ((put start add k row table).map fun entry => figure entry.2).sum =
      (table.map fun entry => figure entry.2).sum + part row := by
  induction table with
  | nil => simp [put, hadd, hstart]
  | cons entry rest ih =>
    obtain ⟨k', acc⟩ := entry
    by_cases heq : k' = k
    · simp only [put, if_pos heq, List.map_cons, List.sum_cons, hadd]
      exact add_right_comm _ _ _
    · simp only [put, if_neg heq, List.map_cons, List.sum_cons, ih, add_assoc]

/-- The figures of the groups add up to those of all rows. -/
theorem sum_groups (hstart : figure start = 0)
    (hadd : ∀ acc row, figure (add acc row) = figure acc + part row) (rows : List ρ) :
    ((groups start add key rows).map fun entry => figure entry.2).sum =
      figure (rows.foldl add start) := by
  rw [foldl_figure hadd, hstart, zero_add]
  induction rows using List.reverseRecOn with
  | nil => rfl
  | append_singleton rows row ih =>
    rw [groups, List.foldl_append, List.foldl_cons, List.foldl_nil, sum_put hstart hadd,
      List.map_append, List.sum_append, List.map_singleton, List.sum_singleton, ← ih]
    rfl

end Figures

/-! ## Counting by keys -/

/-- What is counted under one of the keys of the rows is counted under each of them. -/
theorem countP_le_sum_keys {α β : Type*} (key : α → κ) {f : β → κ} {rows : List α}
    {p : β → Bool} : ∀ {xs : List β}, (∀ x ∈ xs, p x = true → ∃ r ∈ rows, key r = f x) →
      xs.countP p ≤ (rows.map fun r => xs.countP fun x => f x == key r).sum
  | [], _ => Nat.zero_le _
  | x :: xs, h => by
    have hrest := countP_le_sum_keys key fun y hy => h y (List.mem_cons_of_mem x hy)
    simp only [List.countP_cons, List.sum_map_add]
    refine Nat.add_le_add hrest ?_
    split
    · rename_i hx
      obtain ⟨r, hr, hkey⟩ := h x List.mem_cons_self hx
      refine List.sum_pos_iff_exists_pos_nat.mpr ⟨1, List.mem_map.mpr ⟨r, hr, ?_⟩, Nat.one_pos⟩
      rw [if_pos (by simp [hkey])]
    · exact Nat.zero_le _

end Grouping
