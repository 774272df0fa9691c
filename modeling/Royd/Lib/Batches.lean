/-
Royd.Lib.Batches — working off a backlog in batches.

A batch is the first `k` items of the backlog in an order that `r` allows; of
items `r` does not tell apart, any may come first. If a pass takes exactly its
batch out of the backlog, then the batches of a run and what is left of the
backlog are the backlog it began with, each item once (`flatten_perm`), and
after enough passes nothing is left (`drained`).
-/
import Royd.Lib.Runs
import Mathlib.Data.List.Sort

namespace Batches

open Runs

variable {α : Type*} {r : α → α → Prop} {k : ℕ} {items batch : List α}

/-- The first `k` of the items in an order `r` allows. -/
def IsBatch (r : α → α → Prop) (k : ℕ) (items batch : List α) : Prop :=
  ∃ sorted : List α, sorted.Perm items ∧ sorted.Pairwise r ∧ batch = sorted.take k

namespace IsBatch

theorem length (h : IsBatch r k items batch) : batch.length = min k items.length := by
  obtain ⟨sorted, hperm, -, rfl⟩ := h
  rw [List.length_take, hperm.length_eq]

theorem subset (h : IsBatch r k items batch) : ∀ a ∈ batch, a ∈ items := by
  obtain ⟨sorted, hperm, -, rfl⟩ := h
  intro a ha
  exact hperm.mem_iff.mp (List.mem_of_mem_take ha)

theorem ordered (h : IsBatch r k items batch) : batch.Pairwise r := by
  obtain ⟨sorted, -, hsorted, rfl⟩ := h
  exact hsorted.sublist (List.take_sublist _ _)

/-- Distinct keys stay distinct. -/
theorem nodup_map {κ : Type*} {key : α → κ} (h : IsBatch r k items batch)
    (hitems : (items.map key).Nodup) : (batch.map key).Nodup := by
  obtain ⟨sorted, hperm, -, rfl⟩ := h
  exact ((hperm.map key).nodup_iff.mpr hitems).sublist ((List.take_sublist _ _).map key)

/-- Nothing left behind had to come first. -/
theorem first (h : IsBatch r k items batch) {a b : α} (ha : a ∈ batch) (hb : b ∈ items)
    (hleft : b ∉ batch) : r a b := by
  obtain ⟨sorted, hperm, hsorted, rfl⟩ := h
  have hin : b ∈ sorted.take k ++ sorted.drop k := by
    rw [List.take_append_drop]
    exact hperm.mem_iff.mpr hb
  rw [← List.take_append_drop k sorted, List.pairwise_append] at hsorted
  rcases List.mem_append.mp hin with htake | hdrop
  · exact absurd htake hleft
  · exact hsorted.2.2 a ha b hdrop

/-- The batch and the rest are all of the items. -/
theorem perm [DecidableEq α] (h : IsBatch r k items batch) (hitems : items.Nodup) :
    (batch ++ items.filter (· ∉ batch)).Perm items := by
  obtain ⟨sorted, hperm, -, rfl⟩ := h
  have hsorted : (sorted.take k ++ sorted.drop k).Nodup := by
    rw [List.take_append_drop]
    exact hperm.nodup_iff.mpr hitems
  obtain ⟨-, -, hapart⟩ := List.nodup_append.mp hsorted
  have hrest : sorted.filter (· ∉ sorted.take k) = sorted.drop k := by
    conv_lhs => enter [2]; rw [← List.take_append_drop k sorted]
    rw [List.filter_append, List.filter_eq_nil_iff.mpr (by simp), List.nil_append,
      List.filter_eq_self]
    intro b hb
    simpa using fun hin : b ∈ sorted.take k => hapart b hin b hb rfl
  have hfilter := hperm.symm.filter (· ∉ sorted.take k)
  rw [hrest] at hfilter
  refine (hfilter.append_left _).trans ?_
  rw [List.take_append_drop]
  exact hperm

end IsBatch

/-- Sorting gives one of the orders. -/
theorem isBatch_mergeSort {β : Type*} [LinearOrder β] {key : α → β} (k : ℕ) (items : List α) :
    IsBatch (fun a b => key a ≤ key b) k items
      ((items.mergeSort fun a b => decide (key a ≤ key b)).take k) := by
  refine ⟨_, List.mergeSort_perm _ _, ?_, rfl⟩
  have htrans : ∀ a b c, decide (key a ≤ key b) = true → decide (key b ≤ key c) = true →
      decide (key a ≤ key c) = true := by
    intro a b c hab hbc
    rw [decide_eq_true_iff] at hab hbc ⊢
    exact hab.trans hbc
  have htotal : ∀ a b, (decide (key a ≤ key b) || decide (key b ≤ key a)) = true := by
    intro a b
    rw [Bool.or_eq_true, decide_eq_true_iff, decide_eq_true_iff]
    exact le_total _ _
  simpa using List.pairwise_mergeSort htrans htotal items

/-! ## Runs -/

section Runs

variable [DecidableEq α] {σ : Type*} {pending : σ → List α} {handle : σ → List α → σ} {I : σ → Prop}

variable (hnodup : ∀ s, I s → (pending s).Nodup)
  (hstep : ∀ s batch, I s → IsBatch r k (pending s) batch →
    I (handle s batch) ∧ pending (handle s batch) = (pending s).filter (· ∉ batch))

include hnodup hstep

/-- Every item of the backlog is in one batch, once, or is still there. -/
theorem flatten_perm {s : σ} (hs : I s) {batches : List (List α)}
    (h : Along handle (fun s batch => IsBatch r k (pending s) batch) s batches) :
    (batches.flatten ++ pending (run handle s batches)).Perm (pending s) := by
  induction batches generalizing s with
  | nil => exact List.Perm.refl _
  | cons batch rest ih =>
    obtain ⟨hbatch, hrest⟩ := h
    obtain ⟨hnext, hleft⟩ := hstep s batch hs hbatch
    rw [run_cons, List.flatten_cons, List.append_assoc]
    refine ((ih hnext hrest).append_left batch).trans ?_
    rw [hleft]
    exact hbatch.perm (hnodup s hs)

/-- What is left gets shorter by a batch each time. -/
theorem length_pending {s : σ} (hs : I s) {batches : List (List α)}
    (h : Along handle (fun s batch => IsBatch r k (pending s) batch) s batches) :
    (pending (run handle s batches)).length = (pending s).length - batches.length * k := by
  induction batches generalizing s with
  | nil => simp
  | cons batch rest ih =>
    obtain ⟨hbatch, hrest⟩ := h
    obtain ⟨hnext, hleft⟩ := hstep s batch hs hbatch
    have hsplit := (hbatch.perm (hnodup s hs)).length_eq
    rw [List.length_append, hbatch.length, ← hleft] at hsplit
    rw [run_cons, ih hnext hrest, List.length_cons, Nat.add_mul, Nat.one_mul]
    omega

/-- After as many passes as there are full batches, and one more for what is
over, the backlog is empty. -/
theorem drained {s : σ} (hs : I s) {batches : List (List α)}
    (h : Along handle (fun s batch => IsBatch r k (pending s) batch) s batches)
    (henough : (pending s).length ≤ batches.length * k) : pending (run handle s batches) = [] := by
  rw [← List.length_eq_zero_iff, length_pending hnodup hstep hs h]
  omega

end Runs

end Batches
