/-
Royd.Lib.Buckets — a limit on how often each key may be counted.

A call counts its key and passes if the count is within the limit, counted or not
it stays counted (`passed`). So of the calls under one key the first pass, as many
as there is room for, and of all calls as many as the keys have room for together
(`passed_eq_sum`). From empty counters that is within the limit of one key only if
the calls use one key, or are too few to exceed it (`passed_le_iff`).
-/
import Mathlib

namespace Buckets

open Finset

variable {κ : Type} [DecidableEq κ] {limit : ℕ} {c : κ → ℕ} {k : κ} {ks : List κ}

/-- The counters after a call. -/
def count (c : κ → ℕ) (k : κ) : κ → ℕ := Function.update c k (c k + 1)

/-- How many of the calls pass. -/
def passed (limit : ℕ) (c : κ → ℕ) : List κ → ℕ
  | [] => 0
  | k :: ks => (if c k + 1 ≤ limit then 1 else 0) + passed limit (count c k) ks

/-- What the calls under a key have room for. -/
def admitted (limit : ℕ) (c : κ → ℕ) (ks : List κ) (k : κ) : ℕ := min (ks.count k) (limit - c k)

/-- A call takes the room of its own key. -/
theorem admitted_cons_self :
    admitted limit c (k :: ks) k =
      (if c k + 1 ≤ limit then 1 else 0) + admitted limit (count c k) ks k := by
  unfold admitted count
  rw [List.count_cons_self, Function.update_self]
  split
  · omega
  · omega

/-- And of no other. -/
theorem admitted_cons_of_ne {k' : κ} (h : k' ≠ k) :
    admitted limit c (k :: ks) k' = admitted limit (count c k) ks k' := by
  unfold admitted count
  rw [List.count_cons_of_ne h.symm, Function.update_of_ne h]

theorem passed_eq_sum_of_subset {s : Finset κ} (h : ∀ k ∈ ks, k ∈ s) :
    passed limit c ks = ∑ k ∈ s, admitted limit c ks k := by
  induction ks generalizing c with
  | nil => simp [passed, admitted]
  | cons k ks ih =>
    obtain ⟨hk, hks⟩ := List.forall_mem_cons.mp h
    have hrest : ∑ k' ∈ s.erase k, admitted limit c (k :: ks) k' =
        ∑ k' ∈ s.erase k, admitted limit (count c k) ks k' :=
      sum_congr rfl fun k' hk' => admitted_cons_of_ne (ne_of_mem_erase hk')
    rw [passed, ih hks, ← add_sum_erase s _ hk, ← add_sum_erase s _ hk, admitted_cons_self, hrest,
      add_assoc]

/-- As many calls pass as their keys have room for together. -/
theorem passed_eq_sum (limit : ℕ) (c : κ → ℕ) (ks : List κ) :
    passed limit c ks = ∑ k ∈ ks.toFinset, admitted limit c ks k :=
  passed_eq_sum_of_subset fun _ hk => List.mem_toFinset.mpr hk

/-- All calls under one key pass only up to the limit. -/
theorem passed_le_of_one (h : ∀ k ∈ ks, ∀ k' ∈ ks, k = k') : passed limit c ks ≤ limit := by
  cases ks with
  | nil => exact Nat.zero_le _
  | cons k ks =>
    have hone : ∀ k' ∈ k :: ks, k' ∈ ({k} : Finset κ) :=
      fun k' hk' => mem_singleton.mpr (h k' hk' k List.mem_cons_self)
    rw [passed_eq_sum_of_subset hone, sum_singleton]
    exact (min_le_right _ _).trans (Nat.sub_le _ _)

theorem passed_le_length : passed limit c ks ≤ ks.length := by
  rw [passed_eq_sum, ← List.sum_toFinset_count_eq_length]
  exact sum_le_sum fun k _ => min_le_left _ _

/-- From empty counters. -/
theorem passed_le_iff (hempty : ∀ k ∈ ks, c k = 0) :
    passed limit c ks ≤ limit ↔
      limit = 0 ∨ (∀ k ∈ ks, ∀ k' ∈ ks, k = k') ∨ ks.length ≤ limit := by
  constructor
  · intro hle
    by_contra hnot
    push Not at hnot
    obtain ⟨hlimit, ⟨k, hk, k', hk', hne⟩, hlength⟩ := hnot
    rw [passed_eq_sum] at hle
    have hroom : ∀ j ∈ ks, admitted limit c ks j = min (ks.count j) limit := by
      intro j hj
      rw [admitted, hempty j hj, Nat.sub_zero]
    have hone : ∀ j ∈ ks, 1 ≤ admitted limit c ks j := by
      intro j hj
      rw [hroom j hj]
      exact le_min (List.one_le_count_iff.mpr hj) (Nat.one_le_iff_ne_zero.mpr hlimit)
    -- A key that is used up leaves no room for another.
    have hbelow : ∀ j ∈ ks, ks.count j < limit := by
      intro j hj
      by_contra hfull
      obtain ⟨j', hj', hne'⟩ : ∃ j' ∈ ks, j' ≠ j := by
        by_cases hkj : k = j
        · exact ⟨k', hk', fun heq => hne (hkj.trans heq.symm)⟩
        · exact ⟨k, hk, hkj⟩
      have hpair : admitted limit c ks j + admitted limit c ks j' ≤
          ∑ k ∈ ks.toFinset, admitted limit c ks k := by
        have hmem : j ∈ ks.toFinset := List.mem_toFinset.mpr hj
        have hmem' : j' ∈ ks.toFinset.erase j :=
          mem_erase.mpr ⟨hne', List.mem_toFinset.mpr hj'⟩
        rw [← add_sum_erase _ _ hmem]
        exact Nat.add_le_add_left (single_le_sum (fun _ _ => Nat.zero_le _) hmem') _
      have hj1 := hone j' hj'
      rw [hroom j hj, min_eq_right (Nat.le_of_not_lt hfull)] at hpair
      omega
    have hall : ∑ k ∈ ks.toFinset, admitted limit c ks k = ks.length := by
      rw [← List.sum_toFinset_count_eq_length]
      apply sum_congr rfl
      intro j hj
      have hmem := List.mem_toFinset.mp hj
      rw [hroom j hmem, min_eq_left (hbelow j hmem).le]
    omega
  · rintro (rfl | hone | hlength)
    · rw [passed_eq_sum]
      refine (sum_eq_zero ?_).le
      intro j _
      rw [admitted, Nat.zero_sub, Nat.min_zero]
    · exact passed_le_of_one hone
    · exact passed_le_length.trans hlength

end Buckets
