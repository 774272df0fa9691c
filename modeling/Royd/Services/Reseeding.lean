/-
Royd.Services.Reseeding — what a call that finds the counter cold goes on
from.

The highest number is looked up as a text. The sequence part is printed with
at least five digits, so from 100000 on texts of different lengths are
compared, and the greatest text need not have the greatest number: a reseeded
counter may hand out a number that is stored. `reseed_continues_iff` says for
which columns it does not.
-/
import Royd.Services.TrackingNo

namespace Royd.Tracking

open Programs Numerals

variable {year : Nat}

/-! ## The column -/

/-- The numbers of the year were produced by `generate_tracking_no`. -/
def Produced (year : Nat) (committed : List String) : Prop :=
  ∀ no ∈ committed, like year no = true → ∃ seq, no = trackingNo year seq

/-- The largest sequence part of the year, zero if there is none. -/
def largest (year : Nat) (committed : List String) : Nat :=
  (numbers year committed).max?.getD 0

/-- No number of the year is above the leading digits of the largest one, of
which as many are taken as it has digits itself. -/
def InTextOrder (year : Nat) (committed : List String) : Prop :=
  ∀ seq ∈ numbers year committed,
    seq ≤ leading 5 (padded 5 seq).length (largest year committed)

instance (year : Nat) (committed : List String) : Decidable (InTextOrder year committed) :=
  inferInstanceAs (Decidable (∀ seq ∈ numbers year committed, _))

/-- A call returns the number after the largest one, which is not stored and
is read back as what it was printed from. -/
def Continues (year : Nat) (s : Registry) : Prop :=
  ∃ s', (generateTrackingNo year).run exec s =
      (.ok (trackingNo year (largest year s.committed + 1)), s') ∧
    trackingNo year (largest year s.committed + 1) ∉ s.committed ∧
    number? (trackingNo year (largest year s.committed + 1)) =
      some (largest year s.committed + 1)

theorem largest_eq_zero {committed : List String} (h : numbers year committed = []) :
    largest year committed = 0 := by
  rw [largest, h]
  rfl

theorem largest_spec {committed : List String} (h : numbers year committed ≠ []) :
    largest year committed ∈ numbers year committed ∧
      ∀ seq ∈ numbers year committed, seq ≤ largest year committed := by
  unfold largest
  cases hmax : (numbers year committed).max? with
  | none => exact absurd (List.max?_eq_none_iff.mp hmax) h
  | some m => exact List.max?_eq_some_iff.mp hmax

theorem le_largest {committed : List String} {seq : Nat} (h : seq ∈ numbers year committed) :
    seq ≤ largest year committed :=
  (largest_spec (List.ne_nil_of_mem h)).2 seq h

/-! ## The order of the texts -/

theorem append_lt_append_iff {l xs ys : List Char} : l ++ xs < l ++ ys ↔ xs < ys := by
  induction l with
  | nil => exact Iff.rfl
  | cons c l ih => simp [ih]

/-- The texts of a year are ordered as what follows the stem. -/
theorem trackingNo_le_iff {a b : Nat} :
    trackingNo year a ≤ trackingNo year b ↔ padded 5 a ≤ padded 5 b := by
  rw [← not_lt, ← not_lt, String.lt_iff_toList_lt, toList_trackingNo, toList_trackingNo,
    append_lt_append_iff]

/-- On a column the code has written, the query finds the text of a stored
number that no other stored number's text comes after. -/
theorem highest_produced {committed : List String} (hproduced : Produced year committed)
    {seq : Nat} : highest year committed = some (trackingNo year seq) ↔
      seq ∈ numbers year committed ∧ ∀ seq' ∈ numbers year committed, padded 5 seq' ≤ padded 5 seq := by
  unfold highest
  rw [List.max?_eq_some_iff]
  constructor
  · rintro ⟨hno, hgreatest⟩
    refine ⟨mem_numbers_of_mem (List.mem_filter.mp hno).1, fun seq' hseq' => ?_⟩
    obtain ⟨no, hin, hlike, hnumber⟩ := mem_numbers.mp hseq'
    obtain ⟨n, rfl⟩ := hproduced no hin hlike
    rw [number?_trackingNo, Option.some.injEq] at hnumber
    rw [← hnumber]
    exact trackingNo_le_iff.mp (hgreatest _ (List.mem_filter.mpr ⟨hin, hlike⟩))
  · rintro ⟨hseq, hgreatest⟩
    constructor
    · obtain ⟨no, hin, hlike, hnumber⟩ := mem_numbers.mp hseq
      obtain ⟨n, rfl⟩ := hproduced no hin hlike
      rw [number?_trackingNo, Option.some.injEq] at hnumber
      rw [← hnumber]
      exact List.mem_filter.mpr ⟨hin, hlike⟩
    · intro no hno
      obtain ⟨hin, hlike⟩ := List.mem_filter.mp hno
      obtain ⟨n, rfl⟩ := hproduced no hin hlike
      exact trackingNo_le_iff.mpr (hgreatest n (mem_numbers_of_mem hin))

/-- The text of the largest number comes last exactly on a column in text
order. -/
theorem highest_eq_largest_iff {committed : List String} (hproduced : Produced year committed)
    (hsome : numbers year committed ≠ []) :
    highest year committed = some (trackingNo year (largest year committed)) ↔
      InTextOrder year committed := by
  rw [highest_produced hproduced, and_iff_right (largest_spec hsome).1]
  refine forall₂_congr fun seq hseq => ?_
  exact padded_le_iff (length_padded_mono 5 (le_largest hseq))

/-- As long as no number has more than five digits. -/
theorem inTextOrder_of_lt {committed : List String} (h : largest year committed < 10 ^ 5) :
    InTextOrder year committed := by
  intro seq hseq
  have hle := le_largest hseq
  have hlen := length_padded_eq (by decide) (Nat.lt_of_le_of_lt hle h)
  rw [leading, hlen, length_padded_eq (by decide) h, Nat.sub_self, Nat.pow_zero, Nat.div_one]
  exact hle

/-! ## The call -/

/-- A call that finds the counter cold returns the number after the one the
query found. -/
theorem run_cold {s : Registry} (hcold : s.counter = none) (hup : s.up = true) :
    ∃ s', (generateTrackingNo year).run exec s =
      (.ok (trackingNo year ((recovered (highest year s.committed)).getD 0 + 1)), s') := by
  obtain ⟨counter, committed, up⟩ := s
  dsimp only at hcold hup
  subst hcold hup
  show ∃ s', (reseed (highest year committed) >>= fun seq =>
    expire (60 * 60 * 24 * 366) >>= fun _ => pure (trackingNo year seq)).run exec _ = _
  rw [reseed_eq]
  cases recovered (highest year committed) with
  | none => exact ⟨_, rfl⟩
  | some seq => exact ⟨_, rfl⟩

/-- A stored number is what the query's answer is read as. -/
theorem recovered_trackingNo (seq : Nat) : recovered (some (trackingNo year seq)) = some seq := by
  have hne : trackingNo year seq ≠ "" := by
    intro heq
    have htext := congrArg String.toList heq
    rw [toList_trackingNo] at htext
    cases (List.append_eq_nil_iff.mp htext).1
  have hkept : Option.filter (· != "") (some (trackingNo year seq)) = some (trackingNo year seq) :=
    Option.filter_some_pos (bne_iff_ne.mpr hne)
  rw [recovered, hkept, Option.bind_some, number?_trackingNo]

/-- What the query finds is one of the stored numbers. -/
theorem highest_cases {committed : List String} (hproduced : Produced year committed) :
    highest year committed = none ∧ numbers year committed = [] ∨
      ∃ seq ∈ numbers year committed, highest year committed = some (trackingNo year seq) := by
  cases hhighest : highest year committed with
  | none =>
    have hnil := List.max?_eq_none_iff.mp hhighest
    exact .inl ⟨rfl, by rw [numbers, hnil, List.filterMap_nil]⟩
  | some no =>
    obtain ⟨hin, hlike⟩ := List.mem_filter.mp (List.max?_eq_some_iff.mp hhighest).1
    obtain ⟨seq, rfl⟩ := hproduced no hin hlike
    exact .inr ⟨seq, mem_numbers_of_mem hin, rfl⟩

/-- For every column the code has written, however long its numbers: a call
that finds the counter cold, with no other call under way, returns the number
after the largest one exactly if the column is in text order. -/
theorem reseed_continues_iff (year : Nat) (s : Registry) (hcold : s.counter = none)
    (hup : s.up = true) (hproduced : Produced year s.committed) :
    Continues year s ↔ InTextOrder year s.committed := by
  obtain ⟨s', hrun⟩ := @run_cold year s hcold hup
  have hfresh : trackingNo year (largest year s.committed + 1) ∉ s.committed := by
    intro hin
    have hle := le_largest (mem_numbers_of_mem hin)
    omega
  have hreturns : Continues year s ↔
      (recovered (highest year s.committed)).getD 0 = largest year s.committed := by
    unfold Continues
    rw [hrun]
    constructor
    · rintro ⟨s₁, heq, -, -⟩
      have hno := Except.ok.inj (Prod.mk.inj heq).1
      exact Nat.succ.inj (trackingNo_injective year hno)
    · intro heq
      rw [heq]
      exact ⟨s', rfl, hfresh, number?_trackingNo _⟩
  rw [hreturns]
  rcases highest_cases hproduced with ⟨hhighest, hnil⟩ | ⟨seq, hseq, hhighest⟩
  · -- nothing is stored: the counter stays at 1
    rw [hhighest, largest_eq_zero hnil]
    refine iff_of_true rfl ?_
    simp [InTextOrder, hnil]
  · rw [← highest_eq_largest_iff hproduced (List.ne_nil_of_mem hseq), hhighest, recovered_trackingNo,
      Option.getD_some, Option.some.injEq]
    exact (trackingNo_injective year).eq_iff.symm

/-- A column with a long number and a short one, and one of another year. -/
def mixedColumn : List String := ["REQ-2025-00009", "REQ-2024-99999", "REQ-2025-100000"]

theorem reseed_continues_mixed : Continues 2025 ⟨none, mixedColumn, true⟩ := by
  apply (reseed_continues_iff 2025 ⟨none, mixedColumn, true⟩ rfl rfl ?_).mpr
  · decide +kernel
  · intro no hin hlike
    simp only [mixedColumn, List.mem_cons, List.not_mem_nil, or_false] at hin
    rcases hin with rfl | rfl | rfl
    · exact ⟨9, by decide +kernel⟩
    · exact absurd hlike (by decide +kernel)
    · exact ⟨100000, by decide +kernel⟩

/-- The column once the hundred thousandth request of the year is in, or what
matters of it. -/
def sixDigits : List String := ["REQ-2025-99999", "REQ-2025-100000"]

/-- Its greatest text is that of 99999, and 100000 is handed out again. -/
theorem sixth_digit_handed_out :
    Produced 2025 sixDigits ∧
      ((generateTrackingNo 2025).run exec ⟨none, sixDigits, true⟩).1 = .ok "REQ-2025-100000" ∧
      ¬ Continues 2025 ⟨none, sixDigits, true⟩ := by
  have hproduced : Produced 2025 sixDigits := by
    intro no hin _
    simp only [sixDigits, List.mem_cons, List.not_mem_nil, or_false] at hin
    rcases hin with rfl | rfl
    · exact ⟨99999, by decide +kernel⟩
    · exact ⟨100000, by decide +kernel⟩
  have hrun : ((generateTrackingNo 2025).run exec ⟨none, sixDigits, true⟩).1 =
      .ok "REQ-2025-100000" := by decide +kernel
  refine ⟨hproduced, hrun, ?_⟩
  rintro ⟨s', hcontinues, hfresh, -⟩
  rw [hcontinues] at hrun
  rw [Except.ok.inj hrun] at hfresh
  exact hfresh (by decide)

end Royd.Tracking
