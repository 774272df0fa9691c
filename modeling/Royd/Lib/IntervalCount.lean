/-
Royd.Lib.IntervalCount — counting the marked instants of a half-open
interval of integers.

`count p a b` is the number of instants `x` with `a ≤ x < b` and `p x`:
the measure of the part of `[a, b)` on which a clock runs, in ticks. It is
additive over adjacent intervals, monotone, and grows by at most one per
tick; everything else follows from these three.

`Reach p a d r` says that `r` is the first instant, counted from `a`, by
which `d` marked ticks have passed. It is stated as an adjunction
(`r ≤ t ↔ d ≤ count p a t`), so that composing two reaches, moving the
starting point and comparing two reaches are each one rewriting.

`Budget p h u s D` is the invariant of a stopwatch with a budget of `h`
ticks, of which `u` were used by instant `s`: `D` is the instant at which
the budget runs out. `Budget.advance` lets the watch run, `Budget.resume`
restarts it after a pause at a recomputed instant.
-/
import Mathlib

namespace IntervalCount

open Finset

variable (p : ℤ → Prop) [DecidablePred p]

/-- The number of marked instants in `[a, b)`. -/
noncomputable def count (a b : ℤ) : ℤ := (((Ico a b).filter p).card : ℤ)

/-! ## Additive, monotone, one tick at a time -/

theorem count_nonneg (a b : ℤ) : 0 ≤ count p a b := Int.natCast_nonneg _

theorem count_of_le {a b : ℤ} (h : b ≤ a) : count p a b = 0 := by
  simp [count, Ico_eq_empty_of_le h]

@[simp] theorem count_self (a : ℤ) : count p a a = 0 := count_of_le p le_rfl

/-- Adjacent intervals add up. -/
theorem count_add {a b c : ℤ} (hab : a ≤ b) (hbc : b ≤ c) :
    count p a b + count p b c = count p a c := by
  have hdisj : Disjoint ((Ico a b).filter p) ((Ico b c).filter p) :=
    disjoint_filter_filter (Ico_disjoint_Ico_consecutive a b c)
  have hunion : (Ico a b).filter p ∪ (Ico b c).filter p = (Ico a c).filter p := by
    rw [← filter_union, Ico_union_Ico_eq_Ico hab hbc]
  unfold count
  rw [← hunion, card_union_of_disjoint hdisj, Nat.cast_add]

/-- A stretch on which every instant is marked counts its whole length. -/
theorem count_of_forall {a b : ℤ} (hab : a ≤ b) (h : ∀ x, a ≤ x → x < b → p x) :
    count p a b = b - a := by
  have hall : (Ico a b).filter p = Ico a b := by
    refine filter_true_of_mem fun x hx => ?_
    obtain ⟨h1, h2⟩ := mem_Ico.mp hx
    exact h x h1 h2
  rw [count, hall, Int.card_Ico, Int.toNat_of_nonneg (by omega)]

/-- A stretch without marked instants counts nothing. -/
theorem count_of_forall_not {a b : ℤ} (h : ∀ x, a ≤ x → x < b → ¬ p x) :
    count p a b = 0 := by
  have hnone : (Ico a b).filter p = ∅ := by
    refine filter_false_of_mem fun x hx => ?_
    obtain ⟨h1, h2⟩ := mem_Ico.mp hx
    exact h x h1 h2
  rw [count, hnone, card_empty, Nat.cast_zero]

theorem count_mono_right (a : ℤ) {b c : ℤ} (hbc : b ≤ c) : count p a b ≤ count p a c := by
  rcases le_total a b with hab | hba
  · have hadd := count_add p hab hbc
    have hnonneg := count_nonneg p b c
    omega
  · rw [count_of_le p hba]
    exact count_nonneg p a c

theorem count_le_length {a b : ℤ} (hab : a ≤ b) : count p a b ≤ b - a := by
  have hcard : ((Ico a b).filter p).card ≤ (Ico a b).card := card_filter_le _ _
  rw [Int.card_Ico] at hcard
  unfold count
  omega

/-- One more tick adds at most one. -/
theorem count_succ_le {a b : ℤ} (hab : a ≤ b) : count p a (b + 1) ≤ count p a b + 1 := by
  have hadd := count_add p hab (show b ≤ b + 1 by omega)
  have hone := count_le_length p (show b ≤ b + 1 by omega)
  omega

/-! ## The first instant by which `d` marked ticks have passed -/

/-- `r` is the first instant, from `a` on, by which `d` ticks were counted. -/
def Reach (a d r : ℤ) : Prop := a ≤ r ∧ ∀ t, a ≤ t → (r ≤ t ↔ d ≤ count p a t)

variable {p}

/-- The count at the reached instant is exactly the amount asked for. -/
theorem Reach.count_eq {a d r : ℤ} (h : Reach p a d r) (hd : 0 < d) : count p a r = d := by
  obtain ⟨har, hiff⟩ := h
  have hge : d ≤ count p a r := (hiff r har).mp le_rfl
  have hne : a ≠ r := by
    rintro rfl
    rw [count_self] at hge
    omega
  have hprev : ¬ d ≤ count p a (r - 1) := fun hle => by
    have := (hiff (r - 1) (by omega)).mpr hle
    omega
  have hstep := count_succ_le p (show a ≤ r - 1 by omega)
  rw [show r - 1 + 1 = r by omega] at hstep
  omega

/-- Something remains to be counted exactly before the reached instant. -/
theorem Reach.lt_iff {a d r t : ℤ} (h : Reach p a d r) (ht : a ≤ t) :
    t < r ↔ count p a t < d := by
  rw [← not_le, h.2 t ht, not_le]

theorem Reach.lt_of_pos {a d r : ℤ} (h : Reach p a d r) (hd : 0 < d) : a < r := by
  rw [h.lt_iff le_rfl, count_self]
  exact hd

/-- `d` is reached at `r` when `d` ticks were counted by `r` and the last
one of them is `r - 1`. -/
theorem reach_of_last {a d r : ℤ} (har : a < r) (hcount : count p a r = d)
    (hlast : p (r - 1)) : Reach p a d r := by
  have hstep : count p a (r - 1) = d - 1 := by
    have hadd := count_add p (show a ≤ r - 1 by omega) (show r - 1 ≤ r by omega)
    have hone : count p (r - 1) r = r - (r - 1) := by
      refine count_of_forall p (by omega) fun x h1 h2 => ?_
      rwa [show x = r - 1 by omega]
    omega
  refine ⟨har.le, fun t hat => ⟨fun hrt => ?_, fun hd => ?_⟩⟩
  · rw [← hcount]
    exact count_mono_right p a hrt
  · by_contra hlt
    have hmono := count_mono_right p a (show t ≤ r - 1 by omega)
    omega

/-- Reaching `d₁` and then `d₂` more is reaching their sum. -/
theorem Reach.trans {a d₁ d₂ m r : ℤ} (h₁ : Reach p a d₁ m) (h₂ : Reach p m d₂ r)
    (hd₂ : 0 < d₂) (hm : count p a m = d₁) : Reach p a (d₁ + d₂) r := by
  have hmr : m ≤ r := h₂.1
  refine ⟨h₁.1.trans hmr, fun t hat => ⟨fun hrt => ?_, fun hd => ?_⟩⟩
  · have hmt : m ≤ t := hmr.trans hrt
    have hadd := count_add p h₁.1 hmt
    have hle := (h₂.2 t hmt).mp hrt
    omega
  · have hmt : m ≤ t := (h₁.2 t hat).mpr (by omega)
    have hadd := count_add p h₁.1 hmt
    exact (h₂.2 t hmt).mpr (by omega)

/-- The starting point of a reach may be moved back over unmarked ticks. -/
theorem Reach.extend {a d m r : ℤ} (h : Reach p m d r) (ham : a ≤ m) (hm : count p a m = 0)
    (hd : 0 < d) : Reach p a d r := by
  refine ⟨ham.trans h.1, fun t hat => ?_⟩
  rcases le_or_gt m t with hmt | htm
  · have hadd := count_add p ham hmt
    rw [h.2 t hmt]
    omega
  · have hmono := count_mono_right p a htm.le
    have hmr := h.1
    constructor <;> intro _ <;> omega

/-- The starting point of a reach may be moved towards its end. -/
theorem Reach.rebase {a d r m : ℤ} (h : Reach p a d r) (ham : a ≤ m) (hmr : m ≤ r) :
    Reach p m (d - count p a m) r := by
  refine ⟨hmr, fun t hmt => ?_⟩
  have hadd := count_add p ham hmt
  rw [h.2 t (ham.trans hmt)]
  omega

/-- Starting later, the same amount is reached no earlier. -/
theorem Reach.le_of_start_le {a b d r r' : ℤ} (h : Reach p a d r) (h' : Reach p b d r')
    (hab : a ≤ b) : r ≤ r' := by
  have hadd := count_add p hab h'.1
  have hle : d ≤ count p b r' := (h'.2 r' h'.1).mp le_rfl
  have hnonneg := count_nonneg p a b
  exact (h.2 r' (hab.trans h'.1)).mpr (by omega)

theorem Reach.unique {a d r r' : ℤ} (h : Reach p a d r) (h' : Reach p a d r') : r = r' :=
  le_antisymm (h.le_of_start_le h' le_rfl) (h'.le_of_start_le h le_rfl)

/-! ## A stopwatch with a budget -/

variable (p)

/-- Of a budget of `h` ticks, `u` were used by instant `s`. While some are
left, `D` is where the last one is reached; once they are spent `D` lies
behind, strictly so when the budget was overrun. -/
def Budget (h u s D : ℤ) : Prop :=
  (u < h ∧ Reach p s (h - u) D) ∨ (u = h ∧ D ≤ s) ∨ (h < u ∧ D < s)

variable {p}

theorem Budget.start {h s D : ℤ} (hh : 0 < h) (hD : Reach p s h D) : Budget p h 0 s D :=
  .inl ⟨hh, by simpa using hD⟩

/-- With ticks left, `D` lies ahead and exactly the rest is counted up to it. -/
theorem Budget.left {h u s D : ℤ} (hb : Budget p h u s D) (hu : u < h) :
    s < D ∧ count p s D = h - u := by
  rcases hb with ⟨_, hreach⟩ | ⟨hspent, _⟩ | ⟨hover, _⟩
  · exact ⟨hreach.lt_of_pos (by omega), hreach.count_eq (by omega)⟩
  · omega
  · omega

/-- With no tick left, `D` does not lie ahead. -/
theorem Budget.spent {h u s D : ℤ} (hb : Budget p h u s D) (hu : h ≤ u) : D ≤ s := by
  rcases hb with ⟨hlt, _⟩ | ⟨_, hD⟩ | ⟨_, hD⟩ <;> omega

/-- An overrun budget ended strictly before the present. -/
theorem Budget.overrun {h u s D : ℤ} (hb : Budget p h u s D) (hu : h < u) : D < s := by
  rcases hb with ⟨hlt, _⟩ | ⟨heq, _⟩ | ⟨_, hD⟩ <;> omega

/-- The watch runs from `s` to `t`. -/
theorem Budget.advance {h u s t D : ℤ} (hb : Budget p h u s D) (hst : s ≤ t) :
    Budget p h (u + count p s t) t D := by
  have hnonneg := count_nonneg p s t
  rcases hb with ⟨hu, hreach⟩ | ⟨hu, hD⟩ | ⟨hu, hD⟩
  · by_cases htD : t < D
    · have hlt := (hreach.lt_iff hst).mp htD
      refine .inl ⟨by omega, ?_⟩
      rw [show h - (u + count p s t) = h - u - count p s t by omega]
      exact hreach.rebase hst htD.le
    · have hDt : D ≤ t := by omega
      have hcount := hreach.count_eq (by omega)
      have hadd := count_add p hreach.1 hDt
      rcases hDt.eq_or_lt with rfl | hlt
      · exact .inr (.inl ⟨by omega, le_rfl⟩)
      · have hrest := count_nonneg p D t
        by_cases hzero : count p D t = 0
        · exact .inr (.inl ⟨by omega, hDt⟩)
        · exact .inr (.inr ⟨by omega, hlt⟩)
  · rcases hst.eq_or_lt with rfl | hlt
    · exact .inr (.inl ⟨by simp [hu], hD⟩)
    · by_cases hzero : count p s t = 0
      · exact .inr (.inl ⟨by omega, by omega⟩)
      · exact .inr (.inr ⟨by omega, by omega⟩)
  · exact .inr (.inr ⟨by omega, by omega⟩)

/-- The watch stands still from `s` to `t`; a spent budget stays spent. -/
theorem Budget.still {h u s t D : ℤ} (hb : Budget p h u s D) (hst : s ≤ t) (hu : h ≤ u) :
    Budget p h u t D := by
  rcases hb with ⟨hlt, _⟩ | ⟨heq, hD⟩ | ⟨hover, hD⟩
  · omega
  · exact .inr (.inl ⟨heq, by omega⟩)
  · exact .inr (.inr ⟨hover, by omega⟩)

/-- The watch stood still from `s` to `t` and is restarted at `t`: with
ticks left, `D'` is where the remaining ones are reached from `t`; with
none left the old `D` is kept. Either way `D` has not moved back. -/
theorem Budget.resume {h u s t D D' : ℤ} (hb : Budget p h u s D) (hst : s ≤ t)
    (hpos : 0 < count p s D → Reach p t (count p s D) D')
    (hzero : ¬ 0 < count p s D → D' = D) :
    Budget p h u t D' ∧ D ≤ D' := by
  by_cases hu : u < h
  · have hcount := (hb.left hu).2
    have hreach : Reach p s (h - u) D := by
      rcases hb with ⟨_, hreach⟩ | ⟨heq, _⟩ | ⟨hover, _⟩
      · exact hreach
      · omega
      · omega
    have hreach' := hpos (by omega)
    rw [hcount] at hreach'
    exact ⟨.inl ⟨hu, hreach'⟩, hreach.le_of_start_le hreach' hst⟩
  · have hD' : D' = D := hzero (by rw [count_of_le p (hb.spent (by omega))]; omega)
    subst hD'
    exact ⟨hb.still hst (by omega), le_rfl⟩

end IntervalCount
