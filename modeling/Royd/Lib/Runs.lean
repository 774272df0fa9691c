/-
Royd.Lib.Runs — runs of a total step function, and the rules that carry a
property along them.

A machine is a function `step : σ → ℓ → σ`; a label that is not enabled
leaves the state alone, so a run is a plain list of labels and every list
is a run. Three notions are enough for every development over it:

* `run step s ls` — the state a run ends in;
* `Always step P s ls` — every state the run passes, the first and the
  last included, satisfies `P`;
* `Along step C s ls` — every step of the run meets the side condition
  `C`, a predicate on the state BEFORE the step and the label.

`run_invariant_along` is the induction used everywhere: an invariant kept
by the steps that meet `C` holds after every run whose steps all meet `C`.
-/

namespace Runs

universe u v

variable {σ : Type u} {ℓ : Type v}

/-! ## Runs -/

/-- The state a run of labels ends in. -/
def run (step : σ → ℓ → σ) (s : σ) (ls : List ℓ) : σ := ls.foldl step s

variable (step : σ → ℓ → σ)

@[simp] theorem run_nil (s : σ) : run step s [] = s := rfl

@[simp] theorem run_cons (s : σ) (l : ℓ) (ls : List ℓ) :
    run step s (l :: ls) = run step (step s l) ls := rfl

theorem run_append (s : σ) (xs ys : List ℓ) :
    run step s (xs ++ ys) = run step (run step s xs) ys :=
  List.foldl_append

theorem run_concat (s : σ) (ls : List ℓ) (l : ℓ) :
    run step s (ls ++ [l]) = step (run step s ls) l := by
  rw [run_append, run_cons, run_nil]

/-! ## Conditions on the steps of a run -/

/-- Every step of the run meets `C`. -/
def Along (C : σ → ℓ → Prop) : σ → List ℓ → Prop
  | _, [] => True
  | s, l :: ls => C s l ∧ Along C (step s l) ls

/-- Every state the run passes satisfies `P`. -/
def Always (P : σ → Prop) : σ → List ℓ → Prop
  | s, [] => P s
  | s, l :: ls => P s ∧ Always P (step s l) ls

variable {step}

@[simp] theorem along_nil {C : σ → ℓ → Prop} {s : σ} : Along step C s [] := trivial

@[simp] theorem along_cons {C : σ → ℓ → Prop} {s : σ} {l : ℓ} {ls : List ℓ} :
    Along step C s (l :: ls) ↔ C s l ∧ Along step C (step s l) ls := Iff.rfl

instance decidableAlong {C : σ → ℓ → Prop} [∀ s l, Decidable (C s l)] :
    ∀ (s : σ) (ls : List ℓ), Decidable (Along step C s ls)
  | _, [] => .isTrue trivial
  | s, l :: ls =>
    have : Decidable (Along step C (step s l) ls) := decidableAlong (step s l) ls
    inferInstanceAs (Decidable (C s l ∧ Along step C (step s l) ls))

theorem along_append {C : σ → ℓ → Prop} {s : σ} {xs ys : List ℓ} :
    Along step C s (xs ++ ys) ↔ Along step C s xs ∧ Along step C (run step s xs) ys := by
  induction xs generalizing s with
  | nil => simp
  | cons x xs ih => simp [ih, and_assoc]

theorem along_and {C D : σ → ℓ → Prop} {s : σ} {ls : List ℓ} (hC : Along step C s ls)
    (hD : Along step D s ls) : Along step (fun s l => C s l ∧ D s l) s ls := by
  induction ls generalizing s with
  | nil => trivial
  | cons l ls ih => exact ⟨⟨hC.1, hD.1⟩, ih hC.2 hD.2⟩

/-- The condition of a run, read at one of its steps. -/
theorem Along.at {C : σ → ℓ → Prop} {s : σ} {xs ys : List ℓ} {l : ℓ}
    (h : Along step C s (xs ++ l :: ys)) : C (run step s xs) l :=
  (along_append.mp h).2.1

/-- A condition of every step is a condition at each place of the run. -/
theorem along_iff_forall {C : σ → ℓ → Prop} {s : σ} {ls : List ℓ} :
    Along step C s ls ↔ ∀ xs l ys, ls = xs ++ l :: ys → C (run step s xs) l := by
  constructor
  · rintro h xs l ys rfl
    exact h.at
  · intro h
    induction ls generalizing s with
    | nil => trivial
    | cons x rest ih =>
      refine ⟨h [] x rest rfl, ih fun xs l ys hsplit => ?_⟩
      exact h (x :: xs) l ys (by rw [hsplit, List.cons_append])

theorem Always.head {P : σ → Prop} {s : σ} {ls : List ℓ} (h : Always step P s ls) : P s := by
  cases ls with
  | nil => exact h
  | cons l ls => exact h.1

theorem Always.last {P : σ → Prop} {s : σ} {ls : List ℓ} (h : Always step P s ls) :
    P (run step s ls) := by
  induction ls generalizing s with
  | nil => exact h
  | cons l ls ih => exact ih h.2

/-- What holds throughout a run holds wherever it is broken off. -/
theorem always_iff_forall_prefix {P : σ → Prop} {s : σ} {ls : List ℓ} :
    Always step P s ls ↔ ∀ xs, xs <+: ls → P (run step s xs) := by
  induction ls generalizing s with
  | nil =>
    constructor
    · intro h xs hxs
      rw [List.prefix_nil.mp hxs]
      exact h
    · exact fun h => h [] List.prefix_rfl
  | cons l ls ih =>
    constructor
    · rintro ⟨hs, hrest⟩ xs hxs
      rcases List.prefix_cons_iff.mp hxs with rfl | ⟨ys, rfl, hys⟩
      · exact hs
      · exact ih.mp hrest ys hys
    · intro h
      refine ⟨h [] List.nil_prefix, ih.mpr fun ys hys => ?_⟩
      exact h (l :: ys) (List.cons_prefix_cons.mpr ⟨rfl, hys⟩)

/-! ## Induction along runs -/

/-- An invariant kept by the steps that meet `C` survives every run whose
steps all meet `C`. -/
theorem run_invariant_along {I : σ → Prop} {C : σ → ℓ → Prop}
    (hstep : ∀ s l, I s → C s l → I (step s l)) {s : σ} (hs : I s) :
    ∀ {ls : List ℓ}, Along step C s ls → I (run step s ls)
  | [], _ => hs
  | l :: _, h => run_invariant_along hstep (hstep s l hs h.1) h.2

/-- An invariant kept by every step survives every run. -/
theorem run_invariant {I : σ → Prop} (hstep : ∀ s l, I s → I (step s l))
    {s : σ} (hs : I s) (ls : List ℓ) : I (run step s ls) := by
  induction ls generalizing s with
  | nil => exact hs
  | cons l ls ih => exact ih (hstep s l hs)

/-- What an invariant implies holds in every state a run passes. -/
theorem always_of_invariant {I P : σ → Prop} (hstep : ∀ s l, I s → I (step s l))
    (hP : ∀ s, I s → P s) {s : σ} (hs : I s) (ls : List ℓ) : Always step P s ls := by
  induction ls generalizing s with
  | nil => exact hP s hs
  | cons l ls ih => exact ⟨hP s hs, ih (hstep s l hs)⟩

/-- The same along a run whose steps all meet `C`. -/
theorem always_of_invariant_along {I P : σ → Prop} {C : σ → ℓ → Prop}
    (hstep : ∀ s l, I s → C s l → I (step s l)) (hP : ∀ s, I s → P s) {s : σ} (hs : I s)
    {ls : List ℓ} (h : Along step C s ls) : Always step P s ls := by
  induction ls generalizing s with
  | nil => exact hP s hs
  | cons l ls ih => exact ⟨hP s hs, ih (hstep s l hs h.1) h.2⟩

/-- If from a state that satisfies `P` a step leads to one that does exactly
if it meets `C`, then `P` holds throughout a run exactly if all its steps
meet `C`. -/
theorem always_iff_along {I P : σ → Prop} {C : σ → ℓ → Prop}
    (hinv : ∀ s l, I s → I (step s l)) (hstep : ∀ s l, I s → P s → (P (step s l) ↔ C s l))
    {s : σ} (hI : I s) (hP : P s) (ls : List ℓ) : Always step P s ls ↔ Along step C s ls := by
  induction ls generalizing s with
  | nil => exact ⟨fun _ => trivial, fun _ => hP⟩
  | cons l ls ih =>
    constructor
    · rintro ⟨-, hrest⟩
      exact ⟨(hstep s l hI hP).mp hrest.head, (ih (hinv s l hI) hrest.head).mp hrest⟩
    · rintro ⟨hl, hrest⟩
      have hnext := (hstep s l hI hP).mpr hl
      exact ⟨hP, (ih (hinv s l hI) hnext).mpr hrest⟩

/-- A relation that is reflexive, transitive and holds across every step
from an invariant state holds between the two ends of every run. -/
theorem run_relates {I : σ → Prop} {R : σ → σ → Prop} (hrefl : ∀ s, R s s)
    (htrans : ∀ {a b c}, R a b → R b c → R a c)
    (hinv : ∀ s l, I s → I (step s l)) (hR : ∀ s l, I s → R s (step s l))
    {s : σ} (hs : I s) (ls : List ℓ) : R s (run step s ls) := by
  induction ls generalizing s with
  | nil => exact hrefl s
  | cons l ls ih => exact htrans (hR s l hs) (ih (hinv s l hs))

/-- A condition every step from an invariant state meets is met along
every run from it. -/
theorem along_of_invariant {I : σ → Prop} {C D : σ → ℓ → Prop}
    (hinv : ∀ s l, I s → C s l → I (step s l)) (hD : ∀ s l, I s → C s l → D s l)
    {s : σ} (hs : I s) {ls : List ℓ} (hC : Along step C s ls) : Along step D s ls := by
  induction ls generalizing s with
  | nil => trivial
  | cons l ls ih => exact ⟨hD s l hs hC.1, ih (hinv s l hs hC.1) hC.2⟩

/-- Two runs side by side, the second without the silent labels of the
first: what a silent step keeps on its own, and every other step keeps when
both sides take it, holds of the two ends. -/
theorem run_filter_relates {R : σ → σ → Prop} {silent : ℓ → Bool}
    (hsilent : ∀ s t l, R s t → silent l = true → R (step s l) t)
    (hstep : ∀ s t l, R s t → silent l = false → R (step s l) (step t l))
    {s t : σ} (h : R s t) (ls : List ℓ) :
    R (run step s ls) (run step t (ls.filter fun l => !silent l)) := by
  induction ls generalizing s t with
  | nil => exact h
  | cons l ls ih =>
    cases hl : silent l with
    | true =>
      rw [List.filter_cons_of_neg (by simp [hl])]
      exact ih (hsilent s t l h hl)
    | false =>
      rw [List.filter_cons_of_pos (by simp [hl])]
      exact ih (hstep s t l h hl)

end Runs
