/-
Royd.Lib.Ledgers — rows that stand for values kept in a store.

A store gives values at places and is only ever extended (`Extends`): what is
once at a place stays there. A row knows its place; which value it stands for is
written in a ledger, under the row's key, when the row is added (`note`). Rows
are accounted for if the store has at their places what the ledger has under
their keys. New rows with new keys keep it so (`Accounted.append`), rows may be
dropped (`Accounted.subset`), and a row added later may be a copy of another.
-/
import Mathlib.Data.List.Nodup
import Mathlib.Logic.Function.Basic

namespace Ledgers

/-! ## Stores -/

section Stores

variable {κ β : Type} {d d' d'' : κ → Option β}

/-- What was at a place still is. -/
def Extends (d d' : κ → Option β) : Prop := ∀ p b, d p = some b → d' p = some b

theorem Extends.refl (d : κ → Option β) : Extends d d := fun _ _ h => h

theorem Extends.trans (h : Extends d d') (h' : Extends d' d'') : Extends d d'' :=
  fun p b hp => h' p b (h p b hp)

/-- Writing where nothing was. -/
theorem extends_update [DecidableEq κ] {p : κ} (hnew : d p = none) (b : β) :
    Extends d (Function.update d p (some b)) := by
  intro q c hq
  have hne : q ≠ p := by
    rintro rfl
    rw [hnew] at hq
    cases hq
  rw [Function.update_of_ne hne, hq]

end Stores

/-! ## Ledgers -/

section Notes

variable {ι β ρ : Type} [DecidableEq ι] {l : ι → Option β} {i : ι} {is : List ι} {bs : List β}

/-- New entries, before those there are. -/
def note (l : ι → Option β) (is : List ι) (bs : List β) : ι → Option β :=
  fun i => ((is.zip bs).lookup i).or (l i)

@[simp] theorem note_nil (l : ι → Option β) (bs : List β) : note l [] bs = l := rfl

theorem lookup_zip_of_notMem : ∀ {is : List ι} {bs : List β}, i ∉ is →
    (is.zip bs).lookup i = none := by
  intro is
  induction is with
  | nil =>
    intro bs _
    rfl
  | cons j is ih =>
    intro bs h
    cases bs with
    | nil => rfl
    | cons b bs =>
      rw [List.mem_cons, not_or] at h
      rw [List.zip_cons_cons, List.lookup_cons, beq_false_of_ne h.1]
      exact ih h.2

/-- Other keys keep their entries. -/
theorem note_of_notMem (h : i ∉ is) : note l is bs i = l i := by
  rw [note, lookup_zip_of_notMem h, Option.none_or]

/-- Each new row is entered with its own value. -/
theorem note_of_mem {key : ρ → ι} {value : ρ → Option β} {r : ρ} : ∀ {rows : List ρ} {bs : List β},
    (rows.map key).Nodup → rows.map value = bs.map some → r ∈ rows →
    ∃ b, note l (rows.map key) bs (key r) = some b ∧ value r = some b := by
  intro rows
  induction rows with
  | nil =>
    intro bs _ _ hr
    cases hr
  | cons q rows ih =>
    intro bs hnodup hvalues hr
    cases bs with
    | nil => cases hvalues
    | cons b bs =>
      rw [List.map_cons, List.map_cons, List.cons.injEq] at hvalues
      rw [List.map_cons, List.nodup_cons] at hnodup
      rcases List.mem_cons.mp hr with rfl | hr
      · exact ⟨b, by simp [note], hvalues.1⟩
      · obtain ⟨c, hc, hvalue⟩ := ih hnodup.2 hvalues.2 hr
        have hne : key r ≠ key q := by
          intro heq
          exact hnodup.1 (heq ▸ List.mem_map_of_mem hr)
        refine ⟨c, ?_, hvalue⟩
        rw [← hc, note, note, List.map_cons, List.zip_cons_cons, List.lookup_cons,
          beq_false_of_ne hne]

end Notes

/-! ## Accounted rows -/

section Rows

variable {ι κ β ρ : Type} {key : ρ → ι} {place : ρ → κ} {rows new : List ρ}
  {l : ι → Option β} {d d' : κ → Option β}

/-- Every row has its entry, and the store has the entry's value at the row's place. -/
def Accounted (key : ρ → ι) (place : ρ → κ) (rows : List ρ) (l : ι → Option β)
    (d : κ → Option β) : Prop :=
  ∀ r ∈ rows, ∃ b, l (key r) = some b ∧ d (place r) = some b

theorem Accounted.extends (h : Accounted key place rows l d) (hd : Extends d d') :
    Accounted key place rows l d' := by
  intro r hr
  obtain ⟨b, hb, hplace⟩ := h r hr
  exact ⟨b, hb, hd _ b hplace⟩

theorem Accounted.subset (h : Accounted key place rows l d) (hsub : new ⊆ rows) :
    Accounted key place new l d :=
  fun r hr => h r (hsub hr)

/-- What accounted rows stand for, is at their places. -/
theorem Accounted.values (h : Accounted key place rows l d) :
    rows.map (fun r => d (place r)) = rows.map fun r => l (key r) := by
  apply List.map_congr_left
  intro r hr
  obtain ⟨b, hb, hplace⟩ := h r hr
  rw [hb, hplace]

/-- Rows are added with keys of their own. -/
theorem Accounted.append [DecidableEq ι] {bs : List β} (h : Accounted key place rows l d)
    (hnodup : (new.map key).Nodup) (hfresh : ∀ r ∈ rows, key r ∉ new.map key)
    (hnew : new.map (fun r => d (place r)) = bs.map some) :
    Accounted key place (rows ++ new) (note l (new.map key) bs) d := by
  intro r hr
  rcases List.mem_append.mp hr with hr | hr
  · rw [note_of_notMem (hfresh r hr)]
    exact h r hr
  · exact note_of_mem hnodup hnew hr

end Rows

end Ledgers
