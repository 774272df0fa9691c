/-
Royd.Directory.FacultyCodes — the code a new faculty gets.

The loop of `_upsert_faculty` has no bound of its own. The candidates are
distinct (`candidate_injective`), so a table of `n` faculties takes at most `n`
of the first `n + 1`, and the first that is left ends the loop (`run_freeCode_first`).
What `upper` makes of the initials does not matter: they are cut to sixteen
characters afterwards, so there is room for the suffix.
-/
import Mathlib.Algebra.Group.Nat.Defs
import Royd.Directory.Organisation
import Royd.Lib.Tables

namespace Royd.Organisation

open Programs

variable {upper : String → String} {r : Registry} {name code : String}

/-! ## The candidates -/

theorem orCurrent_ne_empty {text current : String} (h : current ≠ "") :
    orCurrent text current ≠ "" := by
  unfold orCurrent
  split
  · exact h
  · rename_i hvisible
    intro hempty
    rw [hempty] at hvisible
    exact hvisible rfl

theorem slugifyCode_ne_empty (upper : String → String) (name : String) :
    slugifyCode upper name ≠ "" :=
  orCurrent_ne_empty (by decide)

theorem length_slugifyCode (upper : String → String) (name : String) :
    (slugifyCode upper name).length ≤ 16 := by
  unfold slugifyCode
  dsimp only
  generalize upper _ = short
  unfold orCurrent
  split
  · decide
  · rw [← String.length_toList, String.toList_ofList, List.length_take]
    exact Nat.min_le_left _ _

/-- `_slugify_code(name)[:32]`, the first code that is tried. -/
def startCode (upper : String → String) (name : String) : String :=
  String.ofList ((slugifyCode upper name).toList.take 32)

/-- The second cut takes nothing away. -/
theorem startCode_eq (upper : String → String) (name : String) :
    startCode upper name = slugifyCode upper name := by
  have hlen := length_slugifyCode upper name
  rw [← String.length_toList] at hlen
  unfold startCode
  rw [List.take_of_length_le (by omega), String.ofList_toList]

theorem toList_candidate_succ (code : String) (suffix : Nat) :
    (candidate code (suffix + 1)).toList =
      code.toList.take 29 ++ '-' :: Nat.toDigits 10 (suffix + 1) := by
  have hdigits : (toString (suffix + 1)).toList = Nat.toDigits 10 (suffix + 1) := by
    rw [Nat.toString_eq_ofList_toDigits, String.toList_ofList]
  unfold candidate
  rw [if_neg (Nat.succ_ne_zero suffix), String.toList_append, String.toList_append,
    String.toList_ofList, hdigits, List.append_assoc]
  rfl

/-- No code is tried twice. -/
theorem candidate_injective (hcode : code.length ≤ 29) : Function.Injective (candidate code) := by
  rw [← String.length_toList] at hcode
  have hzero : (candidate code 0).toList = code.toList := rfl
  -- Beside the code itself there is one with a suffix, which is longer.
  have hlonger : ∀ suffix, candidate code 0 ≠ candidate code (suffix + 1) := by
    intro suffix heq
    have hlists := congrArg String.toList heq
    rw [hzero, toList_candidate_succ, List.take_of_length_le hcode] at hlists
    have hlen := congrArg List.length hlists
    rw [List.length_append, List.length_cons] at hlen
    omega
  intro i j heq
  cases i with
  | zero =>
    cases j with
    | zero => rfl
    | succ j => exact absurd heq (hlonger j)
  | succ i =>
    cases j with
    | zero => exact absurd heq.symm (hlonger i)
    | succ j =>
      have hlists := congrArg String.toList heq
      rw [toList_candidate_succ, toList_candidate_succ] at hlists
      have hdigits := (List.cons.inj (List.append_cancel_left hlists)).2
      have hvalues := congrArg (fun cs => Nat.ofDigitChars 10 cs 0) hdigits
      simpa using hvalues

/-- A candidate fits its column as long as the suffix has fourteen digits. -/
theorem length_candidate {suffix : Nat} (hcode : code.length ≤ 16) (hsuffix : suffix < 10 ^ 14) :
    (candidate code suffix).length ≤ 32 := by
  cases suffix with
  | zero =>
    show code.length ≤ 32
    omega
  | succ suffix =>
    rw [← String.length_toList] at hcode
    have hdigits : (Nat.toDigits 10 (suffix + 1)).length ≤ 14 :=
      (Nat.length_toDigits_le_iff (by decide) (by decide)).mpr hsuffix
    rw [← String.length_toList, toList_candidate_succ, List.length_append, List.length_cons,
      List.length_take]
    omega

theorem candidate_ne_empty {suffix : Nat} (hcode : code ≠ "") : candidate code suffix ≠ "" := by
  cases suffix with
  | zero => exact hcode
  | succ suffix =>
    intro hempty
    have hlists := toList_candidate_succ code suffix
    rw [hempty] at hlists
    simp at hlists

/-! ## The loop -/

/-- A code is looked up. -/
theorem run_selectCode (hcodes : (r.faculties.map (·.code)).Nodup) (code : String) :
    ∃ row, (selectOne (send (.facultiesCoded code))).run exec r = (.ok row, r) ∧
      (row = none ↔ code ∉ r.faculties.map (·.code)) := by
  have hquery : (send (.facultiesCoded code)).run exec r =
      (.ok (r.faculties.filter (·.code == code)), r) := rfl
  have hone : (r.faculties.filter (·.code == code)).length ≤ 1 := by
    apply Tables.length_lookup_le hcodes (k := code)
    intro f _ hf
    exact beq_iff_eq.mp hf
  have habsent : code ∉ r.faculties.map (·.code) ↔ r.faculties.filter (·.code == code) = [] := by
    simp [List.filter_eq_nil_iff]
  rw [run_selectOne hquery, habsent]
  cases hrows : r.faculties.filter (·.code == code) with
  | nil => exact ⟨none, rfl, by simp⟩
  | cons f rest =>
    rw [hrows] at hone
    obtain rfl := List.eq_nil_of_length_eq_zero (Nat.le_zero.mp (Nat.le_of_succ_le_succ hone))
    exact ⟨some f, rfl, by simp⟩

/-- The loop ends with the first candidate that is not taken. -/
theorem run_freeCode_first (hcodes : (r.faculties.map (·.code)).Nodup) (code : String)
    (suffix : Nat) {rounds k : Nat}
    (hk : k < rounds) (hfree : candidate code (suffix + k) ∉ r.faculties.map (·.code))
    (htaken : ∀ j < k, candidate code (suffix + j) ∈ r.faculties.map (·.code)) :
    (freeCode code rounds suffix).run exec r = (.ok (candidate code (suffix + k)), r) := by
  induction k generalizing rounds suffix with
  | zero =>
    obtain ⟨rounds, rfl⟩ := Nat.exists_eq_succ_of_ne_zero (Nat.ne_of_gt hk)
    obtain ⟨row, hrun, hrow⟩ := run_selectCode hcodes (candidate code suffix)
    unfold freeCode
    rw [Prog.run_bind, hrun, hrow.mpr hfree]
    rfl
  | succ k ih =>
    obtain ⟨rounds, rfl⟩ := Nat.exists_eq_succ_of_ne_zero (Nat.ne_of_gt (Nat.zero_lt_of_lt hk))
    obtain ⟨row, hrun, hrow⟩ := run_selectCode hcodes (candidate code suffix)
    have hused := htaken 0 (Nat.succ_pos k)
    obtain ⟨f, hf⟩ : ∃ f, row = some f :=
      Option.ne_none_iff_exists'.mp fun hnone => (hrow.mp hnone) hused
    have hnext : suffix + (k + 1) = suffix + 1 + k := by omega
    unfold freeCode
    rw [Prog.run_bind, hrun, hf, hnext]
    apply ih (suffix + 1) (Nat.lt_of_succ_lt_succ hk)
    · rw [← hnext]
      exact hfree
    · intro j hj
      rw [show suffix + 1 + j = suffix + (j + 1) by omega]
      exact htaken (j + 1) (Nat.succ_lt_succ hj)

/-- What the loop leaves with: a code for the column that no row has, so that a
row with it can be inserted. -/
structure Usable (r : Registry) (code : String) : Prop where
  nonempty : code ≠ ""
  fits : code.length ≤ 32
  unused : ∀ f ∈ r.faculties, f.code ≠ code
  inserts : ∀ row : FacultyRow, row.code = code → (r.apply (.rows (some row) none)).coded = true

theorem usable_of_absent (hcoded : r.coded = true) (hnonempty : code ≠ "") (hfits : code.length ≤ 32)
    (habsent : code ∉ r.faculties.map (·.code)) : Usable r code where
  nonempty := hnonempty
  fits := hfits
  unused f hf heq := habsent (heq ▸ List.mem_map_of_mem hf)
  inserts row hrow := by
    unfold Registry.coded at hcoded ⊢
    rw [decide_eq_true_iff] at hcoded ⊢
    apply Tables.nodup_concat hcoded
    intro f hf heq
    exact habsent (hrow ▸ heq ▸ List.mem_map_of_mem hf)

/-- For every table whose codes are distinct and every name, the loop returns
after at most one more test than there are faculties, with a usable code; a
faculty of a new name is made with it. -/
theorem faculty_code_found (upper : String → String) (r : Registry) (hcoded : r.coded = true)
    (hrows : r.faculties.length < 10 ^ 14) (name : String) :
    ∃ code, Usable r code ∧
      (∀ rounds, r.faculties.length + 1 ≤ rounds →
        (freeCode (startCode upper name) rounds 0).run exec r = (.ok code, r)) ∧
      (name ≠ "" → (∀ f ∈ r.faculties, f.name ≠ name) →
        ∀ rounds, r.faculties.length + 1 ≤ rounds →
          (upsertFaculty upper rounds name).run exec r =
            (.ok (some ({ id := r.nextId, name, code, isActive := true }, true)),
              { r with nextId := r.nextId + 1 })) := by
  have hcodes : (r.faculties.map (·.code)).Nodup := of_decide_eq_true hcoded
  have hstart : (startCode upper name).length ≤ 16 :=
    startCode_eq upper name ▸ length_slugifyCode upper name
  have hinjective : Function.Injective (candidate (startCode upper name)) :=
    candidate_injective (by omega)
  obtain ⟨k, hk, hfree, htaken⟩ :=
    Tables.exists_first_absent hinjective (r.faculties.map (·.code))
  rw [List.length_map] at hk
  have hloop : ∀ rounds, r.faculties.length + 1 ≤ rounds →
      (freeCode (startCode upper name) rounds 0).run exec r =
        (.ok (candidate (startCode upper name) k), r) := by
    intro rounds hrounds
    have hrun := run_freeCode_first hcodes (startCode upper name) 0
      (show k < rounds by omega) (by rwa [Nat.zero_add])
      (fun j hj => by rw [Nat.zero_add]; exact htaken j hj)
    rwa [Nat.zero_add] at hrun
  refine ⟨candidate (startCode upper name) k, ?_, hloop, ?_⟩
  · have hnonempty : startCode upper name ≠ "" :=
      startCode_eq upper name ▸ slugifyCode_ne_empty upper name
    exact usable_of_absent hcoded (candidate_ne_empty hnonempty)
      (length_candidate hstart (by omega)) hfree
  · intro hname hnew rounds hrounds
    have hnone : r.faculties.filter (·.name == name) = [] := by
      simpa [List.filter_eq_nil_iff] using hnew
    have hquery : (send (.facultiesNamed name)).run exec r = (.ok [], r) := by
      rw [← hnone]
      rfl
    have hempty : name.isEmpty = false := by simpa using hname
    unfold upsertFaculty
    rw [hempty, if_neg Bool.false_ne_true, Prog.run_bind, run_selectOne hquery]
    dsimp only [scalarOneOrNone]
    rw [Prog.run_bind]
    have hfound := hloop rounds hrounds
    unfold startCode at hfound
    rw [hfound]
    rfl

/-- Three faculties of one initial, and a fourth. -/
def lettered : Registry where
  nextId := 4
  faculties :=
    [{ id := 1, name := "Fizika", code := "F", isActive := true },
      { id := 2, name := "Filologiya", code := "F-1", isActive := true },
      { id := 3, name := "Farmatsevtika", code := "F-2", isActive := true }]

theorem faculty_code_found_lettered :
    ∃ code, Usable lettered code ∧ code = "F-3" := by
  obtain ⟨code, husable, hloop, -⟩ :=
    faculty_code_found id lettered (by decide) (by decide) "Falsafa"
  have hrun : (freeCode (startCode id "Falsafa") 4 0).run exec lettered = (.ok "F-3", lettered) := by
    rfl
  have heq := (hloop 4 (by decide)).symm.trans hrun
  cases heq
  exact ⟨_, husable, rfl⟩

end Royd.Organisation
