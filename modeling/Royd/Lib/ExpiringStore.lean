/-
Royd.Lib.ExpiringStore — a key-value store whose keys expire, as Redis keeps
one.

An entry is live up to and including the instant it is kept until. Reading
takes the current instant; expired entries stay in the list and are never
seen. `Until s k t` says that `k` is dead after `t` unless it is written
again: it is what a bound on the last write to a key amounts to.
-/

namespace ExpiringStore

variable {κ ν : Type} [DecidableEq κ]

/-- A written key: its value, and the last instant it is live at. -/
structure Entry (κ ν : Type) where
  key : κ
  value : ν
  live : Int
  deriving DecidableEq, Repr

/-- The entries, one for each key that was written and not deleted. -/
abbrev Store (κ ν : Type) := List (Entry κ ν)

/-! ## Operations -/

/-- The value of a key that is live at `now`. -/
def get (s : Store κ ν) (now : Int) (k : κ) : Option ν :=
  (s.find? fun e => e.key == k && decide (now ≤ e.live)).map (·.value)

/-- `EXISTS`. -/
def contains (s : Store κ ν) (now : Int) (k : κ) : Bool := (get s now k).isSome

/-- `DEL`. -/
def delete (s : Store κ ν) (ks : List κ) : Store κ ν := s.filter fun e => !ks.contains e.key

/-- `SETEX`: the key is written and lives for `ttl`. -/
def setex (s : Store κ ν) (now : Int) (k : κ) (ttl : Int) (v : ν) : Store κ ν :=
  ⟨k, v, now + ttl⟩ :: delete s [k]

/-- The live keys that match. -/
def scan (s : Store κ ν) (now : Int) (p : κ → Bool) : List κ :=
  (s.filter fun e => p e.key && decide (now ≤ e.live)).map (·.key)

/-! ## What a read sees -/

section Reads

variable {s : Store κ ν} {now : Int} {k k' : κ} {ks : List κ} {ttl : Int} {v : ν}

theorem find?_filter_weaker {α : Type} {p q : α → Bool} (h : ∀ a, q a = true → p a = true) :
    ∀ l : List α, (l.filter p).find? q = l.find? q
  | [] => rfl
  | a :: l => by
    have ih := find?_filter_weaker h l
    cases hp : p a with
    | true => rw [List.filter_cons_of_pos hp, List.find?_cons, List.find?_cons, ih]
    | false =>
      have hq : q a = false := by
        cases hqa : q a with
        | false => rfl
        | true => rw [h a hqa] at hp; cases hp
      rw [List.filter_cons_of_neg (by simp [hp]), List.find?_cons, hq, ih]

@[simp] theorem get_delete_of_notMem (h : k ∉ ks) : get (delete s ks) now k = get s now k := by
  unfold get delete
  rw [find?_filter_weaker]
  intro e he
  simp only [Bool.and_eq_true, beq_iff_eq] at he
  simpa [he.1] using h

@[simp] theorem get_delete_of_mem (h : k ∈ ks) : get (delete s ks) now k = none := by
  unfold get delete
  rw [Option.map_eq_none_iff, List.find?_eq_none]
  intro e he
  simp only [List.mem_filter, Bool.not_eq_true', List.contains_eq_mem, decide_eq_false_iff_not] at he
  simp only [Bool.and_eq_true, beq_iff_eq, not_and]
  rintro rfl
  exact absurd h he.2

theorem get_setex_self {later : Int} (h : later ≤ now + ttl) :
    get (setex s now k ttl v) later k = some v := by
  unfold setex get
  rw [List.find?_cons_of_pos (by simp [h])]
  rfl

@[simp] theorem get_setex_of_ne (later : Int) (h : k' ≠ k) :
    get (setex s now k ttl v) later k' = get s later k' := by
  have hrest : get (delete s [k]) later k' = get s later k' := get_delete_of_notMem (by simp [h])
  unfold setex
  rw [← hrest]
  unfold get
  rw [List.find?_cons_of_neg]
  simp [Ne.symm h]

theorem contains_eq_false : contains s now k = false ↔ get s now k = none := by
  simp [contains]

/-- A key is there if one of its entries is live. -/
theorem contains_iff : contains s now k = true ↔ ∃ e ∈ s, e.key = k ∧ now ≤ e.live := by
  simp [contains, get, List.find?_isSome]

/-- A key that is not scanned is not live, and a scanned one matches. -/
theorem mem_scan {p : κ → Bool} :
    k ∈ scan s now p ↔ p k = true ∧ contains s now k = true := by
  unfold scan contains get
  simp only [List.mem_map, List.mem_filter, Bool.and_eq_true, decide_eq_true_eq, Option.isSome_map,
    List.find?_isSome, beq_iff_eq]
  constructor
  · rintro ⟨e, ⟨he, hp, hlive⟩, rfl⟩
    exact ⟨hp, e, he, rfl, hlive⟩
  · rintro ⟨hp, e, he, rfl, hlive⟩
    exact ⟨e, ⟨he, hp, hlive⟩, rfl⟩

end Reads

/-! ## Bounds on how long a key lives -/

/-- No entry of the key is live after `t`. -/
def Until (s : Store κ ν) (k : κ) (t : Int) : Prop := ∀ e ∈ s, e.key = k → e.live ≤ t

section Until

variable {s : Store κ ν} {now : Int} {k k' : κ} {ks : List κ} {ttl : Int} {v : ν} {t : Int}

theorem Until.get_eq_none (h : Until s k t) (hnow : t < now) : get s now k = none := by
  unfold get
  rw [Option.map_eq_none_iff, List.find?_eq_none]
  intro e he
  simp only [Bool.and_eq_true, beq_iff_eq, decide_eq_true_eq, not_and]
  intro hk
  have hle := h e he hk
  omega

/-- A key that is not live now is dead from now on. -/
theorem until_of_contains_eq_false (h : contains s now k = false) : Until s k (now - 1) := by
  intro e he hk
  have hget := contains_eq_false.mp h
  unfold get at hget
  rw [Option.map_eq_none_iff, List.find?_eq_none] at hget
  have hlive : ¬ now ≤ e.live := by simpa [hk] using hget e he
  omega

theorem Until.delete (h : Until s k t) : Until (delete s ks) k t :=
  fun e he => h e (List.mem_filter.mp he).1

theorem Until.setex_self (h : now + ttl ≤ t) : Until (setex s now k ttl v) k t := by
  intro e he hk
  rcases List.mem_cons.mp he with rfl | he
  · exact h
  · have hne := (List.mem_filter.mp he).2
    simp [hk] at hne

theorem Until.setex_of_ne (h : Until s k' t) (hne : k' ≠ k) :
    Until (setex s now k ttl v) k' t := by
  intro e he hk
  rcases List.mem_cons.mp he with rfl | he
  · exact absurd hk (Ne.symm hne)
  · exact h.delete e he hk

omit [DecidableEq κ] in
theorem Until.mono {t' : Int} (h : Until s k t) (hle : t ≤ t') : Until s k t' :=
  fun e he hk => Int.le_trans (h e he hk) hle

end Until

/-! ## Keys that are gone -/

/-- The key was deleted, or never written. -/
def Absent (s : Store κ ν) (k : κ) : Prop := ∀ e ∈ s, e.key ≠ k

section Absent

variable {s : Store κ ν} {now : Int} {k k' : κ} {ks : List κ} {ttl : Int} {v : ν}

theorem Absent.get_eq_none (h : Absent s k) (now : Int) : get s now k = none := by
  unfold get
  rw [Option.map_eq_none_iff, List.find?_eq_none]
  intro e he
  simp [h e he]

theorem Absent.contains_eq_false (h : Absent s k) (now : Int) : contains s now k = false :=
  ExpiringStore.contains_eq_false.mpr (h.get_eq_none now)

theorem Absent.delete (h : Absent s k) : Absent (delete s ks) k :=
  fun e he => h e (List.mem_filter.mp he).1

theorem absent_delete (s : Store κ ν) (h : k ∈ ks) : Absent (delete s ks) k := by
  rintro e he rfl
  have hne := (List.mem_filter.mp he).2
  simp [h] at hne

theorem Absent.setex_of_ne (h : Absent s k') (hne : k' ≠ k) :
    Absent (setex s now k ttl v) k' := by
  intro e he
  rcases List.mem_cons.mp he with rfl | he
  · exact Ne.symm hne
  · exact h.delete e he

end Absent

end ExpiringStore
