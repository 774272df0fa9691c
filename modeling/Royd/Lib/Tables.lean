/-
Royd.Lib.Tables — rows with a key: lookups, inserts and updates by key on a
list of rows.

Where keys are distinct, a row is found under its own key (`find?_of_mem`),
an update by key keeps the keys (`update_keys`), and a row under a new key
can be added (`nodup_concat`). A second key stays distinct through an insert
or an update exactly if no other row has the one the row gets
(`nodup_append_iff`, `nodup_update_iff`). A table of `n` rows misses one of the
first `n + 1` of any distinct candidates (`exists_first_absent`).
-/
import Mathlib.Data.List.Nodup
import Mathlib.Data.List.Pairwise
import Mathlib.Data.List.Perm.Subperm
import Mathlib.Data.Nat.Find

namespace Tables

universe u v

variable {α : Type u} {κ : Type v} {key : α → κ} {rows : List α}

/-- Two rows under one key are the same row. -/
theorem eq_of_key (hkeys : (rows.map key).Nodup) {r r' : α} (hr : r ∈ rows) (hr' : r' ∈ rows)
    (h : key r = key r') : r = r' :=
  List.inj_on_of_nodup_map hkeys hr hr' h

/-- The same where not every row has a key. -/
theorem eq_of_filterMap {f : α → Option κ} (hkeys : (rows.filterMap f).Nodup) {r r' : α}
    (hr : r ∈ rows) (hr' : r' ∈ rows) {k : κ} (hk : f r = some k) (hk' : f r' = some k) :
    r = r' := by
  by_contra hne
  have hsymm : Std.Symm fun a a' : α => ∀ b, f a = some b → ∀ b', f a' = some b' → b ≠ b' :=
    ⟨fun _ _ h b hb b' hb' => (h b' hb' b hb).symm⟩
  exact (List.pairwise_filterMap.mp hkeys).forall hr hr' hne k hk k hk' rfl

/-- A new row leaves the keys distinct if no row has its key. -/
theorem nodup_append_iff (h : (rows.map key).Nodup) (new : Option α) :
    ((rows ++ new.toList).map key).Nodup ↔ ∀ n ∈ new, ∀ row ∈ rows, key row ≠ key n := by
  cases new with
  | none => simpa using h
  | some n =>
    rw [Option.toList_some, List.map_append, List.nodup_append]
    simp [h]

/-- A row under a new key keeps the keys distinct. -/
theorem nodup_concat (hkeys : (rows.map key).Nodup) {r : α} (hnew : ∀ r' ∈ rows, key r' ≠ key r) :
    ((rows ++ [r]).map key).Nodup := by
  apply (nodup_append_iff hkeys (some r)).mpr
  intro n hn
  cases hn
  exact hnew

/-- A change to the row with one id leaves the keys distinct if no other row
has the key the row gets. -/
theorem nodup_update_iff {ι : Type v} [DecidableEq ι] {ids : α → ι} {f : α → α} {i : ι}
    (hids : (rows.map ids).Nodup) (h : (rows.map key).Nodup) :
    ((rows.map fun row => if ids row = i then f row else row).map key).Nodup ↔
      ∀ row ∈ rows, ids row = i → ∀ other ∈ rows, ids other ≠ ids row → key other ≠ key (f row) := by
  have hkey := List.inj_on_of_nodup_map h
  rw [List.map_map, List.nodup_map_iff_inj_on hids.of_map]
  constructor
  · intro hinj row hrow hi other hother hne heq
    have hother' : ids other ≠ i := hi ▸ hne
    have := hinj other hother row hrow (by simp [hi, hother', heq])
    exact hne (congrArg ids this)
  · intro hfree row hrow other hother heq
    by_cases hrow' : ids row = i
    · by_cases hother' : ids other = i
      · exact List.inj_on_of_nodup_map hids hrow hother (hrow'.trans hother'.symm)
      · have hne : ids other ≠ ids row := fun hid => hother' (hid.trans hrow')
        have := hfree row hrow hrow' other hother hne
        simp [hrow', hother'] at heq
        exact absurd heq.symm this
    · by_cases hother' : ids other = i
      · have hne : ids row ≠ ids other := fun hid => hrow' (hid.trans hother')
        have := hfree other hother hother' row hrow hne
        simp [hrow', hother'] at heq
        exact absurd heq this
      · simp only [Function.comp_apply, if_neg hrow', if_neg hother'] at heq
        exact hkey hrow hother heq

/-- A key finds one row at most. -/
theorem length_lookup_le (h : (rows.map key).Nodup) {p : α → Bool} {k : κ}
    (hp : ∀ row ∈ rows, p row = true → key row = k) : (rows.filter p).length ≤ 1 := by
  have hnodup : ((rows.filter p).map key).Nodup := h.sublist (List.filter_sublist.map key)
  have hall : ∀ x ∈ (rows.filter p).map key, x = k := by
    intro x hx
    obtain ⟨row, hrow, rfl⟩ := List.mem_map.mp hx
    exact hp row (List.mem_filter.mp hrow).1 (List.mem_filter.mp hrow).2
  rw [List.eq_replicate_of_mem hall, List.nodup_replicate] at hnodup
  simpa using hnodup

/-- Rows that an operation maps to themselves, each to itself. -/
theorem map_eq_self_iff {f : α → α} : rows.map f = rows ↔ ∀ r ∈ rows, f r = r := by
  have hid := List.map_inj_left (l := rows) (f := f) (g := id)
  rwa [List.map_id] at hid

/-- A class of rows that falls into two is counted as the two are. -/
theorem countP_split {p q r : α → Bool} : ∀ {xs : List α},
    (∀ x ∈ xs, (p x).toNat = (q x).toNat + (r x).toNat) → xs.countP p = xs.countP q + xs.countP r
  | [], _ => rfl
  | x :: xs, h => by
    have hrest := countP_split fun y hy => h y (List.mem_cons_of_mem x hy)
    have hx := h x List.mem_cons_self
    simp only [List.countP_cons, hrest]
    cases hp : p x <;> cases hq : q x <;> cases hr : r x <;> simp [hp, hq, hr] at hx ⊢ <;> omega

/-- And it is listed as the two are, but for the order. -/
theorem filter_split {p q r : α → Bool} : ∀ {xs : List α},
    (∀ x ∈ xs, (p x).toNat = (q x).toNat + (r x).toNat) →
      (xs.filter p).Perm (xs.filter q ++ xs.filter r)
  | [], _ => .refl []
  | x :: xs, h => by
    have hrest := filter_split fun y hy => h y (List.mem_cons_of_mem x hy)
    have hx := h x List.mem_cons_self
    cases hq : q x with
    | true =>
      cases hr : r x with
      | true =>
        cases hp : p x <;> simp [hp, hq, hr] at hx
      | false =>
        have hp : p x = true := by simpa [hq, hr, Bool.toNat_eq_one] using hx
        simpa [hp, hq, hr] using hrest
    | false =>
      cases hr : r x with
      | true =>
        have hp : p x = true := by simpa [hq, hr, Bool.toNat_eq_one] using hx
        simpa [hp, hq, hr] using (hrest.cons x).trans List.perm_middle.symm
      | false =>
        have hp : p x = false := by simpa [hq, hr, Bool.toNat_eq_zero] using hx
        simpa [hp, hq, hr] using hrest

variable [DecidableEq κ]

/-- What a lookup finds is a row with that key. -/
theorem find?_mem {k : κ} {r : α} (h : rows.find? (key · == k) = some r) : r ∈ rows ∧ key r = k :=
  ⟨List.mem_of_find?_eq_some h, by simpa using List.find?_some h⟩

/-- A row is found under its own key. -/
theorem find?_of_mem (hkeys : (rows.map key).Nodup) {r : α} (hr : r ∈ rows) :
    rows.find? (key · == key r) = some r := by
  cases hfind : rows.find? (key · == key r) with
  | none =>
    have habsent := List.find?_eq_none.mp hfind r hr
    simp at habsent
  | some r' =>
    obtain ⟨hmem, hkey⟩ := find?_mem hfind
    rw [eq_of_key hkeys hmem hr hkey]

/-- Under a key no row has, nothing is found. -/
theorem find?_absent {k : κ} (h : ∀ r ∈ rows, key r ≠ k) : rows.find? (key · == k) = none := by
  refine List.find?_eq_none.mpr fun r hr => ?_
  simpa using h r hr

/-- `UPDATE ... WHERE key = k`. -/
def update (key : α → κ) (rows : List α) (k : κ) (f : α → α) : List α :=
  rows.map fun r => if key r = k then f r else r

/-- An update that leaves the key of its row alone keeps the keys. -/
theorem update_keys {k : κ} {f : α → α} (hf : ∀ r, key r = k → key (f r) = k) :
    (update key rows k f).map key = rows.map key := by
  unfold update
  rw [List.map_map]
  refine List.map_congr_left fun r _ => ?_
  dsimp only [Function.comp_apply]
  split
  · rename_i heq
    rw [hf r heq, heq]
  · rfl

/-- What is found after such an update is what was found, updated. -/
theorem find?_update {k j : κ} {f : α → α} (hf : ∀ r, key r = k → key (f r) = k) :
    (update key rows k f).find? (key · == j) =
      (rows.find? (key · == j)).map fun r => if key r = k then f r else r := by
  have hkey : ((key · == j) ∘ fun r => if key r = k then f r else r) = (key · == j) := by
    funext r
    dsimp only [Function.comp_apply]
    split
    · rename_i heq
      rw [hf r heq, heq]
    · rfl
  unfold update
  rw [List.find?_map, hkey]

/-- A row after an update: the one that was updated, or one that was there. -/
theorem mem_update {k : κ} {f : α → α} {r : α} (h : r ∈ update key rows k f) :
    (∃ r₀ ∈ rows, key r₀ = k ∧ r = f r₀) ∨ (r ∈ rows ∧ key r ≠ k) := by
  obtain ⟨r₀, hr₀, rfl⟩ := List.mem_map.mp h
  split
  · rename_i heq
    exact .inl ⟨r₀, hr₀, heq, rfl⟩
  · rename_i hne
    exact .inr ⟨hr₀, hne⟩

/-! ## Rows by position -/

/-- A list around one of its places. -/
theorem split_at {l : List α} {i : Nat} {a : α} (h : l[i]? = some a) :
    ∃ xs ys, l = xs ++ a :: ys ∧ (∀ b, l.set i b = xs ++ b :: ys) ∧ l.eraseIdx i = xs ++ ys := by
  obtain ⟨hlt, rfl⟩ := List.getElem?_eq_some_iff.mp h
  have hset : ∀ b, l.set i b = l.take i ++ b :: l.drop (i + 1) := fun b => by
    rw [List.set_eq_take_append_cons_drop, if_pos hlt]
  refine ⟨l.take i, l.drop (i + 1), ?_, hset, List.eraseIdx_eq_take_drop_succ ..⟩
  rw [← hset, List.set_getElem_self]

/-- With another row in one of its places, a list holds that row and old ones. -/
theorem mem_exchange {xs ys : List α} {a b c : α} (h : c ∈ xs ++ b :: ys) :
    c = b ∨ c ∈ xs ++ a :: ys := by
  rcases List.mem_append.mp h with h | h
  · exact .inr (List.mem_append_left _ h)
  · rcases List.mem_cons.mp h with h | h
    · exact .inl h
    · exact .inr (List.mem_append_right _ (List.mem_cons_of_mem _ h))

omit [DecidableEq κ] in
/-- And the old ones do not have the key of the row that was in the place. -/
theorem mem_exchange_key {xs ys : List α} {a b c : α} (hkeys : ((xs ++ a :: ys).map key).Nodup)
    (h : c ∈ xs ++ b :: ys) : c = b ∨ (c ∈ xs ++ a :: ys ∧ key c ≠ key a) := by
  have hperm : ((xs ++ a :: ys).map key).Perm ((a :: (xs ++ ys)).map key) :=
    List.perm_middle.map _
  rw [hperm.nodup_iff, List.map_cons, List.nodup_cons] at hkeys
  rw [List.perm_middle.mem_iff, List.mem_cons] at h
  rcases h with h | h
  · exact .inl h
  · refine .inr ⟨List.perm_middle.mem_iff.mpr (List.mem_cons_of_mem _ h), fun heq => ?_⟩
    exact hkeys.1 (heq ▸ List.mem_map_of_mem h)

/-- A change that a count does not see. -/
theorem countP_modify {p : α → Bool} {f : α → α} (h : ∀ a, p (f a) = p a) :
    ∀ (l : List α) (i : Nat), (l.modify i f).countP p = l.countP p
  | [], _ => by simp
  | a :: l, 0 => by simp [List.countP_cons, h]
  | a :: l, i + 1 => by simp [List.countP_cons, countP_modify h l i]

/-- A table without the row under one key. -/
theorem split_key (hkeys : (rows.map key).Nodup) {r : α} (hr : r ∈ rows) :
    ∃ xs ys, rows = xs ++ r :: ys ∧ rows.filter (key · != key r) = xs ++ ys := by
  obtain ⟨xs, ys, rfl⟩ := List.append_of_mem hr
  have hperm : ((xs ++ r :: ys).map key).Perm ((r :: (xs ++ ys)).map key) := List.perm_middle.map _
  rw [hperm.nodup_iff, List.map_cons, List.nodup_cons] at hkeys
  have hother : ∀ a ∈ xs ++ ys, (key a != key r) = true := by
    intro a ha
    simp only [bne_iff_ne, ne_eq]
    exact fun heq => hkeys.1 (heq ▸ List.mem_map_of_mem ha)
  refine ⟨xs, ys, rfl, ?_⟩
  rw [List.filter_append, List.filter_cons_of_neg (by simp), ← List.filter_append]
  exact List.filter_eq_self.mpr hother

/-! ## Candidates -/

/-- Of distinct candidates, one of the first `n + 1` is not among `n` rows. -/
theorem exists_absent {c : ℕ → α} (hc : Function.Injective c) (rows : List α) :
    ∃ k ≤ rows.length, c k ∉ rows := by
  by_contra hall
  push Not at hall
  have hsubset : (List.range (rows.length + 1)).map c ⊆ rows := by
    intro a ha
    obtain ⟨k, hk, rfl⟩ := List.mem_map.mp ha
    exact hall k (Nat.le_of_lt_succ (List.mem_range.mp hk))
  have hnodup : ((List.range (rows.length + 1)).map c).Nodup := List.nodup_range.map hc
  have hlen := (hnodup.subperm hsubset).length_le
  rw [List.length_map, List.length_range] at hlen
  exact Nat.not_succ_le_self _ hlen

/-- The first candidate that is not among the rows. -/
theorem exists_first_absent {c : ℕ → α} (hc : Function.Injective c) (rows : List α) :
    ∃ k ≤ rows.length, c k ∉ rows ∧ ∀ j < k, c j ∈ rows := by
  classical
  obtain ⟨k, hk, hck⟩ := exists_absent hc rows
  have hsome : ∃ k, c k ∉ rows := ⟨k, hck⟩
  refine ⟨Nat.find hsome, Nat.le_trans (Nat.find_min' hsome hck) hk, Nat.find_spec hsome, ?_⟩
  intro j hj
  exact not_not.mp (Nat.find_min hsome hj)

end Tables
