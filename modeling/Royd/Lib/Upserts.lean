/-
Royd.Lib.Upserts — a table filled by key: the one row under a key is written
to, a row is added if there is none, and two rows under it are an error.

A table is seen through `under`, the rows beneath each key. An upsert leaves
one row beneath its own key (`under_upsert`) and every other key as it was
(`under_upsert_other`), so what an entry has put in place (`Holds`) stays
there, and putting it there again changes nothing (`Holds.upsert`). The same
is proved of a list of entries with distinct keys.
-/
import Royd.Lib.Tables

namespace Upserts

universe u v

variable {α : Type u} {κ : Type v} [DecidableEq κ]

/-- Rows, and the id the next one gets. -/
structure Table (α : Type u) where
  rows : List α
  nextId : Nat
  deriving DecidableEq, Repr

/-- The column a row is updated by and the one it is looked up by. -/
structure Columns (α : Type u) (κ : Type v) where
  id : α → Nat
  key : α → κ

/-- What is to stand under a key: the row to add if there is none, and what is
written to the row in either case. -/
structure Entry (cols : Columns α κ) where
  key : κ
  new : Nat → α
  set : α → α
  newId : ∀ n, cols.id (new n) = n
  newKey : ∀ n, cols.key (new n) = key
  setId : ∀ r, cols.id (set r) = cols.id r
  setKey : ∀ r, cols.key (set r) = cols.key r
  setSet : ∀ r, set (set r) = set r

variable {cols : Columns α κ}

/-- The rows under a key. -/
def Table.under (t : Table α) (cols : Columns α κ) (k : κ) : List α :=
  t.rows.filter (cols.key · == k)

/-- `scalar_one_or_none`, and the row it did not find. -/
def Table.upsert (t : Table α) (e : Entry cols) : Option (Table α × Nat) :=
  match t.under cols e.key with
  | [] => some ({ rows := t.rows ++ [e.set (e.new t.nextId)], nextId := t.nextId + 1 }, t.nextId)
  | [r] => some ({ t with rows := Tables.update cols.id t.rows (cols.id r) e.set }, cols.id r)
  | _ => none

/-- Ids tell the rows apart, and the next one is new. -/
structure Table.Wf (cols : Columns α κ) (t : Table α) : Prop where
  ids : (t.rows.map cols.id).Nodup
  below : ∀ r ∈ t.rows, cols.id r < t.nextId

/-- One row stands under the key of the entry, with the id `i`, and the entry
has nothing to write to it. -/
def Table.Holds (t : Table α) (e : Entry cols) (i : Nat) : Prop :=
  ∃ r, t.under cols e.key = [r] ∧ cols.id r = i ∧ e.set r = r

variable {t t' : Table α} {e : Entry cols} {i : Nat}

theorem mem_under {k : κ} {r : α} : r ∈ t.under cols k ↔ r ∈ t.rows ∧ cols.key r = k := by
  simp [Table.under]

/-! ## One entry -/

/-- An upsert writes to the row it found, or adds one. -/
theorem upsert_cases (h : t.upsert e = some (t', i)) :
    (∃ r, t.under cols e.key = [r] ∧ i = cols.id r ∧
      t' = { t with rows := Tables.update cols.id t.rows (cols.id r) e.set }) ∨
    (t.under cols e.key = [] ∧ i = t.nextId ∧
      t' = { rows := t.rows ++ [e.set (e.new t.nextId)], nextId := t.nextId + 1 }) := by
  unfold Table.upsert at h
  split at h
  · rename_i hnone
    cases h
    exact .inr ⟨hnone, rfl, rfl⟩
  · rename_i r hone
    cases h
    exact .inl ⟨r, hone, rfl, rfl⟩
  · cases h

theorem upsert_eq_none : t.upsert e = none ↔ 1 < (t.under cols e.key).length := by
  unfold Table.upsert
  split
  · rename_i hnone
    simp [hnone]
  · rename_i r hone
    simp [hone]
  · rename_i hnone hone
    refine iff_of_true rfl ?_
    rcases hrows : t.under cols e.key with _ | ⟨a, _ | ⟨b, rest⟩⟩
    · exact absurd hrows hnone
    · exact absurd hrows (hone a)
    · simp

theorem upsert_wf (hwf : t.Wf cols) (h : t.upsert e = some (t', i)) : t'.Wf cols := by
  rcases upsert_cases h with ⟨r, hone, -, rfl⟩ | ⟨hnone, -, rfl⟩
  · have hids : (Tables.update cols.id t.rows (cols.id r) e.set).map cols.id =
        t.rows.map cols.id := Tables.update_keys fun r' hr' => (e.setId r').trans hr'
    constructor
    · exact hids ▸ hwf.ids
    · intro r' hr'
      rcases Tables.mem_update hr' with ⟨r₀, hr₀, -, rfl⟩ | ⟨hr₀, -⟩
      · rw [e.setId]
        exact hwf.below r₀ hr₀
      · exact hwf.below r' hr₀
  · have hid : cols.id (e.set (e.new t.nextId)) = t.nextId := by rw [e.setId, e.newId]
    constructor
    · refine Tables.nodup_concat hwf.ids fun r hr => ?_
      rw [hid]
      exact Nat.ne_of_lt (hwf.below r hr)
    · intro r hr
      rcases List.mem_append.mp hr with hr | hr
      · exact Nat.lt_succ_of_lt (hwf.below r hr)
      · rw [List.mem_singleton.mp hr, hid]
        exact Nat.lt_succ_self _

theorem upsert_nextId (h : t.upsert e = some (t', i)) : t.nextId ≤ t'.nextId := by
  rcases upsert_cases h with ⟨r, -, -, rfl⟩ | ⟨-, -, rfl⟩
  · exact Nat.le_refl _
  · exact Nat.le_succ _

/-- The rows under a key, after the row of one id was written to. -/
theorem under_update (hset : ∀ r, cols.key (e.set r) = cols.key r) (k : κ) :
    Table.under { t with rows := Tables.update cols.id t.rows i e.set } cols k =
      (t.under cols k).map fun r => if cols.id r = i then e.set r else r := by
  unfold Table.under Tables.update
  dsimp only
  rw [List.filter_map]
  congr 2
  funext r
  dsimp only [Function.comp_apply]
  split
  · rw [hset]
  · rfl

/-- An upsert puts its entry in place. -/
theorem under_upsert (h : t.upsert e = some (t', i)) : t'.Holds e i := by
  rcases upsert_cases h with ⟨r, hone, rfl, rfl⟩ | ⟨hnone, rfl, rfl⟩
  · refine ⟨e.set r, ?_, e.setId r, e.setSet r⟩
    rw [under_update e.setKey, hone]
    simp
  · refine ⟨e.set (e.new t.nextId), ?_, by rw [e.setId, e.newId], e.setSet _⟩
    have hkey : cols.key (e.set (e.new t.nextId)) = e.key := by rw [e.setKey, e.newKey]
    unfold Table.under at hnone ⊢
    rw [List.filter_append, hnone]
    simp [hkey]

/-- Under another key the same rows stand. -/
theorem under_upsert_other (hwf : t.Wf cols) (h : t.upsert e = some (t', i)) {k : κ}
    (hne : e.key ≠ k) : t'.under cols k = t.under cols k := by
  rcases upsert_cases h with ⟨r, hone, rfl, rfl⟩ | ⟨hnone, rfl, rfl⟩
  · rw [under_update e.setKey]
    refine Tables.map_eq_self_iff.mpr fun r' hr' => if_neg fun hid => hne ?_
    obtain ⟨hmem, hkey⟩ := mem_under.mp hr'
    obtain ⟨hr, hkey'⟩ := mem_under.mp (hone ▸ List.mem_singleton_self r)
    rw [← hkey, ← hkey', Tables.eq_of_key hwf.ids hmem hr hid]
  · have hkey : cols.key (e.set (e.new t.nextId)) = e.key := by rw [e.setKey, e.newKey]
    unfold Table.under
    rw [List.filter_append]
    simp [hkey, hne]

/-- An entry that is in place is found there and left alone. -/
theorem Table.Holds.upsert (hwf : t.Wf cols) (h : t.Holds e i) : t.upsert e = some (t, i) := by
  obtain ⟨r, hone, rfl, hset⟩ := h
  have hrows : Tables.update cols.id t.rows (cols.id r) e.set = t.rows := by
    refine Tables.map_eq_self_iff.mpr fun r' hr' => ?_
    obtain ⟨hr, -⟩ := mem_under.mp (hone ▸ List.mem_singleton_self r)
    split
    · rename_i hid
      rw [Tables.eq_of_key hwf.ids hr' hr hid, hset]
    · rfl
  unfold Table.upsert
  rw [hone]
  dsimp only
  rw [hrows]

/-- An upsert elsewhere leaves an entry in place. -/
theorem Table.Holds.other {e' : Entry cols} {j : Nat} (h : t.Holds e i) (hwf : t.Wf cols)
    (hupsert : t.upsert e' = some (t', j)) (hne : e'.key ≠ e.key) : t'.Holds e i := by
  obtain ⟨r, hone, hid, hset⟩ := h
  exact ⟨r, (under_upsert_other hwf hupsert hne).trans hone, hid, hset⟩

/-- A row is still there after an upsert, as it was or written to. -/
theorem upsert_mem {R : α → α → Prop} (hwf : t.Wf cols) (h : t.upsert e = some (t', i))
    (hrefl : ∀ r, R r r) (hset : ∀ r, cols.key r = e.key → R r (e.set r)) :
    ∀ r ∈ t.rows, ∃ r' ∈ t'.rows, R r r' := by
  intro r hr
  rcases upsert_cases h with ⟨r₀, hone, -, rfl⟩ | ⟨-, -, rfl⟩
  · obtain ⟨hr₀, hkey⟩ := mem_under.mp (hone ▸ List.mem_singleton_self r₀)
    by_cases hid : cols.id r = cols.id r₀
    · cases Tables.eq_of_key hwf.ids hr hr₀ hid
      exact ⟨e.set r, List.mem_map.mpr ⟨r, hr, if_pos rfl⟩, hset r hkey⟩
    · exact ⟨r, List.mem_map.mpr ⟨r, hr, if_neg hid⟩, hrefl r⟩
  · exact ⟨r, List.mem_append_left _ hr, hrefl r⟩

/-- What holds of every row and of the one to add holds after an upsert. -/
theorem upsert_keep {P : α → Prop} (h : t.upsert e = some (t', i)) (hrows : ∀ r ∈ t.rows, P r)
    (hnew : P (e.new t.nextId)) (hset : ∀ r, P r → P (e.set r)) : ∀ r ∈ t'.rows, P r := by
  rcases upsert_cases h with ⟨r₀, -, -, rfl⟩ | ⟨-, -, rfl⟩
  · intro r hr
    rcases Tables.mem_update hr with ⟨r', hr', -, rfl⟩ | ⟨hr', -⟩
    · exact hset r' (hrows r' hr')
    · exact hrows r hr'
  · intro r hr
    rcases List.mem_append.mp hr with hr | hr
    · exact hrows r hr
    · rw [List.mem_singleton.mp hr]
      exact hset _ hnew

/-! ## A list of entries -/

/-- The entries one after the other, with the ids of their rows. -/
def Table.upsertAll (t : Table α) : List (Entry cols) → Option (Table α × List Nat)
  | [] => some (t, [])
  | e :: es => do
    let (t, i) ← t.upsert e
    let (t, is) ← t.upsertAll es
    some (t, i :: is)

variable {es : List (Entry cols)} {ids : List Nat}

theorem upsertAll_cons (h : t.upsertAll (e :: es) = some (t', ids)) :
    ∃ t₁ i is, t.upsert e = some (t₁, i) ∧ t₁.upsertAll es = some (t', is) ∧ ids = i :: is := by
  obtain ⟨⟨t₁, i⟩, hfirst, h⟩ := Option.bind_eq_some_iff.mp h
  obtain ⟨⟨t₂, is⟩, hrest, h⟩ := Option.bind_eq_some_iff.mp h
  cases h
  exact ⟨t₁, i, is, hfirst, hrest, rfl⟩

theorem upsertAll_wf : ∀ {es : List (Entry cols)} {t t' : Table α} {ids : List Nat}, t.Wf cols →
    t.upsertAll es = some (t', ids) → t'.Wf cols ∧ t.nextId ≤ t'.nextId
  | [], _, _, _, hwf, h => by
    cases h
    exact ⟨hwf, Nat.le_refl _⟩
  | e :: es, _, _, _, hwf, h => by
    obtain ⟨t₁, i, is, hfirst, hrest, -⟩ := upsertAll_cons h
    obtain ⟨hwf', hle⟩ := upsertAll_wf (upsert_wf hwf hfirst) hrest
    exact ⟨hwf', Nat.le_trans (upsert_nextId hfirst) hle⟩

theorem under_upsertAll_other {k : κ} : ∀ {es : List (Entry cols)} {t t' : Table α}
    {ids : List Nat}, t.Wf cols → t.upsertAll es = some (t', ids) → k ∉ es.map (·.key) →
    t'.under cols k = t.under cols k
  | [], _, _, _, _, h, _ => by
    cases h
    rfl
  | e :: es, _, _, _, hwf, h, hk => by
    obtain ⟨t₁, i, is, hfirst, hrest, -⟩ := upsertAll_cons h
    rw [List.map_cons, List.mem_cons, not_or] at hk
    rw [under_upsertAll_other (upsert_wf hwf hfirst) hrest hk.2,
      under_upsert_other hwf hfirst (Ne.symm hk.1)]

/-- Entries with distinct keys are all in place in the end. -/
theorem holds_upsertAll : ∀ {es : List (Entry cols)} {t t' : Table α} {ids : List Nat},
    t.Wf cols → (es.map (·.key)).Nodup → t.upsertAll es = some (t', ids) →
    List.Forall₂ t'.Holds es ids
  | [], _, _, _, _, _, h => by
    cases h
    exact .nil
  | e :: es, _, _, _, hwf, hkeys, h => by
    obtain ⟨t₁, i, is, hfirst, hrest, rfl⟩ := upsertAll_cons h
    rw [List.map_cons, List.nodup_cons] at hkeys
    have hwf₁ := upsert_wf hwf hfirst
    obtain ⟨r, hone, hid, hset⟩ := under_upsert hfirst
    exact .cons ⟨r, (under_upsertAll_other hwf₁ hrest hkeys.1).trans hone, hid, hset⟩
      (holds_upsertAll hwf₁ hkeys.2 hrest)

/-- Entries that are all in place are found there and left alone. -/
theorem upsertAll_of_holds (hwf : t.Wf cols) (h : List.Forall₂ t.Holds es ids) :
    t.upsertAll es = some (t, ids) := by
  induction h with
  | nil => rfl
  | cons hfirst _ ih =>
    unfold Table.upsertAll
    rw [hfirst.upsert hwf]
    dsimp only [Option.bind_eq_bind, Option.bind_some]
    rw [ih]
    rfl

/-- It fails for the entries that have two rows under their key. -/
theorem upsertAll_eq_none : ∀ {es : List (Entry cols)} {t : Table α}, t.Wf cols →
    (es.map (·.key)).Nodup →
    (t.upsertAll es = none ↔ ∃ e ∈ es, 1 < (t.under cols e.key).length)
  | [], _, _, _ => by simp [Table.upsertAll]
  | e :: es, t, hwf, hkeys => by
    rw [List.map_cons, List.nodup_cons] at hkeys
    unfold Table.upsertAll
    cases hfirst : t.upsert e with
    | none => simpa using Or.inl (upsert_eq_none.mp hfirst)
    | some done =>
      obtain ⟨t₁, i⟩ := done
      have hlt : ¬1 < (t.under cols e.key).length := fun hlt => by
        rw [upsert_eq_none.mpr hlt] at hfirst
        cases hfirst
      have hsame : ∀ e' ∈ es, t₁.under cols e'.key = t.under cols e'.key := fun e' he' =>
        under_upsert_other hwf hfirst fun heq =>
          hkeys.1 (heq ▸ List.mem_map_of_mem he')
      have hrest := upsertAll_eq_none (upsert_wf hwf hfirst) hkeys.2
      simp only [Option.bind_eq_bind, Option.bind_some, List.exists_mem_cons_iff, hlt, false_or]
      rw [Option.bind_eq_none_iff]
      constructor
      · intro h
        have hnone : t₁.upsertAll es = none := by
          cases hall : t₁.upsertAll es with
          | none => rfl
          | some done => cases h _ hall
        obtain ⟨e', he', hmany⟩ := hrest.mp hnone
        exact ⟨e', he', hsame e' he' ▸ hmany⟩
      · rintro ⟨e', he', hmany⟩ done hdone
        rw [hrest.mpr ⟨e', he', (hsame e' he').symm ▸ hmany⟩] at hdone
        cases hdone

theorem upsertAll_mem {R : α → α → Prop} (hrefl : ∀ r, R r r)
    (htrans : ∀ {a b c}, R a b → R b c → R a c) : ∀ {es : List (Entry cols)} {t t' : Table α}
    {ids : List Nat}, t.Wf cols → t.upsertAll es = some (t', ids) →
    (∀ e ∈ es, ∀ r, cols.key r = e.key → R r (e.set r)) → ∀ r ∈ t.rows, ∃ r' ∈ t'.rows, R r r'
  | [], _, _, _, _, h, _, r, hr => by
    cases h
    exact ⟨r, hr, hrefl r⟩
  | e :: es, _, _, _, hwf, h, hset, r, hr => by
    obtain ⟨t₁, i, is, hfirst, hrest, -⟩ := upsertAll_cons h
    obtain ⟨r₁, hr₁, hto⟩ := upsert_mem hwf hfirst hrefl (hset e List.mem_cons_self) r hr
    obtain ⟨r₂, hr₂, hon⟩ := upsertAll_mem hrefl htrans (upsert_wf hwf hfirst) hrest
      (fun e' he' => hset e' (List.mem_cons_of_mem e he')) r₁ hr₁
    exact ⟨r₂, hr₂, htrans hto hon⟩

theorem upsertAll_keep {P : α → Prop} : ∀ {es : List (Entry cols)} {t t' : Table α}
    {ids : List Nat}, t.upsertAll es = some (t', ids) → (∀ r ∈ t.rows, P r) →
    (∀ e ∈ es, ∀ n, P (e.new n)) → (∀ e ∈ es, ∀ r, P r → P (e.set r)) → ∀ r ∈ t'.rows, P r
  | [], _, _, _, h, hrows, _, _ => by
    cases h
    exact hrows
  | e :: es, _, _, _, h, hrows, hnew, hset => by
    obtain ⟨t₁, i, is, hfirst, hrest, -⟩ := upsertAll_cons h
    exact upsertAll_keep hrest (upsert_keep hfirst hrows (hnew e List.mem_cons_self _)
        (hset e List.mem_cons_self))
      (fun e' he' => hnew e' (List.mem_cons_of_mem e he'))
      (fun e' he' => hset e' (List.mem_cons_of_mem e he'))

end Upserts
